import NeuralSoc.Api.Models

/-!
# The alerts table

The rows of all tenants, and the writes the database accepts. The composite UNIQUE constraint is checked row
by row, and a table only holds rows that the database does not reject.
-/

namespace NeuralSoc.Tenants

open Api

/-! ## Rows -/

/-- `AlertPayload`, what a sensor sends. -/
structure AlertPayload where
  alertId : String
  eventType : String
  timestamp : String
  threatClass : String
  severity : String
  confidenceScore : PyFloat
  sourceIp : String
  destinationIp : Option String := none
  evidence : Option String := none
  traceId : Option String := none
  flowId : Option String := none
  spanId : Option String := none
  mitreTactic : Option String := none
  mitreTechnique : Option String := none
  modelName : Option String := none
  modelVersion : Option String := none
  schemaVersion : Option String := none
  deriving DecidableEq

structure Alert where
  tenantId : ℕ
  alertId : String
  timestamp : String
  eventType : String
  threatClass : Option String
  confidenceScore : Option PyFloat
  severity : Option String
  sourceIp : Option String
  destinationIp : Option String
  evidence : Option String
  traceId : Option String
  flowId : Option String
  spanId : Option String
  mitreTactic : Option String
  mitreTechnique : Option String
  modelName : Option String
  modelVersion : Option String
  schemaVersion : Option String
  deriving DecidableEq

/-- `uq_alerts_tenant_alert_id` -/
def Alert.key (a : Alert) : ℕ × String := (a.tenantId, a.alertId)

def AlertPayload.row (tenantId : ℕ) (d : AlertPayload) : Alert where
  tenantId
  alertId := d.alertId
  timestamp := d.timestamp
  eventType := d.eventType
  threatClass := some d.threatClass
  confidenceScore := some d.confidenceScore
  severity := some d.severity
  sourceIp := some d.sourceIp
  destinationIp := d.destinationIp
  evidence := d.evidence
  traceId := d.traceId
  flowId := d.flowId
  spanId := d.spanId
  mitreTactic := d.mitreTactic
  mitreTechnique := d.mitreTechnique
  modelName := d.modelName
  modelVersion := d.modelVersion
  schemaVersion := d.schemaVersion

@[simp] theorem AlertPayload.row_tenantId (tenantId : ℕ) (d : AlertPayload) :
    (d.row tenantId).tenantId = tenantId := rfl

@[simp] theorem AlertPayload.row_alertId (tenantId : ℕ) (d : AlertPayload) :
    (d.row tenantId).alertId = d.alertId := rfl

@[simp] theorem AlertPayload.row_key (tenantId : ℕ) (d : AlertPayload) :
    (d.row tenantId).key = (tenantId, d.alertId) := rfl

/-! ## The table -/

/-- The rows the database rejects, whatever else the table holds, and the text of the UNIQUE violation.
SQLAlchemy either runs the bulk UPDATE as it is written or refuses it. The order of the groups of a GROUP BY
is up to the database. -/
structure Database where
  reject : Alert → Option String
  uniqueViolation : String
  bulkUpdateRefused : Option String
  groupOrder : List (Option String) → List (Option String)

structure AlertTable (db : Database) where
  rows : Dict ℕ Alert
  unique : ∀ i j a b, rows.get? i = some a → rows.get? j = some b → a.key = b.key → i = j
  storable : ∀ i a, rows.get? i = some a → db.reject a = none

namespace AlertTable

variable {db : Database}

def empty : AlertTable db where
  rows := .empty
  unique _ _ _ _ h := by cases h
  storable _ _ h := by cases h

def put (table : AlertTable db) (id : ℕ) (a : Alert) : Except String (AlertTable db) :=
  match hstorable : db.reject a with
  | some e => .error e
  | none =>
      if hfree : ∀ e ∈ table.rows.entries, e.1 ≠ id → e.2.key ≠ a.key then
        .ok
          { rows := table.rows.set id a
            unique := by
              have hother : ∀ j b, j ≠ id → table.rows.get? j = some b → b.key ≠ a.key :=
                fun j b hj hb => hfree (j, b) (Dict.get?_eq_some.mp hb) hj
              intro i j b c hb hc hkey
              rw [Dict.get?_set] at hb hc
              by_cases hi : i = id
              · by_cases hj : j = id
                · exact hi.trans hj.symm
                · rw [if_pos hi] at hb
                  rw [if_neg hj] at hc
                  cases hb
                  exact absurd hkey.symm (hother j c hj hc)
              · rw [if_neg hi] at hb
                by_cases hj : j = id
                · rw [if_pos hj] at hc
                  cases hc
                  exact absurd hkey (hother i b hi hb)
                · rw [if_neg hj] at hc
                  exact table.unique i j b c hb hc hkey
            storable := by
              intro i b hb
              rw [Dict.get?_set] at hb
              by_cases hi : i = id
              · rw [if_pos hi] at hb
                cases hb
                exact hstorable
              · rw [if_neg hi] at hb
                exact table.storable i b hb }
      else .error db.uniqueViolation

def insert (table : AlertTable db) (a : Alert) : Except String (AlertTable db) :=
  table.put (freshId table.rows) a

/-- The row of a tenant with an alert id, and its primary key. -/
def find? (table : AlertTable db) (tenantId : ℕ) (alertId : String) : Option (ℕ × Alert) :=
  table.rows.entries.find? fun e => e.2.alertId = alertId && e.2.tenantId = tenantId

/-- What a tenant sees under an alert id. -/
def view (table : AlertTable db) (tenantId : ℕ) (alertId : String) : Option Alert :=
  (table.find? tenantId alertId).map Prod.snd

end AlertTable

end NeuralSoc.Tenants
