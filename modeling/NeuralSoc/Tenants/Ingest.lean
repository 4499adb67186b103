import NeuralSoc.Tenants.Alerts

/-!
# Ingest

`bulk_upsert_alerts` and the body of `ingest_alerts`. A failing statement takes back the whole transaction on
the bulk path, and its own savepoint on the path item by item.
-/

namespace NeuralSoc.Tenants

open Api

variable {db : Database}

/-! ## One batch at once -/

/-- `UPDATE alerts SET tenant_id = ..., ... WHERE alert_id = ...`, with every column of the payload set. -/
def updateWhere (tenantId : ℕ) (table : AlertTable db) (d : AlertPayload) : Except String (AlertTable db) :=
  (table.rows.entries.filter fun e => e.2.alertId = d.alertId).foldlM
    (fun table e => table.put e.1 (d.row tenantId)) table

def bulkUpdate (tenantId : ℕ) (toUpdate : List AlertPayload) (table : AlertTable db) :
    Except String (AlertTable db) :=
  match db.bulkUpdateRefused with
  | some e => .error e
  | none => toUpdate.foldlM (updateWhere tenantId) table

def existingAids (tenantId : ℕ) (batch : List AlertPayload) (table : AlertTable db) : List String :=
  let aids := batch.map AlertPayload.alertId
  (table.rows.entries.filter fun e => aids.contains e.2.alertId && e.2.tenantId = tenantId).map fun e =>
    e.2.alertId

def bulkUpsertAlerts (tenantId : ℕ) (batch : List AlertPayload) (table : AlertTable db) :
    Except String (AlertTable db) := do
  let existing := existingAids tenantId batch table
  let toInsert := batch.filter fun d => !existing.contains d.alertId
  let toUpdate := batch.filter fun d => existing.contains d.alertId
  let table ← toInsert.foldlM (fun table d => table.insert (d.row tenantId)) table
  if toUpdate.isEmpty then return table
  else bulkUpdate tenantId toUpdate table

/-! ## Item by item -/

def upsertItem (tenantId : ℕ) (d : AlertPayload) (table : AlertTable db) : Except String (AlertTable db) :=
  match table.find? tenantId d.alertId with
  | some existing => table.put existing.1 (d.row tenantId)
  | none => table.insert (d.row tenantId)

structure IngestResponse where
  accepted : ℕ
  failed : List (String × String)
  deriving DecidableEq

def ingestItem (tenantId : ℕ) (state : IngestResponse × AlertTable db) (d : AlertPayload) :
    IngestResponse × AlertTable db :=
  match upsertItem tenantId d state.2 with
  | .ok table => ({ state.1 with accepted := state.1.accepted + 1 }, table)
  | .error e => ({ state.1 with failed := state.1.failed ++ [(d.alertId, e)] }, state.2)

def ingestPerItem (tenantId : ℕ) (batch : List AlertPayload) (table : AlertTable db) :
    IngestResponse × AlertTable db :=
  batch.foldl (ingestItem tenantId) (⟨0, []⟩, table)

/-! ## The request -/

def ingestAlerts (tenantId : ℕ) (batch : List AlertPayload) (table : AlertTable db) :
    IngestResponse × AlertTable db :=
  if batch.isEmpty then (⟨0, []⟩, table)
  else
    match bulkUpsertAlerts tenantId batch table with
    | .ok table => (⟨batch.length, []⟩, table)
    | .error _ => ingestPerItem tenantId batch table

end NeuralSoc.Tenants
