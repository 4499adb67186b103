import NeuralSoc.Base.Statements
import NeuralSoc.Migrations.Revisions

/-!
# The schema of each revision

What the statements of the revisions do to the schema, apart from the rows.
-/

namespace NeuralSoc.Migrations

open Relational

/-- The alerts before the composite key. -/
def tenantAlerts : Shape TableName :=
  ⟨insert (foreignKey "tenant_id" .tenants true) alertColumns,
    alertKeys ∪ {index "ix_alerts_tenant_id" ["tenant_id"], unique "ix_alerts_alert_id" ["alert_id"]}⟩

def alertsOf (version : ℕ) : Option (Shape TableName) :=
  match version with
  | 0 => none
  | 1 => some ⟨alertColumns, insert (unique "ix_alerts_alert_id" ["alert_id"]) alertKeys⟩
  | 2 | 3 => some tenantAlerts
  | _ => some (metadata .alerts)

/-- The schema of a database that has been brought to a revision. -/
def schemaAt (version : ℕ) : Schema TableName
  | .alerts => alertsOf version
  | .tenants => if version < 2 then none else some tenants
  | .users =>
      if version < 2 then none
      else if version < 6 then some ⟨userColumns, userKeys⟩
      else some (metadata .users)
  | .incidentTriage => if version < 3 then none else some incidentTriage
  | .sensorTokens => if version < 3 then none else some sensorTokens
  | .auditLog => if version < 5 then none else some auditLog

theorem schemaAt_zero : schemaAt 0 = fun _ => none := by
  funext t
  cases t <;> rfl

/-- The last revision has the tables of the models. -/
theorem schemaAt_head : schemaAt 6 = fun t => some (metadata t) := by
  funext t
  cases t <;> rfl

theorem schemaAt_isSome {version : ℕ} (h : 5 ≤ version) (t : TableName) : (schemaAt version t).isSome := by
  cases t with
  | alerts =>
      match version, h with
      | n + 5, _ => rfl
  | users =>
      simp only [schemaAt]
      rw [if_neg (by omega)]
      split <;> rfl
  | tenants | incidentTriage | sensorTokens | auditLog =>
      simp only [schemaAt]
      rw [if_neg (by omega)]
      rfl

theorem eq_ok_of_toOption {ε α : Type} {x : Except ε α} {a : α} (h : x.toOption = some a) : x = .ok a := by
  cases x with
  | error e => cases h
  | ok b =>
      cases h
      rfl

/-- The statements about the schema in an upgrade. -/
def upgradeDdl : Revision → Ddl
  | .r95bddea6b154 =>
      [.createTable .alerts ⟨alertColumns, insert (unique "ix_alerts_alert_id" ["alert_id"]) alertKeys⟩]
  | .r74fd85b501da => upgradeTenants
  | .rce52f1799e61 => [.createTable .incidentTriage incidentTriage, .createTable .sensorTokens sensorTokens]
  | .r28d9095cde3b => upgradeCompositeKey
  | .r531d123cd6d9 => [.createTable .auditLog auditLog]
  | .rcc4a44b73173 =>
      [.addColumn .users (optional "totp_secret" .string) .null,
        .addColumn .users (required "mfa_enabled" .boolean) (.bool false)]

theorem upgrade_schema (r : Revision) :
    (upgradeDdl r).foldlM Statement.onSchema (schemaAt (r.number - 1)) = .ok (schemaAt r.number) := by
  apply eq_ok_of_toOption
  cases r <;> decide +kernel

theorem downgrade_schema (r : Revision) :
    (downgradeStep r).foldlM Statement.onSchema (schemaAt r.number) = .ok (schemaAt (r.number - 1)) := by
  apply eq_ok_of_toOption
  cases r <;> decide +kernel

/-! ## Paths -/

/-- The revisions lead from one place of the chain up to the other. -/
def ascends : ℕ → List Revision → ℕ → Bool
  | a, [], b => a = b
  | a, r :: rs, b => r.number = a + 1 && ascends r.number rs b

def descends : ℕ → List Revision → ℕ → Bool
  | a, [], b => a = b
  | a, r :: rs, b => r.number = a && descends (r.number - 1) rs b

theorem ascends_between (version : Option Revision) (target : Revision) :
    ascends (rank version) (between (rank version) target.number) (max (rank version) target.number) = true := by
  cases version with
  | none => cases target <;> decide
  | some r => cases r <;> cases target <;> decide

theorem descends_between (version target : Option Revision) (h : rank target ≤ rank version) :
    descends (rank version) (between (rank target) (rank version)).reverse (rank target) = true := by
  cases version with
  | none =>
      cases target with
      | none => rfl
      | some r => cases r <;> cases h
  | some v =>
      cases target with
      | none => cases v <;> decide
      | some r => cases v <;> cases r <;> first | decide | (exact absurd h (by decide))

end NeuralSoc.Migrations
