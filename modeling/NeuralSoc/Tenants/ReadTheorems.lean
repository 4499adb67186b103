import NeuralSoc.Tenants.Lemmas.Pages
import NeuralSoc.Tenants.Lemmas.Stats
import NeuralSoc.Tenants.Theorems

/-! # What the read endpoints report. -/

namespace NeuralSoc.Tenants

open Api Handler

/-! ## Statistics -/

/-- The statistics are exact when different severities have different names: one group of a name is all that
is counted. -/
theorem stats_exact_iff (p : Platform) (db : Database) (hempty : p.lower "" = "")
    (horder : ∀ groups, (db.groupOrder groups).Perm groups) (env : Env) (credentials : Option Token)
    (s : Backend db) (principal : Principal)
    (hscope : (requireScope env "stats:read" credentials s.world).1 = .ok principal)
    (hfree : env.limited = false) :
    (getStats p env credentials s).1 =
        .ok (exactStats p (scopeToTenant principal (fun a => some a.tenantId) s.alerts.rows.entries)) ↔
      NamesApart p (scopeToTenant principal (fun a => some a.tenantId) s.alerts.rows.entries) := by
  set rows := scopeToTenant principal (fun a : Alert => some a.tenantId) s.alerts.rows.entries
  have hanswer := getStats_answer (p := p) hscope hfree
  have hcount : NamesApart p rows → ∀ word, word ≠ "unknown" → word ≠ "" →
      ((severityMap p db rows).get? word).getD 0 = rows.countP fun e => e.2.severity.map p.lower = some word := by
    intro h word hunknown hne
    rw [get?_severityMap horder h]
    refine List.countP_congr fun e _ => ?_
    simp only [decide_eq_true_eq]
    exact severityName_eq hempty hunknown hne
  rw [hanswer, ← sum_severityMap_iff horder]
  simp only [exactStats, Except.ok.injEq, BackendResponse.stats.injEq]
  refine ⟨fun h => h.1, fun htotal => ?_⟩
  have hcount := hcount ((sum_severityMap_iff horder).mp htotal)
  exact ⟨htotal, hcount _ (by decide) (by decide), hcount _ (by decide) (by decide),
    hcount _ (by decide) (by decide), hcount _ (by decide) (by decide)⟩

def alertOf (alertId severity : String) : AlertPayload where
  alertId
  eventType := "dns"
  timestamp := "2025-01-01T00:00:00Z"
  threatClass := "DGA"
  severity
  confidenceScore := .fin 1
  sourceIp := "10.0.0.5"

/-- A tenant after a sensor has sent a batch. -/
def holding (batch : List AlertPayload) : Backend plainDatabase :=
  { oneTenant with alerts := (ingestAlerts 1 batch oneTenant.alerts).2 }

def adminToken : Option Token := some (.jwt (adminSession 1 "jti-1"))

def admin : Principal := ⟨"1", roleScopes .admin, some 1, some 1⟩

def rowsOfAdmin (s : Backend plainDatabase) : List (ℕ × Alert) :=
  scopeToTenant admin (fun a => some a.tenantId) s.alerts.rows.entries

/-- Three groups of one tenant, and an alert of another tenant that differs from one of them in its capitals. -/
def sharedTable : Backend plainDatabase :=
  let s := holding [alertOf "a" "low", alertOf "b" "high", alertOf "c" "low", alertOf "d" "informational"]
  { s with alerts := (ingestAlerts 2 [alertOf "a" "Low", alertOf "e" "critical"] s.alerts).2 }

theorem stats_exact_iff_shared :
    (getStats asciiPlatform (plainEnvAt 60 "jti-3") adminToken sharedTable).1 =
        .ok (exactStats asciiPlatform (rowsOfAdmin sharedTable)) ↔
      NamesApart asciiPlatform (rowsOfAdmin sharedTable) :=
  stats_exact_iff asciiPlatform plainDatabase (by decide) (fun _ => .refl _) (plainEnvAt 60 "jti-3") adminToken
    sharedTable admin (by decide +kernel) rfl

/-- Of two groups that differ in a capital the second replaces the first. -/
theorem capitals_lose_alerts :
    ¬ ∀ (p : Platform) (db : Database), p.lower "" = "" → (∀ groups, (db.groupOrder groups).Perm groups) →
      ∀ (env : Env) (credentials : Option Token) (s : Backend db) (principal : Principal),
        (requireScope env "stats:read" credentials s.world).1 = .ok principal → env.limited = false →
        (getStats p env credentials s).1 =
          .ok (exactStats p (scopeToTenant principal (fun a => some a.tenantId) s.alerts.rows.entries)) := by
  intro h
  have hexact := h asciiPlatform plainDatabase (by decide) (fun _ => .refl _) (plainEnvAt 60 "jti-3") adminToken
    (holding [alertOf "a" "High", alertOf "b" "high"]) admin (by decide +kernel) rfl
  exact absurd hexact (by decide +kernel)

/-! ## Pages -/

/-- A client that follows the cursor comes to an empty page and has then seen every row of the caller that was
there at the start, whatever is ingested between the pages. -/
theorem pages_read_all (db : Database) (credentials : Option Token) (env : ℕ → Env) (limits : ℕ → ℤ)
    (states : ℕ → Backend db) (hgrows : ∀ k, Grows (states k).alerts (states (k + 1)).alerts)
    (hids : ∀ k id, ((states k).alerts.rows.get? id).isSome → 0 < id)
    (haudit : ∀ k, (states k).world.audit <+: (states (k + 1)).world.audit) :
    (∀ principal cursors pages,
        (requireScope (env 0) "alerts:read" credentials (states 0).world).1 = .ok principal →
        FollowsCursor AlertResponse.id .alerts
          (fun k cursor => (getAlerts (env k) credentials cursor (limits k) (states k)).1) cursors pages →
        ReadsAll AlertResponse.id pages
          ((scopeToTenant principal (fun a => some a.tenantId) (states 0).alerts.rows.entries).map Prod.fst)) ∧
      ∀ principal cursors pages,
        (requireScope (env 0) "users:manage" credentials (states 0).world).1 = .ok principal →
        FollowsCursor AuditLogEntry.id .auditLog
          (fun k cursor => (listAuditLog (env k) credentials cursor (limits k) (states k)).1) cursors pages →
        ReadsAll AuditLogEntry.id pages
          ((scopeToTenant principal AuditEvent.tenantId (auditRows (states 0).world)).map Prod.fst) := by
  constructor
  · intro principal cursors pages hprincipal hfollows
    obtain ⟨r, hr⟩ := requireScope_run (env 0) "alerts:read" credentials (states 0).world
    obtain rfl : r = .ok principal := by rw [hr] at hprincipal; exact hprincipal
    refine hfollows.readsScoped principal (fun a => some a.tenantId) (fun k => (states k).alerts.rows.entries)
      (fun e => alertResponse e.1 e.2) (fun _ => rfl) (fun k => (states k).alerts.rows.nodup)
      (fun k i hi => hids k i (Dict.get?_isSome.mpr hi)) (fun k i => visible_kept (hgrows k)) fun k hanswer => ?_
    obtain ⟨caller, hscope, hlimit, hrows⟩ := getAlerts_ok hanswer
    exact ⟨caller, limits k, requireScope_tenant hscope hr, hlimit, hrows⟩
  · intro principal cursors pages hprincipal hfollows
    obtain ⟨r, hr⟩ := requireScope_run (env 0) "users:manage" credentials (states 0).world
    obtain rfl : r = .ok principal := by rw [hr] at hprincipal; exact hprincipal
    refine hfollows.readsScoped principal AuditEvent.tenantId (fun k => auditRows (states k).world)
      (fun e => ⟨e.1, e.2⟩) (fun _ => rfl) (fun k => ?_) (fun k i hi => ?_)
      (fun k i => visible_audit_kept (haudit k)) fun k hanswer => ?_
    · rw [map_fst_auditRows]
      exact List.nodup_range'
    · rw [map_fst_auditRows, List.mem_range'_1] at hi
      exact hi.1
    · obtain ⟨caller, hscope, hlimit, hrows⟩ := listAuditLog_ok hanswer
      exact ⟨caller, limits k, requireScope_tenant hscope hr, hlimit, hrows⟩

def oneAlert : Backend plainDatabase := holding [alertOf "a" "low"]

/-- A second alert comes in after the first page. -/
def growing : ℕ → Backend plainDatabase
  | 0 => oneAlert
  | _ + 1 => { oneAlert with alerts := (ingestAlerts 1 [alertOf "b" "high"] oneAlert.alerts).2 }

def cursorsOfAdmin (k : ℕ) : ℕ := if k = 0 then 0 else 1

def pagesOfAdmin : ℕ → List AlertResponse
  | 0 => [alertResponse 1 ((alertOf "a" "low").row 1)]
  | _ + 1 => []

theorem pages_read_all_growing : ReadsAll AlertResponse.id pagesOfAdmin ((rowsOfAdmin oneAlert).map Prod.fst) := by
  have hpositive : ∀ s : Backend plainDatabase, (∀ i ∈ s.alerts.rows.entries.map Prod.fst, 0 < i) →
      ∀ id, (s.alerts.rows.get? id).isSome → 0 < id := fun s h id hid => h id (Dict.get?_isSome.mp hid)
  refine (pages_read_all plainDatabase adminToken (fun _ => plainEnvAt 60 "jti-3") (fun _ => 1) growing
    (fun k => ?_) (fun k => ?_) fun k => ?_).1 admin cursorsOfAdmin pagesOfAdmin (by decide +kernel)
    ⟨rfl, fun k row hrow => ?_, fun k hk => ?_⟩
  · cases k with
    | zero => exact ingestAlerts_grows 1 _ oneAlert.alerts
    | succ k => exact .refl _
  · cases k with
    | zero => exact hpositive oneAlert (by decide +kernel)
    | succ k => exact hpositive (growing 1) (by decide +kernel)
  · cases k with
    | zero => exact List.prefix_refl _
    | succ k => exact List.prefix_refl _
  · cases k with
    | zero =>
        cases hrow
        rfl
    | succ k => cases hrow
  · rcases k with _ | _ | k
    · decide +kernel
    · decide +kernel
    · exact absurd rfl (hk 1 (by omega))

end NeuralSoc.Tenants
