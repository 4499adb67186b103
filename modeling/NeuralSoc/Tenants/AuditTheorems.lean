import NeuralSoc.Tenants.Lemmas.Audit
import NeuralSoc.Tenants.Theorems

/-! # What the audit log guarantees. -/

namespace NeuralSoc.Tenants

open Api Handler

/-! ## Nothing changes without an event -/

def confirmation : Call × BackendRequest :=
  ({ plainEnvAt 30 "jti-9" with sensorToken := "" },
    .setStatus (some (.jwt (adminSession 1 "jti-1"))) "INC-10-0-0-1" "confirmed" none)

variable {db : Database} {s : Backend db}

/-- The statuses of the tenant, as both endpoints answer them. -/
def statusesOf (s : Backend db) (tenantId : ℕ) : Dict String TriageStatus :=
  Dict.fill (fun e : ℕ × IncidentTriage => e.2.incidentId) (fun e => serialize s.world.users e.2)
    (rowsOf (fun row : IncidentTriage => some row.tenantId) tenantId s.triage.entries) .empty

theorem get?_statusesOf (hs : Replays s) (tenantId : ℕ) (incidentId : String) :
    (statusesOf s tenantId).get? incidentId =
      (triageRow s tenantId incidentId).map fun e => serialize s.world.users e.2 := by
  have hmem : ∀ e ∈ rowsOf (fun row : IncidentTriage => some row.tenantId) tenantId s.triage.entries,
      s.triage.get? e.1 = some e.2 ∧ e.2.tenantId = tenantId := fun e he => by
    obtain ⟨he, htenant⟩ := List.mem_filter.mp he
    exact ⟨Dict.get?_eq_some.mpr he, by simpa using htenant⟩
  have hn : ((rowsOf (fun row : IncidentTriage => some row.tenantId) tenantId s.triage.entries).map
      fun e => e.2.incidentId).Nodup := by
    refine List.Nodup.map_on (fun e he e' he' hid => ?_) ((List.Nodup.of_map _ s.triage.nodup).filter _)
    obtain ⟨hget, htenant⟩ := hmem e he
    obtain ⟨hget', htenant'⟩ := hmem e' he'
    have hkey := hs.unique _ _ _ _ hget hget' (Prod.ext (htenant.trans htenant'.symm) hid)
    rw [hkey] at hget
    exact Prod.ext hkey (Option.some.inj (hget.symm.trans hget'))
  cases hrow : triageRow s tenantId incidentId with
  | none =>
      rw [triageRow_eq, Dict.lookup_eq_none] at hrow
      refine (Dict.get?_fill_of_not_mem (fun hin => ?_) _).trans rfl
      obtain ⟨e, he, rfl⟩ := List.mem_map.mp hin
      obtain ⟨hget, htenant⟩ := hmem e he
      exact hrow e.1 e.2 hget (Prod.ext htenant rfl)
  | some found =>
      obtain ⟨id, row⟩ := found
      obtain ⟨hget, htenant, rfl⟩ := triageRow_spec hrow
      have hin : (id, row) ∈ rowsOf (fun row : IncidentTriage => some row.tenantId) tenantId s.triage.entries :=
        List.mem_filter.mpr ⟨Dict.get?_eq_some.mp hget, by simp [htenant]⟩
      exact Dict.get?_fill hn hin .empty

theorem find?_rowsOf (s : Backend db) (tenantId : ℕ) (incidentId : String) :
    ((rowsOf (fun row : IncidentTriage => some row.tenantId) tenantId s.triage.entries).find?
      fun e => e.2.incidentId = incidentId) = triageRow s tenantId incidentId := by
  rw [rowsOf, List.find?_filter, triageRow]
  congr 1
  funext e
  simp

section Read

variable {p : Platform} {env : Env} {claims : Claims} {tenantId : ℕ} (haccepted : Accepted env s.world claims)
  (hscope : "alerts:read" ∈ claims.scopes) (htenant : claims.tenantId = some tenantId) (hfree : env.limited = false)
include haccepted hscope htenant hfree

theorem read_statuses :
    read p env (some (.jwt claims)) .statuses s = (.ok (.statuses (statusesOf s tenantId).entries), s) := by
  have hrun := requireScope_of_accepted haccepted "alerts:read"
  rw [if_pos (by simp [hscope])] at hrun
  change getAllStatuses env (some (.jwt claims)) s = _
  unfold getAllStatuses
  rw [bind_run_ok (onWorld_run hrun), hfree, ensure_bind_run, if_pos Bool.not_false, get_bind_run, scopeToTenant_eq htenant]
  rfl

theorem read_status (incidentId : String) :
    read p env (some (.jwt claims)) (.status incidentId) s =
      (.ok (.status (((triageRow s tenantId incidentId).map fun e => serialize s.world.users e.2).getD
        defaultStatus)), s) := by
  have hrun := requireScope_of_accepted haccepted "alerts:read"
  rw [if_pos (by simp [hscope])] at hrun
  change getStatus env (some (.jwt claims)) incidentId s = _
  unfold getStatus
  rw [bind_run_ok (onWorld_run hrun), hfree, ensure_bind_run, if_pos Bool.not_false, get_bind_run, scopeToTenant_eq htenant]
  rw [find?_rowsOf]
  cases triageRow s tenantId incidentId with
  | none => rfl
  | some found => rfl

end Read

/-- The status and the actor that the last decision in the log names, a user of the tenant. -/
def FromLog (s : Backend db) (tenantId : ℕ) (incidentId : String) (x : TriageStatus) : Prop :=
  ∃ e actor u, lastDecision s.world.audit tenantId incidentId = some e ∧ e.detail = some x.status ∧
    e.actorUserId = some actor ∧ s.world.users.get? actor = some u ∧ u.tenantId = tenantId ∧ x.actor = u.email

theorem fromLog_row (hs : Replays s) (hsound : Sound s) {tenantId : ℕ} {incidentId : String} {id : ℕ}
    {row : IncidentTriage} (h : triageRow s tenantId incidentId = some (id, row)) :
    FromLog s tenantId incidentId (serialize s.world.users row) := by
  obtain ⟨hget, rfl, rfl⟩ := triageRow_spec h
  have hlog := hs.rows row.tenantId row.incidentId
  rw [h] at hlog
  obtain ⟨e, he, hfields⟩ := Option.map_eq_some_iff.mp hlog.symm
  obtain ⟨actor, hactor⟩ := Option.isSome_iff_exists.mp (hs.acted id row hget)
  obtain ⟨u, hu, htenant⟩ := hsound.actors id row actor hget hactor
  refine ⟨e, actor, u, he, congrArg Prod.fst hfields, (congrArg Prod.snd hfields).trans hactor, hu, htenant, ?_⟩
  simp [serialize, hactor, hu]

/-- In every state that requests lead to, served one after the other and with every audit write, what a session of a
tenant reads about an incident, on both endpoints, is the last decision of the tenant on it in the audit log, by a user
of the tenant; where there is none it is open. -/
theorem statuses_replay_audit (services : Services) (env : Env) (s : Backend db) (hs : FullyAudited services s)
    (claims : Claims) (tenantId : ℕ) (haccepted : Accepted env s.world claims) (hscope : "alerts:read" ∈ claims.scopes)
    (htenant : claims.tenantId = some tenantId) (hfree : env.limited = false) :
    ∃ statuses : Dict String TriageStatus,
      (read services.toPlatform env (some (.jwt claims)) .statuses s).1 = .ok (.statuses statuses.entries) ∧
        ∀ incidentId,
          (read services.toPlatform env (some (.jwt claims)) (.status incidentId) s).1 =
              .ok (.status ((statuses.get? incidentId).getD defaultStatus)) ∧
            (∀ x, statuses.get? incidentId = some x → FromLog s tenantId incidentId x) ∧
              (lastDecision s.world.audit tenantId incidentId = none ↔ statuses.get? incidentId = none) := by
  have hreplays := hs.replays
  refine ⟨statusesOf s tenantId, by rw [read_statuses haccepted hscope htenant hfree], fun incidentId => ?_⟩
  rw [read_status haccepted hscope htenant hfree, get?_statusesOf hreplays]
  refine ⟨rfl, fun x hx => ?_, ?_⟩
  · obtain ⟨⟨id, row⟩, hrow, rfl⟩ := Option.map_eq_some_iff.mp hx
    exact fromLog_row hreplays hs.reachable.sound hrow
  · have hlog := congrArg Option.isNone (hreplays.rows tenantId incidentId)
    simp only [Option.isNone_map] at hlog
    rw [Option.map_eq_none_iff, ← Option.isNone_iff_eq_none, ← Option.isNone_iff_eq_none, hlog]

def triaged : Backend plainDatabase := serveBackend plainServices oneTenant confirmation

theorem statuses_replay_audit_confirmed : ∃ statuses : Dict String TriageStatus,
    (read plainServices.toPlatform (plainEnvAt 60 "jti-3") (some (.jwt (adminSession 1 "jti-1"))) .statuses triaged).1 =
        .ok (.statuses statuses.entries) ∧
      ∀ incidentId,
        (read plainServices.toPlatform (plainEnvAt 60 "jti-3") (some (.jwt (adminSession 1 "jti-1")))
            (.status incidentId) triaged).1 = .ok (.status ((statuses.get? incidentId).getD defaultStatus)) ∧
          (∀ x, statuses.get? incidentId = some x → FromLog triaged 1 incidentId x) ∧
            (lastDecision triaged.world.audit 1 incidentId = none ↔ statuses.get? incidentId = none) :=
  statuses_replay_audit plainServices (plainEnvAt 60 "jti-3") triaged
    ⟨[firstSignup, confirmation], by decide, rfl⟩
    (adminSession 1 "jti-1") 1 ⟨by decide +kernel, by decide +kernel⟩ (by decide) rfl rfl

end NeuralSoc.Tenants
