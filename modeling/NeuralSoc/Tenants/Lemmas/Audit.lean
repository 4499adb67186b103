import NeuralSoc.Api.Lemmas.Audit
import NeuralSoc.Base.Indexed
import NeuralSoc.Tenants.Lemmas.Isolation

/-!
# What the audit log says about the tables

Triage rows and sensors are named by the events of the requests that made them. The last decision on an incident
in the log is what its triage row says.
-/

namespace NeuralSoc.Tenants

open Api Handler

variable {db : Database} {env : Env} {s s' : Backend db}

/-! ## Definitions -/

/-- The event of the decision that a triage row was last changed by. -/
structure Decides (row : IncidentTriage) (e : AuditEvent) : Prop where
  action : e.action = triageAction
  tenantId : e.tenantId = some row.tenantId
  target : e.target = some row.incidentId
  detail : e.detail = some row.status
  actor : e.actorUserId = row.actorUserId
  createdAt : e.createdAt = row.updatedAt

/-- A sensor without the time of its last use. -/
def SensorToken.credential (sensor : SensorToken) : SensorToken := { sensor with lastUsedAt := none }

structure Accounted (es : List AuditEvent) (s s' : Backend db) : Prop where
  world : Logged es s.world s'.world
  triage : ∀ id row, s'.triage.get? id = some row → s.triage.get? id = some row ∨ ∃ e ∈ es, Decides row e
  sensors : ∀ id sensor, s'.sensors.get? id = some sensor →
    (s.sensors.get? id).map SensorToken.credential = some sensor.credential ∨
      ∃ e ∈ es, e.action = "sensor_token.created" ∧ e.tenantId = some sensor.tenantId ∧ e.target = some sensor.name
  kept : ∀ id, ((s.triage.get? id).isSome → (s'.triage.get? id).isSome) ∧
    ((s.sensors.get? id).isSome → (s'.sensors.get? id).isSome)

/-- The last decision on an incident of the tenant. -/
def lastDecision (log : List AuditEvent) (tenantId : ℕ) (incidentId : String) : Option AuditEvent :=
  log.reverse.find? fun e => e.action = triageAction ∧ e.tenantId = some tenantId ∧ e.target = some incidentId

/-! ## Accounts add up -/

theorem accounted_refl (s : Backend db) : Accounted [] s s where
  world := logged_nil rfl rfl rfl
  triage _ _ := .inl
  sensors id sensor h := .inl (by rw [h]; rfl)
  kept _ := ⟨id, id⟩

theorem Accounted.trans {es es' : List AuditEvent} {s'' : Backend db} (h : Accounted es s s')
    (h' : Accounted es' s' s'') : Accounted (es ++ es') s s'' where
  world := h.world.trans h'.world
  triage id row hrow := by
    rcases h'.triage id row hrow with hrow | ⟨e, he, hdecides⟩
    · exact (h.triage id row hrow).imp_right fun ⟨e, he, hdecides⟩ => ⟨e, List.mem_append_left _ he, hdecides⟩
    · exact .inr ⟨e, List.mem_append_right _ he, hdecides⟩
  sensors id sensor hsensor := by
    rcases h'.sensors id sensor hsensor with hsame | ⟨e, he, hcreated⟩
    · obtain ⟨old, hold, hcredential⟩ := Option.map_eq_some_iff.mp hsame
      rw [← hcredential]
      have hname : sensor.tenantId = old.tenantId ∧ sensor.name = old.name := by
        unfold SensorToken.credential at hcredential
        injection hcredential with htenant _ hname
        exact ⟨htenant.symm, hname.symm⟩
      rw [hname.1, hname.2]
      exact (h.sensors id old hold).imp_right fun ⟨e, he, hcreated⟩ => ⟨e, List.mem_append_left _ he, hcreated⟩
    · exact .inr ⟨e, List.mem_append_right _ he, hcreated⟩
  kept id := ⟨fun hid => (h'.kept id).1 ((h.kept id).1 hid), fun hid => (h'.kept id).2 ((h.kept id).2 hid)⟩

/-- The users, the tokens and the log change, and the other tables do not. -/
theorem accounted_world {es : List AuditEvent} {w : World} (h : Logged es s.world w) :
    Accounted es s { s with world := w } where
  world := h
  triage _ _ := .inl
  sensors id sensor hid := .inl (by rw [hid]; rfl)
  kept _ := ⟨id, id⟩

/-! ## Triage decisions -/

/-- The row of a decision and its primary key. -/
def decided (s : Backend db) (env : Env) (actor : Option ℕ) (tenantId : ℕ) (incidentId status : String)
    (note : Option String) : ℕ × IncidentTriage :=
  match triageRow s tenantId incidentId with
  | some (id, row) => (id, updateTriage env status note actor row)
  | none => (freshId s.triage, ⟨tenantId, incidentId, status, note, actor, env.now⟩)

def decisionFields (actor : Option ℕ) (tenantId : ℕ) (incidentId status : String) : AuditFields :=
  { tenantId := some tenantId, actorUserId := actor, target := some incidentId, detail := some status }

/-- The event of a decision. -/
def decisionEvent (env : Env) (actor : Option ℕ) (tenantId : ℕ) (incidentId status : String) : AuditEvent :=
  eventOf env triageAction (decisionFields actor tenantId incidentId status)

/-- The state after a decision. -/
def afterDecision (s : Backend db) (env : Env) (actor : Option ℕ) (tenantId : ℕ) (incidentId status : String)
    (note : Option String) : Backend db :=
  let e := decided s env actor tenantId incidentId status note
  { s with
    world := (recordAuditEvent env triageAction (decisionFields actor tenantId incidentId status) s.world).2
    triage := s.triage.set e.1 e.2 }

theorem setStatus_cases (services : Services) (env : Env) (credentials : Option Token)
    (incidentId status : String) (note : Option String) (s : Backend db) :
    (setStatus services env credentials incidentId status note s).2 = s ∨
      ∃ principal tenantId, requireScope env "triage:write" credentials s.world = (.ok principal, s.world) ∧
        principal.tenantId = some tenantId ∧
          (setStatus services env credentials incidentId status note s).2 =
            afterDecision s env principal.userId tenantId incidentId status note := by
  obtain ⟨r, hr⟩ := requireScope_run env "triage:write" credentials s.world
  unfold setStatus
  cases r with
  | error e =>
      rw [bind_run_error (onWorld_run hr)]
      exact .inl rfl
  | ok principal =>
      rw [bind_run_ok (onWorld_run hr), ensure_bind_run]
      split
      · rw [ensure_bind_run]
        split
        · rw [expect_bind_run]
          cases htenant : principal.tenantId with
          | none => exact .inl rfl
          | some tenantId =>
              refine .inr ⟨principal, tenantId, hr, htenant, ?_⟩
              dsimp only
              rw [get_bind_run]
              unfold afterDecision decided
              cases triageRow s tenantId incidentId with
              | none => rfl
              | some found => rfl
        · exact .inl rfl
      · exact .inl rfl

theorem triageRow_spec {tenantId : ℕ} {incidentId : String} {id : ℕ} {row : IncidentTriage}
    (h : triageRow s tenantId incidentId = some (id, row)) :
    s.triage.get? id = some row ∧ row.tenantId = tenantId ∧ row.incidentId = incidentId := by
  have hkey := List.find?_some h
  simp only [Bool.and_eq_true, decide_eq_true_eq] at hkey
  exact ⟨Dict.get?_eq_some.mpr (List.mem_of_find?_eq_some h), hkey⟩

theorem updateTriage_fields (env : Env) (status : String) (note : Option String) (actor : Option ℕ)
    (row : IncidentTriage) :
    (updateTriage env status note actor row).tenantId = row.tenantId ∧
      (updateTriage env status note actor row).incidentId = row.incidentId ∧
        (updateTriage env status note actor row).status = status ∧
          (updateTriage env status note actor row).actorUserId = actor ∧
            (updateTriage env status note actor row = row ∨
              (updateTriage env status note actor row).updatedAt = env.now) := by
  unfold updateTriage
  dsimp only
  split
  · next hsame =>
      have hstatus := congrArg IncidentTriage.status hsame
      have hactor := congrArg IncidentTriage.actorUserId hsame
      exact ⟨rfl, rfl, hstatus.symm, hactor.symm, .inl rfl⟩
  · exact ⟨rfl, rfl, rfl, rfl, .inr rfl⟩

section Decided

variable (s : Backend db) (env : Env) (actor : Option ℕ) (tenantId : ℕ) (incidentId status : String)
  (note : Option String)

theorem decided_fields :
    (decided s env actor tenantId incidentId status note).2.tenantId = tenantId ∧
      (decided s env actor tenantId incidentId status note).2.incidentId = incidentId ∧
        (decided s env actor tenantId incidentId status note).2.status = status ∧
          (decided s env actor tenantId incidentId status note).2.actorUserId = actor := by
  unfold decided
  cases hrow : triageRow s tenantId incidentId with
  | none => exact ⟨rfl, rfl, rfl, rfl⟩
  | some found =>
      obtain ⟨id, row⟩ := found
      obtain ⟨-, htenant, hincident⟩ := triageRow_spec hrow
      obtain ⟨htenant', hincident', hstatus, hactor, -⟩ := updateTriage_fields env status note actor row
      exact ⟨htenant'.trans htenant, hincident'.trans hincident, hstatus, hactor⟩

theorem triage_afterDecision (id : ℕ) :
    (afterDecision s env actor tenantId incidentId status note).triage.get? id =
      if id = (decided s env actor tenantId incidentId status note).1 then
        some (decided s env actor tenantId incidentId status note).2
      else s.triage.get? id := Dict.get?_set _ _ _ _

theorem afterDecision_world (haudit : env.auditUp = true) :
    (afterDecision s env actor tenantId incidentId status note).world =
      { s.world with audit := s.world.audit ++ [decisionEvent env actor tenantId incidentId status] } := by
  unfold afterDecision recordAuditEvent Handler.modify
  rw [haudit]
  rfl

end Decided

/-! ## Sensors -/

theorem accounted_sensor {es : List AuditEvent} {w : World} (hw : Logged es s.world w) (id : ℕ) (sensor : SensorToken)
    (h : (s.sensors.get? id).map SensorToken.credential = some sensor.credential ∨
      ∃ e ∈ es, e.action = "sensor_token.created" ∧ e.tenantId = some sensor.tenantId ∧ e.target = some sensor.name) :
    Accounted es s { s with world := w, sensors := s.sensors.set id sensor } where
  world := hw
  triage _ _ := .inl
  sensors j sensor' hj := by
    change (s.sensors.set id sensor).get? j = some sensor' at hj
    rw [Dict.get?_set] at hj
    split at hj
    · next heq =>
        cases hj
        rw [heq]
        exact h
    · exact .inl (by rw [hj]; rfl)
  kept j := by
    refine ⟨fun hj => hj, fun hj => ?_⟩
    change ((s.sensors.set id sensor).get? j).isSome
    rw [Dict.get?_set]
    split
    · rfl
    · exact hj

theorem createSensorToken_accounted (services : Services) {call : Call} (haudit : call.auditUp = true)
    (credentials : Option Token) (tenantId : ℕ) (name : String) (s : Backend db) :
    ∃ es, Accounted es s (createSensorToken services call credentials tenantId name s).2 ∧
      ∀ e ∈ es, e.action ≠ triageAction := by
  have hnone : ∃ es, Accounted es s s ∧ ∀ e ∈ es, e.action ≠ triageAction :=
    ⟨[], accounted_refl s, List.forall_mem_nil _⟩
  obtain ⟨r, hr⟩ := requireScope_run call.toEnv "users:manage" credentials s.world
  unfold createSensorToken requireOwnSensors
  cases r with
  | error e =>
      rw [bind_run_error (onWorld_run hr)]
      exact hnone
  | ok principal =>
      rw [bind_run_ok (onWorld_run hr), ensure_bind_run]
      split
      · let fields : AuditFields :=
          { tenantId := some tenantId, actorUserId := principal.userId, target := some name }
        have hlogged : Logged [eventOf call.toEnv "sensor_token.created" fields] s.world
            (recorded call.toEnv "sensor_token.created" fields s.world) :=
          ⟨rfl, fun _ _ => .inl, fun _ _ => .inl, fun _ => id⟩
        have hsensor := accounted_sensor hlogged (freshId s.sensors)
          ⟨tenantId, services.hashToken call.sensorToken, name, true, call.now, none⟩
          (.inr ⟨_, List.mem_singleton_self _, rfl, rfl, rfl⟩)
        have haction : "sensor_token.created" ≠ triageAction := by decide
        unfold recordAuditEvent
        rw [haudit]
        exact ⟨_, hsensor, only_event haction fields⟩
      · exact hnone

theorem requireSensorToken_cases (services : Services) (env : Env) (authorization : String) (s : Backend db) :
    (∃ e, requireSensorToken services env authorization s = (.error e, s)) ∨
      ∃ id old, s.sensors.get? id = some old ∧
        requireSensorToken services env authorization s =
          (.ok { old with lastUsedAt := some env.now },
            { s with sensors := s.sensors.set id { old with lastUsedAt := some env.now } }) := by
  unfold requireSensorToken
  rw [ensure_bind_run]
  split
  · rw [get_bind_run, expect_bind_run]
    cases hfound : s.sensors.entries.find? fun e =>
        e.2.tokenHash = services.hashToken (strip (String.ofList (authorization.toList.drop 7))) && e.2.isActive with
    | none => exact .inl ⟨_, rfl⟩
    | some found =>
        have hget := Dict.get?_eq_some.mpr (List.mem_of_find?_eq_some hfound)
        exact .inr ⟨found.1, found.2, hget, rfl⟩
  · exact .inl ⟨_, rfl⟩

/-- An ingest changes the alerts and the last use of the sensor. -/
theorem ingest_accounted (services : Services) (env : Env) (authorization : String) (batch : List AlertPayload)
    (s : Backend db) : Accounted [] s (ingest services env authorization batch s).2 := by
  unfold ingest
  rcases requireSensorToken_cases services env authorization s with ⟨e, hrun⟩ | ⟨id, old, hold, hrun⟩
  · rw [bind_run_error hrun]
    exact accounted_refl s
  · have hsensor : Accounted [] s { s with sensors := s.sensors.set id { old with lastUsedAt := some env.now } } :=
      accounted_sensor (logged_nil rfl rfl rfl) id _ (.inl (by rw [hold]; rfl))
    rw [bind_run_ok hrun, ensure_bind_run]
    split
    · exact ⟨hsensor.world, hsensor.triage, hsensor.sensors, hsensor.kept⟩
    · exact hsensor

/-! ## Requests -/

theorem serve_api (services : Services) (s : Backend db) (call : Call) (r : Request) :
    serveBackend services s (call, .api r) =
      { s with world := (handle services.toPlatform call.toEnv r s.world).2 } := by
  unfold serveBackend handleBackend
  dsimp only
  cases h : handle services.toPlatform call.toEnv r s.world with
  | mk answer w =>
      have hrun : (onWorld (handle services.toPlatform call.toEnv r) : BackendRoute db _) s =
          (answer, { s with world := w }) := by rw [onWorld, h]
      cases answer with
      | error e => rw [bind_run_error hrun]
      | ok response =>
          rw [bind_run_ok hrun]
          rfl

/-- A request that is no decision keeps the triage rows and records no decision. -/
theorem request_cases (services : Services) (s : Backend db) {call : Call} (haudit : call.auditUp = true)
    (r : BackendRequest) :
    (∃ es, Accounted es s (serveBackend services s (call, r)) ∧ (∀ e ∈ es, e.action ≠ triageAction) ∧
        (serveBackend services s (call, r)).triage = s.triage) ∨
      ∃ principal tenantId credentials incidentId status note,
        requireScope call.toEnv "triage:write" credentials s.world = (.ok principal, s.world) ∧
          principal.tenantId = some tenantId ∧ serveBackend services s (call, r) =
            afterDecision s call.toEnv principal.userId tenantId incidentId status note := by
  cases r with
  | api r =>
      obtain ⟨es, hes, hactions⟩ := handle_audited services.toPlatform haudit r s.world
      rw [serve_api]
      exact .inl ⟨es, accounted_world hes, hactions, rfl⟩
  | read credentials r =>
      rw [serveBackend, handleBackend, ← read_keeps services.toPlatform credentials r s]
      exact .inl ⟨[], accounted_refl s, List.forall_mem_nil _, rfl⟩
  | setStatus credentials incidentId status note =>
      rcases setStatus_cases services call.toEnv credentials incidentId status note s with hsame | hdecided
      · rw [serveBackend, handleBackend, hsame]
        exact .inl ⟨[], accounted_refl s, List.forall_mem_nil _, rfl⟩
      · obtain ⟨principal, tenantId, hscope, htenant, hrun⟩ := hdecided
        exact .inr ⟨principal, tenantId, credentials, incidentId, status, note, hscope, htenant, hrun⟩
  | createSensorToken credentials tenantId name =>
      obtain ⟨es, hes, hactions⟩ := createSensorToken_accounted services haudit credentials tenantId name s
      exact .inl ⟨es, hes, hactions, (createSensorToken_aside services call credentials tenantId name s).2.2⟩
  | ingest authorization batch =>
      exact .inl ⟨[], ingest_accounted services call.toEnv authorization batch s, List.forall_mem_nil _,
        (ingest_aside services call.toEnv authorization batch s).2.2⟩

/-- What the index of the triage table is on. -/
def triageKey (row : IncidentTriage) : ℕ × String := (row.tenantId, row.incidentId)

theorem triageRow_eq (s : Backend db) (tenantId : ℕ) (incidentId : String) :
    triageRow s tenantId incidentId = s.triage.lookup triageKey (tenantId, incidentId) := by
  unfold triageRow Dict.lookup triageKey
  congr 1
  funext e
  rw [← Bool.decide_and]
  exact decide_eq_decide.mpr Prod.mk_inj.symm

/-- There is one row for an incident, made by a user, and it says what the last decision in the log says. -/
structure Replays (s : Backend db) : Prop where
  unique : s.triage.Unique triageKey
  acted : ∀ id row, s.triage.get? id = some row → row.actorUserId.isSome
  rows : ∀ tenantId incidentId,
    (triageRow s tenantId incidentId).map (fun e => (some e.2.status, e.2.actorUserId)) =
      (lastDecision s.world.audit tenantId incidentId).map fun e => (e.detail, e.actorUserId)

theorem replays_empty : Replays (Backend.empty : Backend db) where
  unique := Dict.unique_empty
  acted _ _ h := by cases h
  rows _ _ := rfl

theorem lastDecision_append {log es : List AuditEvent} (hes : ∀ e ∈ es, e.action ≠ triageAction) (tenantId : ℕ)
    (incidentId : String) : lastDecision (log ++ es) tenantId incidentId = lastDecision log tenantId incidentId := by
  have hnone : (es.reverse.find? fun e =>
      e.action = triageAction ∧ e.tenantId = some tenantId ∧ e.target = some incidentId) = none := by
    rw [List.find?_eq_none]
    intro e he hdecision
    simp only [decide_eq_true_eq] at hdecision
    exact hes e (List.mem_reverse.mp he) hdecision.1
  rw [lastDecision, List.reverse_append, List.find?_append, hnone, Option.none_or]
  rfl

theorem lastDecision_concat (log : List AuditEvent) (env : Env) (actor : Option ℕ) (tenantId : ℕ)
    (incidentId status : String) (tenantId' : ℕ) (incidentId' : String) :
    lastDecision (log ++ [decisionEvent env actor tenantId incidentId status]) tenantId' incidentId' =
      if (tenantId, incidentId) = (tenantId', incidentId') then
        some (decisionEvent env actor tenantId incidentId status)
      else lastDecision log tenantId' incidentId' := by
  rw [lastDecision, List.reverse_append, List.reverse_singleton, List.singleton_append, List.find?_cons]
  by_cases h : (tenantId, incidentId) = (tenantId', incidentId')
  · cases h
    simp [decisionEvent, decisionFields, eventOf]
  · have hother : ¬ (some tenantId = some tenantId' ∧ some incidentId = some incidentId') := by
      simpa using h
    rw [if_neg h]
    simp only [decisionEvent, decisionFields, eventOf, hother, and_false, decide_false]
    rfl

theorem Replays.decision (hs : Replays s) (haudit : env.auditUp = true) {actor : Option ℕ} (hactor : actor.isSome)
    (tenantId : ℕ) (incidentId status : String) (note : Option String) :
    Replays (afterDecision s env actor tenantId incidentId status note) := by
  obtain ⟨htenant, hincident, hstatus, huser⟩ := decided_fields s env actor tenantId incidentId status note
  have hkey : triageKey (decided s env actor tenantId incidentId status note).2 = (tenantId, incidentId) :=
    Prod.ext htenant hincident
  have hfits : Dict.Fits triageKey (decided s env actor tenantId incidentId status note).1
      (decided s env actor tenantId incidentId status note).2 s.triage := by
    have hrow := triageRow_eq s tenantId incidentId
    unfold decided at hkey ⊢
    cases hold : triageRow s tenantId incidentId with
    | none =>
        rw [hold] at hkey hrow
        refine ⟨fun w hw => ?_, fun k w hw heq => ?_⟩
        · dsimp only at hw
          rw [get?_freshId] at hw
          cases hw
        · exact absurd (heq.trans hkey) (Dict.lookup_eq_none.mp hrow.symm k w hw)
    | some found =>
        obtain ⟨id, row⟩ := found
        rw [hold] at hkey hrow
        obtain ⟨hget, hindex⟩ := Dict.get?_of_lookup hrow.symm
        refine ⟨fun w hw => ?_, fun k w hw heq => ?_⟩
        · cases hget.symm.trans hw
          exact hindex.trans hkey.symm
        · exact hs.unique k id w row hw hget (heq.trans (hkey.trans hindex.symm))
  refine ⟨hs.unique.set hfits, fun id row hrow => ?_, fun tenantId' incidentId' => ?_⟩
  · rw [triage_afterDecision] at hrow
    split at hrow
    · cases hrow
      rw [huser]
      exact hactor
    · exact hs.acted id row hrow
  · have hlookup := Dict.lookup_set hs.unique hfits (tenantId', incidentId')
    rw [hkey, ← triageRow_eq] at hlookup
    rw [triageRow_eq]
    rw [afterDecision_world s env actor tenantId incidentId status note haudit]
    change Option.map _ (Dict.lookup triageKey (tenantId', incidentId') (s.triage.set _ _)) =
      (lastDecision (s.world.audit ++ [_]) tenantId' incidentId').map _
    rw [hlookup, lastDecision_concat]
    split
    · simp only [Option.map_some, hstatus, huser]
      rfl
    · exact hs.rows tenantId' incidentId'

theorem Replays.same (hs : Replays s) {es : List AuditEvent} (hlog : s'.world.audit = s.world.audit ++ es)
    (hes : ∀ e ∈ es, e.action ≠ triageAction) (htriage : s'.triage = s.triage) : Replays s' where
  unique := htriage ▸ hs.unique
  acted := htriage ▸ hs.acted
  rows tenantId incidentId := by
    rw [hlog, lastDecision_append hes, ← hs.rows, triageRow, triageRow, htriage]

theorem replays_serveBackend (services : Services) (hs : Replays s) (hsound : Sound s)
    {request : Call × BackendRequest} (haudit : request.1.auditUp = true) :
    Replays (serveBackend services s request) := by
  obtain ⟨call, r⟩ := request
  rcases request_cases services s haudit r with
    ⟨es, hes, hactions, htriage⟩ | ⟨principal, tenantId, credentials, incidentId, status, note, hscope, htenant, hrun⟩
  · exact hs.same hes.world.log hactions htriage
  · obtain ⟨id, -, huser, -⟩ := session_of_scope hsound.sessions hscope htenant
    rw [hrun]
    exact hs.decision haudit (by rw [huser]; rfl) tenantId incidentId status note

/-- Requests lead to the state, served one after the other, and every one of their audit writes succeeds. -/
def FullyAudited (services : Services) (s : Backend db) : Prop :=
  ∃ requests : List (Call × BackendRequest), (∀ request ∈ requests, request.1.auditUp = true) ∧
    s = requests.foldl (serveBackend services) .empty

theorem FullyAudited.reachable {services : Services} (h : FullyAudited services s) : Reachable services s := by
  obtain ⟨requests, -, hrun⟩ := h
  exact ⟨requests, hrun⟩

theorem FullyAudited.replays {services : Services} (h : FullyAudited services s) : Replays s := by
  obtain ⟨requests, haudit, rfl⟩ := h
  have hrun : ∀ s : Backend db, Sound s → Replays s → Replays (requests.foldl (serveBackend services) s) := by
    induction requests with
    | nil => exact fun _ _ hs => hs
    | cons request requests ih =>
        obtain ⟨hrequest, hrequests⟩ := List.forall_mem_cons.mp haudit
        exact fun s hsound hs =>
          ih hrequests _ (sound_serveBackend services hsound request) (replays_serveBackend services hs hsound hrequest)
  have hempty : Reachable services (Backend.empty : Backend db) := ⟨[], rfl⟩
  exact hrun _ hempty.sound replays_empty

end NeuralSoc.Tenants
