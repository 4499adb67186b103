import NeuralSoc.Tenants.Routes
import NeuralSoc.Api.Lemmas.Accounts

/-!
# What a tenant can read

A session carries the tenant of its user, and the actor of a triage row is a user of its tenant. Both hold in
every state that requests lead to, and with them every read endpoint only looks at rows of the tenant.
-/

namespace NeuralSoc.Tenants

open Api Handler

variable {db : Database} {env : Env}

/-! ## Definitions -/

def Backend.empty : Backend db := ⟨⟨.empty, .empty, [], [], [], [], []⟩, .empty, .empty, .empty⟩

def Reachable (services : Services) (s : Backend db) : Prop :=
  ∃ requests : List (Call × BackendRequest), s = requests.foldl (serveBackend services) .empty

def rowsOf {α : Type} (tenantOf : α → Option ℕ) (tenantId : ℕ) (rows : List (ℕ × α)) : List (ℕ × α) :=
  rows.filter fun e => tenantOf e.2 = some tenantId

/-- The two states have the same rows of the tenant in every table. -/
structure Agree (tenantId : ℕ) (s s' : Backend db) : Prop where
  alerts : rowsOf (fun a : Alert => some a.tenantId) tenantId s.alerts.rows.entries =
    rowsOf (fun a : Alert => some a.tenantId) tenantId s'.alerts.rows.entries
  triage : rowsOf (fun row : IncidentTriage => some row.tenantId) tenantId s.triage.entries =
    rowsOf (fun row : IncidentTriage => some row.tenantId) tenantId s'.triage.entries
  users : rowsOf (fun u : User => some u.tenantId) tenantId s.world.users.entries =
    rowsOf (fun u : User => some u.tenantId) tenantId s'.world.users.entries
  sensors : rowsOf (fun sensor : SensorToken => some sensor.tenantId) tenantId s.sensors.entries =
    rowsOf (fun sensor : SensorToken => some sensor.tenantId) tenantId s'.sensors.entries
  audit : rowsOf AuditEvent.tenantId tenantId (auditRows s.world) =
    rowsOf AuditEvent.tenantId tenantId (auditRows s'.world)

/-- The actor of a triage row is a user of the tenant of the row. -/
def ActorsOwn (s : Backend db) : Prop :=
  ∀ id row actor, s.triage.get? id = some row → row.actorUserId = some actor →
    ∃ u, s.world.users.get? actor = some u ∧ u.tenantId = row.tenantId

structure Sound (s : Backend db) : Prop where
  sessions : SessionsBacked s.world
  actors : ActorsOwn s

/-! ## Requests keep a state sound -/

/-- A part that leaves the users, the tokens and the triage rows alone. -/
def Aside (s s' : Backend db) : Prop :=
  s'.world.users = s.world.users ∧ s'.world.issued = s.world.issued ∧ s'.triage = s.triage

instance : IsPreorder (Backend db) Aside where
  refl _ := ⟨rfl, rfl, rfl⟩
  trans _ _ _ h h' := ⟨h'.1.trans h.1, h'.2.1.trans h.2.1, h'.2.2.trans h.2.2⟩

theorem Sound.aside {s s' : Backend db} (hs : Sound s) (h : Aside s s') : Sound s' where
  sessions claims hc := by
    rw [h.2.1] at hc
    rw [h.1]
    exact hs.sessions claims hc
  actors id row actor hrow hactor := by
    rw [h.2.2] at hrow
    rw [h.1]
    exact hs.actors id row actor hrow hactor

/-- The users and the tokens change as a request to the API changes them. -/
theorem Sound.effect {s : Backend db} (hs : Sound s) {w : World} (h : Effect Anyhow s.world w) :
    Sound { s with world := w } where
  sessions := h.sessionsBacked hs.sessions
  actors id row actor hrow hactor := by
    obtain ⟨u, hu, htenant⟩ := hs.actors id row actor hrow hactor
    obtain ⟨u', hu', htenant', -⟩ := h.rows actor u hu
    exact ⟨u', hu', htenant'.trans htenant⟩

theorem onWorld_aside {α : Type} {m : Route α} (h : ∀ w, (m w).2.users = w.users ∧ (m w).2.issued = w.issued) :
    Keeps Aside (onWorld m : BackendRoute db α) := fun s => ⟨(h s.world).1, (h s.world).2, rfl⟩

theorem requireScope_aside (scope : String) (credentials : Option Token) :
    Keeps Aside (onWorld (requireScope env scope credentials) : BackendRoute db Principal) := by
  refine onWorld_aside fun w => ?_
  obtain ⟨r, hr⟩ := requireScope_run env scope credentials w
  rw [hr]
  exact ⟨rfl, rfl⟩

theorem recordAuditEvent_aside (action : String) (fields : AuditFields) :
    Keeps Aside (onWorld (recordAuditEvent env action fields) : BackendRoute db Unit) :=
  onWorld_aside fun w => by
    obtain ⟨audit, hrun⟩ := recordAuditEvent_run env action fields w
    rw [hrun]
    exact ⟨rfl, rfl⟩

theorem createSensorToken_aside (services : Services) (call : Call) (credentials : Option Token) (tenantId : ℕ)
    (name : String) :
    Keeps Aside (createSensorToken services call credentials tenantId name : BackendRoute db BackendResponse) := by
  refine .bind (requireScope_aside _ _) fun principal => .bind (.ensure _ _) fun _ => .bind .get fun s => ?_
  refine .bind (.modify fun _ => ⟨rfl, rfl, rfl⟩) fun _ => ?_
  exact .bind (recordAuditEvent_aside _ _) fun _ => .pure _

theorem requireSensorToken_aside (services : Services) (env : Env) (authorization : String) :
    Keeps Aside (requireSensorToken services env authorization : BackendRoute db SensorToken) := by
  refine .bind (.ensure _ _) fun _ => .bind .get fun s => .bind (.expect _ _) fun found => ?_
  exact .bind (.modify fun _ => ⟨rfl, rfl, rfl⟩) fun _ => .pure _

theorem ingest_aside (services : Services) (env : Env) (authorization : String) (batch : List AlertPayload) :
    Keeps Aside (ingest services env authorization batch : BackendRoute db BackendResponse) := by
  refine .bind (requireSensorToken_aside _ _ _) fun sensor => .bind (.ensure _ _) fun _ => .bind .get fun s => ?_
  exact .bind (.modify fun _ => ⟨rfl, rfl, rfl⟩) fun _ => .pure _

theorem onWorld_same {α : Type} {m : Route α} (h : Keeps Eq m) : Keeps Eq (onWorld m : BackendRoute db α) := by
  intro s
  change s = { s with world := (m s.world).2 }
  rw [← h s.world]

theorem requireScope_keeps (scope : String) (credentials : Option Token) :
    Keeps Eq (requireScope env scope credentials) := by
  intro w
  obtain ⟨r, hr⟩ := requireScope_run env scope credentials w
  rw [hr]

theorem listUsers_keeps (credentials : Option Token) (tenantId : ℕ) :
    Keeps Eq (listUsers env credentials tenantId) := by
  refine .bind (requireScope_keeps _ _) fun principal => .bind (.ensure _ _) fun _ => ?_
  exact .bind .get fun _ => .pure _

theorem read_keeps (p : Platform) (credentials : Option Token) (r : Read) :
    Keeps Eq (read p env credentials r : BackendRoute db BackendResponse) := by
  cases r with
  | alerts cursor limit =>
      refine .bind (onWorld_same (requireScope_keeps _ _)) fun principal => .bind (.ensure _ _) fun _ => ?_
      exact .bind (.ensure _ _) fun _ => .bind .get fun _ => .pure _
  | alert alertId =>
      refine .bind (onWorld_same (requireScope_keeps _ _)) fun principal => .bind (.ensure _ _) fun _ => ?_
      exact .bind .get fun _ => .bind (.expect _ _) fun _ => .pure _
  | stats =>
      refine .bind (onWorld_same (requireScope_keeps _ _)) fun principal => ?_
      exact .bind (.ensure _ _) fun _ => .bind .get fun _ => .pure _
  | statuses =>
      refine .bind (onWorld_same (requireScope_keeps _ _)) fun principal => ?_
      exact .bind (.ensure _ _) fun _ => .bind .get fun _ => .pure _
  | status incidentId =>
      refine .bind (onWorld_same (requireScope_keeps _ _)) fun principal => .bind (.ensure _ _) fun _ => ?_
      refine .bind .get fun s => ?_
      dsimp only
      split
      · exact .pure _
      · exact .pure _
  | auditLog cursor limit =>
      refine .bind (onWorld_same (requireScope_keeps _ _)) fun principal => .bind (.ensure _ _) fun _ => ?_
      exact .bind (.ensure _ _) fun _ => .bind .get fun _ => .pure _
  | users tenantId =>
      exact .bind (onWorld_same (listUsers_keeps _ _)) fun _ => .pure _
  | sensorTokens tenantId =>
      refine .bind (onWorld_same (requireScope_keeps _ _)) fun principal => ?_
      exact .bind (.ensure _ _) fun _ => .bind .get fun _ => .pure _

theorem onWorld_run {α : Type} {m : Route α} {s : Backend db} {r : Except HttpError α} (h : m s.world = (r, s.world)) :
    (onWorld m : BackendRoute db α) s = (r, s) := by
  rw [onWorld, h]

/-- A principal with a tenant holds a session of a user of that tenant. -/
theorem session_of_scope {w : World} (hw : SessionsBacked w) {scope : String} {credentials : Option Token}
    {principal : Principal} (h : requireScope env scope credentials w = (.ok principal, w)) {tenantId : ℕ}
    (htenant : principal.tenantId = some tenantId) :
    ∃ id u, principal.userId = some id ∧ w.users.get? id = some u ∧ u.tenantId = tenantId := by
  rcases requireScope_ok h with ⟨-, -, hnone⟩ | ⟨claims, -, hissued, rfl, hscope⟩
  · cases hnone.symm.trans htenant
  · rcases hw claims hissued with hempty | ⟨id, u, hu, huser, hclaims, -⟩
    · rw [hempty] at hscope
      simp at hscope
    · exact ⟨id, u, huser, hu, Option.some.inj (hclaims.symm.trans htenant)⟩

def KeepsSound (s s' : Backend db) : Prop := Sound s → Sound s'

instance : IsPreorder (Backend db) KeepsSound where
  refl _ h := h
  trans _ _ _ h h' hs := h' (h hs)

theorem Keeps.sound {α : Type} {m : BackendRoute db α} (h : Keeps Aside m) : Keeps KeepsSound m :=
  h.mono fun haside hs => hs.aside haside

theorem Sound.setTriage {s : Backend db} (hs : Sound s) (id : ℕ) {row : IncidentTriage}
    (hactor : ∀ a, row.actorUserId = some a → ∃ u, s.world.users.get? a = some u ∧ u.tenantId = row.tenantId) :
    Sound { s with triage := s.triage.set id row } where
  sessions := hs.sessions
  actors j row' a hrow ha := by
    rw [Dict.get?_set] at hrow
    by_cases hj : j = id
    · rw [if_pos hj] at hrow
      cases hrow
      exact hactor a ha
    · rw [if_neg hj] at hrow
      exact hs.actors j row' a hrow ha

theorem updateTriage_actor (env : Env) (status : String) (note : Option String) (actor : Option ℕ)
    (row : IncidentTriage) :
    (updateTriage env status note actor row).actorUserId = actor ∧
      (updateTriage env status note actor row).tenantId = row.tenantId := by
  unfold updateTriage
  dsimp only
  split
  · rename_i hsame
    exact ⟨(congrArg IncidentTriage.actorUserId hsame).symm, rfl⟩
  · exact ⟨rfl, rfl⟩

theorem setStatus_sound (services : Services) (credentials : Option Token) (incidentId status : String)
    (note : Option String) :
    Keeps KeepsSound (setStatus services env credentials incidentId status note : BackendRoute db _) := by
  intro s
  obtain ⟨r, hr⟩ := requireScope_run env "triage:write" credentials s.world
  refine related_read ⟨r, onWorld_run hr⟩ fun principal hrun => related_ensure fun _ => related_ensure fun _ => ?_
  refine related_expect fun tenantId htenant => related_get ?_
  have hscope : requireScope env "triage:write" credentials s.world = (.ok principal, s.world) := by
    rw [onWorld_run hr] at hrun
    rw [hr, (Prod.mk.inj hrun).1]
  have hrest : ∀ id row, row.actorUserId = principal.userId → row.tenantId = tenantId →
      KeepsSound s ((Handler.modify (fun s => { s with triage := s.triage.set id row }) >>= fun _ =>
        onWorld (recordAuditEvent env "triage.set_status"
          { tenantId := some tenantId, actorUserId := principal.userId, target := some incidentId,
            detail := some status }) >>= fun _ =>
        pure (.status (serialize s.world.users row)) : BackendRoute db BackendResponse) s).2 := by
    intro id row hactor hown
    refine related_modify (fun hs => hs.setTriage id fun a ha => ?_) ?_
    · obtain ⟨actor, u, huser, hu, hutenant⟩ := session_of_scope hs.sessions hscope htenant
      rw [hactor, huser] at ha
      cases ha
      exact ⟨u, hu, hutenant.trans hown.symm⟩
    · exact related_bind (Keeps.sound (recordAuditEvent_aside _ _) _) fun _ s' _ => refl s'
  cases hfound : triageRow s tenantId incidentId with
  | none => exact hrest _ ⟨tenantId, incidentId, status, note, principal.userId, env.now⟩ rfl rfl
  | some found =>
      obtain ⟨id, row⟩ := found
      have hown := List.find?_some hfound
      simp only [Bool.and_eq_true, decide_eq_true_eq] at hown
      obtain ⟨hactor, hsame⟩ := updateTriage_actor env status note principal.userId row
      exact hrest id _ hactor (hsame.trans hown.1)

theorem sound_serveBackend (services : Services) {s : Backend db} (hs : Sound s) (request : Call × BackendRequest) :
    Sound (serveBackend services s request) := by
  obtain ⟨call, r⟩ := request
  cases r with
  | api r =>
      refine related_bind (R := KeepsSound) (s := s) (fun hs => ?_) (fun _ s' _ => refl s') hs
      exact hs.effect (handle_effect (R := Anyhow) (fun _ _ _ _ => trivial) s.world)
  | read credentials r =>
      rw [serveBackend, handleBackend, ← read_keeps services.toPlatform credentials r s]
      exact hs
  | setStatus credentials incidentId status note => exact setStatus_sound services credentials _ _ _ s hs
  | createSensorToken credentials tenantId name =>
      exact hs.aside (createSensorToken_aside services call credentials tenantId name s)
  | ingest authorization batch => exact hs.aside (ingest_aside services call.toEnv authorization batch s)

theorem Reachable.sound {services : Services} {s : Backend db} (h : Reachable services s) : Sound s := by
  obtain ⟨requests, rfl⟩ := h
  have hrun : ∀ s : Backend db, Sound s → Sound (requests.foldl (serveBackend services) s) := by
    induction requests with
    | nil => exact fun _ hs => hs
    | cons request requests ih => exact fun s hs => ih _ (sound_serveBackend services hs request)
  refine hrun _ ⟨fun _ hc => ?_, fun _ _ _ hrow => ?_⟩
  · cases hc
  · cases hrow

/-! ## Reading in two states -/

theorem scopeToTenant_eq {α : Type} {principal : Principal} {tenantId : ℕ} (h : principal.tenantId = some tenantId)
    (tenantOf : α → Option ℕ) (rows : List (ℕ × α)) :
    scopeToTenant principal tenantOf rows = rowsOf tenantOf tenantId rows := by
  rw [scopeToTenant, h]
  rfl

theorem Agree.user {tenantId : ℕ} {s s' : Backend db} (h : Agree tenantId s s') {id : ℕ} {u : User}
    (hu : s.world.users.get? id = some u) (htenant : u.tenantId = tenantId) :
    s'.world.users.get? id = some u := by
  have hmem : (id, u) ∈ rowsOf (fun u : User => some u.tenantId) tenantId s.world.users.entries :=
    List.mem_filter.mpr ⟨Dict.get?_eq_some.mp hu, by simp [htenant]⟩
  rw [h.users] at hmem
  exact Dict.get?_eq_some.mpr (List.mem_filter.mp hmem).1

/-- The actor of a row of the tenant is looked up among the users of the tenant. -/
theorem serialize_congr {tenantId : ℕ} {s s' : Backend db} (hs : Sound s) (hagree : Agree tenantId s s')
    {e : ℕ × IncidentTriage}
    (he : e ∈ rowsOf (fun row : IncidentTriage => some row.tenantId) tenantId s.triage.entries) :
    serialize s.world.users e.2 = serialize s'.world.users e.2 := by
  obtain ⟨hmem, htenant⟩ := List.mem_filter.mp he
  have hlookup : e.2.actorUserId.bind s.world.users.get? = e.2.actorUserId.bind s'.world.users.get? := by
    cases hactor : e.2.actorUserId with
    | none => rfl
    | some actor =>
        obtain ⟨u, hu, hown⟩ := hs.actors e.1 e.2 actor (Dict.get?_eq_some.mpr hmem) hactor
        have hu' := hagree.user hu (hown.trans (by simpa using htenant))
        simp only [Option.bind_some, hu, hu']
  simp only [serialize, hlookup]

/-- The token is good and not revoked. -/
def Accepted (env : Env) (w : World) (claims : Claims) : Prop :=
  verifyToken env w (.jwt claims) = some claims ∧ isTokenRevoked env w claims.jti = false

theorem Accepted.run {w : World} {claims : Claims} (h : Accepted env w claims) :
    verifyAuth env (some (.jwt claims)) w =
      (.ok ⟨claims.sub, claims.scopes, claims.tenantId, claims.userId⟩, w) := by
  have hauth : authenticate env (.jwt claims) w =
      (.ok ⟨claims.sub, claims.scopes, claims.tenantId, claims.userId⟩, w) := by
    unfold authenticate
    dsimp only
    rw [get_bind_run, h.1, expect_bind_run]
    dsimp only
    rw [h.2, ensure_bind_run]
    rfl
  exact hauth

/-- The session that reads: it is accepted in both states, and with a scope it carries the tenant. -/
structure Reads (tenantId : ℕ) (env : Env) (claims : Claims) (s s' : Backend db) : Prop where
  left : Accepted env s.world claims
  right : Accepted env s'.world claims
  own : claims.scopes ≠ [] → claims.tenantId = some tenantId ∧ "*" ∉ claims.scopes

variable {tenantId : ℕ} {claims : Claims} {s s' : Backend db}

/-- The token of a user of the tenant carries the tenant if it has a scope. -/
theorem Sound.session {id : ℕ} {u : User} (hs : Sound s) (hc : claims ∈ s.world.issued)
    (hid : claims.userId = some id) (hu : s.world.users.get? id = some u) (hscopes : claims.scopes ≠ []) :
    claims.tenantId = some u.tenantId ∧ "*" ∉ claims.scopes := by
  rcases hs.sessions claims hc with hempty | ⟨j, v, hv, hj, htenant, hrole⟩
  · exact absurd hempty hscopes
  · cases hj.symm.trans hid
    cases hv.symm.trans hu
    exact ⟨htenant, by rw [hrole]; exact star_not_mem_roleScopes _⟩

theorem requireScope_of_accepted {w : World} (h : Accepted env w claims) (scope : String) :
    requireScope env scope (some (.jwt claims)) w =
      (if claims.scopes.contains scope || claims.scopes.contains "*" then
          .ok ⟨claims.sub, claims.scopes, claims.tenantId, claims.userId⟩
        else .error ⟨403, "Token lacks required scope: " ++ scope⟩, w) := by
  rw [requireScope, bind_run_ok h.run, ensure_bind_run]
  split <;> rfl

theorem Reads.held (h : Reads tenantId env claims s s') {scope : String} {e : HttpError} {principal : Principal}
    (hheld : (if claims.scopes.contains scope || claims.scopes.contains "*" then
        Except.ok (⟨claims.sub, claims.scopes, claims.tenantId, claims.userId⟩ : Principal)
      else .error e) = .ok principal) :
    principal.tenantId = some tenantId ∧ "*" ∉ principal.scopes := by
  split at hheld
  · rename_i hscope
    cases hheld
    refine h.own fun hempty => ?_
    simp [hempty] at hscope
  · cases hheld

theorem Reads.scoped (h : Reads tenantId env claims s s') (scope : String) {α : Type}
    {f : Principal → BackendRoute db α}
    (hf : ∀ principal : Principal, principal.tenantId = some tenantId → "*" ∉ principal.scopes →
      (f principal s).1 = (f principal s').1) :
    ((onWorld (requireScope env scope (some (.jwt claims))) >>= f) s).1 =
      ((onWorld (requireScope env scope (some (.jwt claims))) >>= f) s').1 := by
  refine bind_answer (onWorld_run (requireScope_of_accepted h.left scope))
    (onWorld_run (requireScope_of_accepted h.right scope)) fun principal hheld => ?_
  obtain ⟨htenant, hstar⟩ := h.held hheld
  exact hf principal htenant hstar

theorem tenant_of_own {principal : Principal} {tenantId' : ℕ} (htenant : principal.tenantId = some tenantId)
    (hstar : "*" ∉ principal.scopes)
    (hown : (decide (principal.tenantId = some tenantId') || principal.scopes.contains "*") = true) :
    tenantId' = tenantId := by
  simp only [htenant, Bool.or_eq_true, decide_eq_true_eq, Option.some.injEq, List.contains_iff_mem, hstar,
    or_false] at hown
  exact hown.symm

theorem Reads.listUsers_answer (h : Reads tenantId env claims s s') (hagree : Agree tenantId s s')
    (tenantId' : ℕ) :
    (listUsers env (some (.jwt claims)) tenantId' s.world).1 =
      (listUsers env (some (.jwt claims)) tenantId' s'.world).1 := by
  refine bind_answer (requireScope_of_accepted h.left _) (requireScope_of_accepted h.right _)
    fun principal hheld => ensure_answer fun hown => ?_
  obtain ⟨htenant, hstar⟩ := h.held hheld
  cases tenant_of_own htenant hstar hown
  have hrows := hagree.users
  simp only [rowsOf, Option.some.injEq] at hrows
  rw [get_bind_run, get_bind_run, hrows]
  rfl

theorem read_answer (p : Platform) (h : Reads tenantId env claims s s') (hs : Sound s)
    (hagree : Agree tenantId s s') (r : Read) :
    (read p env (some (.jwt claims)) r s).1 = (read p env (some (.jwt claims)) r s').1 := by
  cases r with
  | alerts cursor limit =>
      refine h.scoped "alerts:read" fun _ htenant _ => ensure_answer fun _ => ensure_answer fun _ => ?_
      rw [get_bind_run, get_bind_run, scopeToTenant_eq htenant, scopeToTenant_eq htenant, hagree.alerts]
      rfl
  | alert alertId =>
      refine h.scoped "alerts:read" fun _ htenant _ => ensure_answer fun _ => ?_
      rw [get_bind_run, get_bind_run, scopeToTenant_eq htenant, scopeToTenant_eq htenant, hagree.alerts]
      rw [expect_bind_run, expect_bind_run]
      split <;> rfl
  | stats =>
      refine h.scoped "stats:read" fun _ htenant _ => ensure_answer fun _ => ?_
      rw [get_bind_run, get_bind_run, scopeToTenant_eq htenant, scopeToTenant_eq htenant, hagree.alerts]
      rfl
  | statuses =>
      refine h.scoped "alerts:read" fun _ htenant _ => ensure_answer fun _ => ?_
      rw [get_bind_run, get_bind_run, scopeToTenant_eq htenant, scopeToTenant_eq htenant]
      change Except.ok (BackendResponse.statuses _) = Except.ok (BackendResponse.statuses _)
      rw [← hagree.triage]
      congr 3
      refine List.foldl_ext _ _ _ fun d e he => ?_
      rw [serialize_congr hs hagree he]
  | status incidentId =>
      refine h.scoped "alerts:read" fun _ htenant _ => ensure_answer fun _ => ?_
      rw [get_bind_run, get_bind_run, scopeToTenant_eq htenant, scopeToTenant_eq htenant, ← hagree.triage]
      cases hfound : (rowsOf (fun row : IncidentTriage => some row.tenantId) tenantId s.triage.entries).find?
          fun e => e.2.incidentId = incidentId with
      | some e =>
          change Except.ok (BackendResponse.status _) = Except.ok (BackendResponse.status _)
          rw [serialize_congr hs hagree (List.mem_of_find?_eq_some hfound)]
      | none => rfl
  | auditLog cursor limit =>
      refine h.scoped "users:manage" fun _ htenant _ => ensure_answer fun _ => ensure_answer fun _ => ?_
      rw [get_bind_run, get_bind_run, scopeToTenant_eq htenant, scopeToTenant_eq htenant, hagree.audit]
      rfl
  | users tenantId' =>
      have hsame := h.listUsers_answer hagree tenantId'
      refine bind_answer (onWorld_run (Prod.ext rfl (listUsers_keeps _ _ _).symm))
        (onWorld_run (Prod.ext hsame.symm (listUsers_keeps _ _ _).symm)) fun _ _ => rfl
  | sensorTokens tenantId' =>
      refine h.scoped "users:manage" fun _ htenant hstar => ensure_answer fun hown => ?_
      cases tenant_of_own htenant hstar hown
      have hrows := hagree.sensors
      simp only [rowsOf, Option.some.injEq] at hrows
      rw [get_bind_run, get_bind_run, hrows]
      rfl

end NeuralSoc.Tenants
