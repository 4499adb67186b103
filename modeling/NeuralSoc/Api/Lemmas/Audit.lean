import NeuralSoc.Api.Lemmas.Effects

/-!
# What the audit log says about a request

`Logged es w w'` relates the worlds before and after a part of a request that appends `es` to the log. A user or
a tenant that is new or has changed is named by one of these events where their writes succeed.
-/

namespace NeuralSoc.Api

open Handler

variable {p : Platform} {env : Env} {w w' : World}

/-! ## Definitions -/

/-- The event is about the user: of the tenant, by the user or on the e-mail address. -/
def About (id : ℕ) (u : User) (e : AuditEvent) : Prop :=
  e.tenantId = some u.tenantId ∧ (e.actorUserId = some id ∨ e.target = some u.email)

structure Logged (es : List AuditEvent) (w w' : World) : Prop where
  log : w'.audit = w.audit ++ es
  users : ∀ id u, w'.users.get? id = some u → w.users.get? id = some u ∨ ∃ e ∈ es, About id u e
  tenants : ∀ id t, w'.tenants.get? id = some t → w.tenants.get? id = some t ∨
    ∃ e ∈ es, e.tenantId = some id ∧ e.target = some t.slug
  kept : ∀ id, (w.users.get? id).isSome → (w'.users.get? id).isSome

/-- The action of a triage decision, which no route of the authentication records. -/
def triageAction : String := "triage.set_status"

def Audited (w w' : World) : Prop := ∃ es, Logged es w w' ∧ ∀ e ∈ es, e.action ≠ triageAction

theorem Logged.trans {es es' : List AuditEvent} {w'' : World} (h : Logged es w w') (h' : Logged es' w' w'') :
    Logged (es ++ es') w w'' where
  log := by rw [h'.log, h.log, List.append_assoc]
  users id u hu := by
    rcases h'.users id u hu with hu | ⟨e, he, habout⟩
    · exact (h.users id u hu).imp_right fun ⟨e, he, habout⟩ => ⟨e, List.mem_append_left _ he, habout⟩
    · exact .inr ⟨e, List.mem_append_right _ he, habout⟩
  tenants id t ht := by
    rcases h'.tenants id t ht with ht | ⟨e, he, habout⟩
    · exact (h.tenants id t ht).imp_right fun ⟨e, he, habout⟩ => ⟨e, List.mem_append_left _ he, habout⟩
    · exact .inr ⟨e, List.mem_append_right _ he, habout⟩
  kept id hid := h'.kept id (h.kept id hid)

theorem logged_nil (htenants : w'.tenants = w.tenants) (husers : w'.users = w.users)
    (haudit : w'.audit = w.audit) : Logged [] w w' where
  log := by rw [haudit, List.append_nil]
  users id u hu := .inl (husers ▸ hu)
  tenants id t ht := .inl (htenants ▸ ht)
  kept id hid := husers ▸ hid

instance : IsPreorder World Audited where
  refl _ := ⟨[], logged_nil rfl rfl rfl, List.forall_mem_nil _⟩
  trans _ _ _ := by
    rintro ⟨es, h, hes⟩ ⟨es', h', hes'⟩
    exact ⟨es ++ es', h.trans h', List.forall_mem_append.mpr ⟨hes, hes'⟩⟩

/-! ## Parts of a request -/

/-- The part leaves the tables and the log alone. -/
def Unlogged {α : Type} (m : Route α) : Prop :=
  ∀ w, (m w).2.tenants = w.tenants ∧ (m w).2.users = w.users ∧ (m w).2.audit = w.audit

theorem Unlogged.audited {α : Type} {m : Route α} (h : Unlogged m) : Keeps Audited m := fun w =>
  ⟨[], logged_nil (h w).1 (h w).2.1 (h w).2.2, List.forall_mem_nil _⟩

def eventOf (env : Env) (action : String) (fields : AuditFields) : AuditEvent :=
  ⟨action, fields.tenantId, fields.actorUserId, fields.actorLabel, fields.target, fields.detail, env.clientIp, env.now⟩

/-- The world with one more event. -/
def recorded (env : Env) (action : String) (fields : AuditFields) (w : World) : World :=
  { w with audit := w.audit ++ [eventOf env action fields] }

theorem record_bind_run {α : Type} (haudit : env.auditUp = true) (action : String) (fields : AuditFields)
    (k : Unit → Route α) (w : World) :
    (recordAuditEvent env action fields >>= k) w = k () (recorded env action fields w) := by
  unfold recordAuditEvent
  rw [modify_bind_run, haudit]
  rfl

theorem only_event {action : String} (h : action ≠ triageAction) (fields : AuditFields) :
    ∀ e ∈ [eventOf env action fields], e.action ≠ triageAction := List.forall_mem_singleton.mpr h

theorem recordAuditEvent_audited {action : String} (h : action ≠ triageAction) (fields : AuditFields) :
    Keeps Audited (recordAuditEvent env action fields) := by
  refine .modify fun w => ?_
  split
  · exact refl w
  · exact ⟨[eventOf env action fields], ⟨rfl, fun _ _ => .inl, fun _ _ => .inl, fun _ => id⟩, only_event h fields⟩

theorem createToken_audited (scopes : List String) (subject : Option String) (tenantId userId : Option ℕ)
    (purpose : Option String) (expiryMinutes : Option ℕ) :
    Keeps Audited (createToken p env scopes subject tenantId userId purpose expiryMinutes) :=
  Unlogged.audited fun _ => ⟨rfl, rfl, rfl⟩

theorem deliverEmail_audited (mail : Mail) : Keeps Audited (deliverEmail mail) :=
  Unlogged.audited fun _ => ⟨rfl, rfl, rfl⟩

theorem recordFailedLogin_audited (email : String) : Keeps Audited (recordFailedLogin p env email) := by
  apply Unlogged.audited
  intro w
  unfold recordFailedLogin Handler.modify
  dsimp only
  split
  · exact ⟨rfl, rfl, rfl⟩
  · exact ⟨rfl, rfl, rfl⟩

theorem clearFailedLogins_same (p : Platform) (env : Env) (email : String) (w : World) :
    (clearFailedLogins p env email w).2.tenants = w.tenants ∧ (clearFailedLogins p env email w).2.users = w.users ∧
      (clearFailedLogins p env email w).2.audit = w.audit := by
  unfold clearFailedLogins Handler.modify
  dsimp only
  split
  · exact ⟨rfl, rfl, rfl⟩
  · exact ⟨rfl, rfl, rfl⟩

theorem consume_audited (env : Env) (claims : Claims) : Keeps Audited (consume env claims) := by
  apply Unlogged.audited
  intro w
  rw [consume_run]
  exact ⟨rfl, rfl, rfl⟩

theorem requireScope_audited (scope : String) (credentials : Option Token) :
    Keeps Audited (requireScope env scope credentials) := by
  intro w
  obtain ⟨r, hr⟩ := requireScope_run env scope credentials w
  rw [hr]
  exact refl w

/-! ## Changes with their event -/

/-- A row is updated and an event about it is recorded. -/
theorem updateUser_recorded (env : Env) (f : User → User) {action : String} (haction : action ≠ triageAction)
    (fields : AuditFields) {id : ℕ} {u : User} (hu : w.users.get? id = some u)
    (hf : (f u).tenantId = u.tenantId ∧ (f u).email = u.email)
    (hfields : fields.tenantId = some u.tenantId ∧ (fields.actorUserId = some id ∨ fields.target = some u.email)) :
    Audited w (recorded env action fields (w.updateUser id f)) := by
  refine ⟨[eventOf env action fields], ⟨?_, fun j v hv => ?_, fun j t ht => .inl ?_, fun j hj => ?_⟩,
    only_event haction fields⟩
  · change (w.updateUser id f).audit ++ _ = _
    unfold World.updateUser
    rw [hu]
  · change (w.updateUser id f).users.get? j = some v at hv
    rw [users_updateUser] at hv
    split at hv
    · next hj =>
        rw [hu] at hv
        cases hv
        refine .inr ⟨_, List.mem_singleton_self _, ?_, ?_⟩
        · rw [hf.1]
          exact hfields.1
        · rw [hf.2, hj]
          exact hfields.2
    · exact .inl hv
  · change (w.updateUser id f).tenants.get? j = some t at ht
    unfold World.updateUser at ht
    rw [hu] at ht
    exact ht
  · change ((w.updateUser id f).users.get? j).isSome
    rw [users_updateUser]
    split
    · rw [hu]
      rfl
    · exact hj

/-- A row is inserted and an event about it is recorded. -/
theorem addUser_recorded (env : Env) {action : String} (haction : action ≠ triageAction) (fields : AuditFields)
    (u : User) (w : World) (hfields : fields.tenantId = some u.tenantId ∧
      (fields.actorUserId = some (freshId w.users) ∨ fields.target = some u.email)) :
    Audited w (recorded env action fields (w.addUser u)) := by
  refine ⟨[eventOf env action fields], ⟨rfl, fun j v hv => ?_, fun j t ht => .inl ht, fun j hj => ?_⟩,
    only_event haction fields⟩
  · change (w.addUser u).users.get? j = some v at hv
    rw [users_addUser] at hv
    split at hv
    · next hj =>
        cases hv
        exact .inr ⟨_, List.mem_singleton_self _, hfields.1, hj ▸ hfields.2⟩
    · exact .inl hv
  · change ((w.addUser u).users.get? j).isSome
    rw [users_addUser]
    split
    · rfl
    · exact hj

/-! ## The routes -/

theorem completeLogin_audited (haudit : env.auditUp = true) {id : ℕ} {user : User}
    (hu : w.users.get? id = some user) (detail : Option String) :
    Audited w (completeLogin p env id user detail w).2 := by
  unfold completeLogin
  rw [modify_bind_run, record_bind_run haudit]
  have haction : "login.success" ≠ triageAction := by decide
  have hrow := updateUser_recorded env (fun u => { u with lastLoginAt := some env.now }) haction
    { userFields id user with detail } hu ⟨rfl, rfl⟩ ⟨rfl, .inl rfl⟩
  refine IsTrans.trans _ _ _ hrow ?_
  exact related_bind (createToken_audited _ _ _ _ _ _ _) fun _ w' _ => refl w'

theorem signup_audited (haudit : env.auditUp = true) (tenantName email password : String) :
    Keeps Audited (signup p env tenantName email password) := by
  intro w
  refine related_expect fun tenantName _ => related_expect fun email _ => ?_
  refine related_expect fun password _ => related_ensure fun _ => related_get ?_
  refine related_ensure fun _ => related_expect fun slug _ => ?_
  rw [modify_bind_run, modify_bind_run, record_bind_run haudit]
  have hrows : Audited w (recorded env "signup"
      { tenantId := some (freshId w.tenants), actorUserId := some (freshId w.users), actorLabel := some email,
        target := some slug }
      ((w.addTenant ⟨tenantName, slug⟩).addUser
        ⟨freshId w.tenants, email, p.hashPassword env.salt password, .admin, true, env.now, none, none, false⟩)) := by
    have haction : "signup" ≠ triageAction := by decide
    obtain ⟨es, hes, hactions⟩ := addUser_recorded env haction
      { tenantId := some (freshId w.tenants), actorUserId := some (freshId w.users), actorLabel := some email,
        target := some slug }
      ⟨freshId w.tenants, email, p.hashPassword env.salt password, .admin, true, env.now, none, none, false⟩
      (w.addTenant ⟨tenantName, slug⟩) ⟨rfl, .inl rfl⟩
    refine ⟨es, ⟨hes.log, hes.users, fun id t ht => ?_, hes.kept⟩, hactions⟩
    have hevent := List.append_cancel_left hes.log
    change (w.tenants.set _ _).get? id = some t at ht
    rw [Dict.get?_set] at ht
    split at ht
    · next hid =>
        cases ht
        exact .inr ⟨_, hevent ▸ List.mem_singleton_self _, congrArg some hid.symm, rfl⟩
    · exact .inl ht
  refine IsTrans.trans _ _ _ hrows ?_
  exact related_bind (createToken_audited _ _ _ _ _ _ _) fun _ w' _ => refl w'

theorem failLogin_audited (email : String) (fields : AuditFields) :
    Keeps Audited (failLogin p env email fields) := by
  refine .bind (recordFailedLogin_audited _) fun _ => ?_
  exact .bind (recordAuditEvent_audited (by decide) _) fun _ => .throw _

theorem login_audited (haudit : env.auditUp = true) (email password : String) :
    Keeps Audited (login p env email password) := by
  intro w
  refine related_expect fun email _ => related_ensure fun _ => related_get ?_
  split
  · exact related_bind (recordAuditEvent_audited (by decide) _ _) fun _ w' _ => refl w'
  cases hfound : (w.userByEmail email).filter fun e => e.2.isActive with
  | none => exact failLogin_audited _ _ w
  | some found =>
      obtain ⟨id, user⟩ := found
      dsimp only
      split
      · exact failLogin_audited _ _ w
      have hu := (userByEmail_eq_some (Option.eq_some_of_filter_eq_some hfound)).1
      cases hrun : clearFailedLogins p env email w with
      | mk r w' =>
          have hsame := clearFailedLogins_same p env email w
          have hw' := Unlogged.audited (clearFailedLogins_same p env email) w
          rw [hrun] at hsame hw'
          cases r with
          | error e =>
              rw [bind_run_error hrun]
              exact hw'
          | ok _ =>
              rw [bind_run_ok hrun]
              refine IsTrans.trans _ _ _ hw' ?_
              split
              · refine related_bind (createToken_audited _ _ _ _ _ _ _) fun _ w'' _ => ?_
                exact related_bind (recordAuditEvent_audited (by decide) _ _) fun _ w''' _ => refl w'''
              · exact completeLogin_audited haudit (hsame.2.1 ▸ hu) none

theorem verifyMfa_audited (haudit : env.auditUp = true) (mfaToken : Token) (code : String) :
    Keeps Audited (verifyMfa p env mfaToken code) := by
  intro w
  refine related_ensure fun _ => ?_
  refine related_read (purposeToken_run _ _ _ _ _) fun claims _ => related_get ?_
  refine related_expect fun found hfound => related_ensure fun _ => ?_
  obtain ⟨id, user⟩ := found
  split
  · exact related_bind (recordAuditEvent_audited (by decide) _ _) fun _ w' _ => refl w'
  · have hu := (userById_eq_some.mp (Option.eq_some_of_filter_eq_some hfound)).2
    have hw' := consume_audited env claims w
    rw [bind_run_ok (consume_run env claims w)]
    rw [consume_run] at hw'
    let w₁ : World := { w with denylist := consumed env claims w.denylist }
    exact IsTrans.trans _ _ _ hw' (completeLogin_audited (w := w₁) haudit hu _)

/-- A row that was found is updated with its event, and the request ends. -/
theorem change_audited (haudit : env.auditUp = true) {f : User → User} {action : String}
    (haction : action ≠ triageAction) {fields : AuditFields} {id : ℕ} {user : User} (hu : w.users.get? id = some user)
    (hf : (f user).tenantId = user.tenantId ∧ (f user).email = user.email)
    (hfields : fields.tenantId = some user.tenantId ∧
      (fields.actorUserId = some id ∨ fields.target = some user.email)) {α : Type} (a : α) :
    Audited w ((Handler.modify (World.updateUser id f) >>= fun _ =>
      recordAuditEvent env action fields >>= fun _ => pure a : Route α) w).2 := by
  rw [modify_bind_run, record_bind_run haudit]
  exact updateUser_recorded env f haction fields hu hf hfields

theorem enrollMfa_audited (haudit : env.auditUp = true) (credentials : Option Token) :
    Keeps Audited (enrollMfa env credentials) := by
  intro w
  refine related_read (requireScope_run _ _ _ _) fun principal _ => related_get (related_expect fun found hfound => ?_)
  exact change_audited haudit (by decide) (userById_eq_some.mp hfound).2 ⟨rfl, rfl⟩ ⟨rfl, .inl rfl⟩ _

theorem confirmMfa_audited (haudit : env.auditUp = true) (credentials : Option Token) (code : String) :
    Keeps Audited (confirmMfa p env credentials code) := by
  intro w
  refine related_read (requireScope_run _ _ _ _) fun principal _ => related_get (related_expect fun found hfound => ?_)
  refine related_ensure fun _ => related_ensure fun _ => ?_
  exact change_audited haudit (by decide) (userById_eq_some.mp hfound).2 ⟨rfl, rfl⟩ ⟨rfl, .inl rfl⟩ _

theorem disableMfa_audited (haudit : env.auditUp = true) (credentials : Option Token) (code : String) :
    Keeps Audited (disableMfa p env credentials code) := by
  intro w
  refine related_read (requireScope_run _ _ _ _) fun principal _ => related_get (related_expect fun found hfound => ?_)
  refine related_ensure fun _ => related_ensure fun _ => related_ensure fun _ => ?_
  exact change_audited haudit (by decide) (userById_eq_some.mp hfound).2 ⟨rfl, rfl⟩ ⟨rfl, .inl rfl⟩ _

theorem logout_audited (token : Token) : Keeps Audited (logout env token) := by
  refine .bind .get fun w => ?_
  split
  · exact .pure _
  · exact .bind (consume_audited _ _) fun _ => .pure _

theorem getMe_audited (credentials : Option Token) : Keeps Audited (getMe env credentials) := by
  refine .bind (requireScope_audited _ _) fun principal => .bind (.ensure _ _) fun _ => ?_
  exact .bind .get fun w => .bind (.expect _ _) fun found => .pure _

theorem requestPasswordReset_audited (email : String) : Keeps Audited (requestPasswordReset p env email) := by
  refine .bind (.expect _ _) fun email => .bind .get fun w => ?_
  split
  · exact .pure _
  · refine .bind ?_ fun _ => .pure _
    refine .bind (createToken_audited _ _ _ _ _ _) fun token => ?_
    exact .bind (deliverEmail_audited _) fun _ => recordAuditEvent_audited (by decide) _

theorem confirmPasswordReset_audited (haudit : env.auditUp = true) (token : Token) (newPassword : String) :
    Keeps Audited (confirmPasswordReset p env token newPassword) := by
  intro w
  refine related_expect fun password _ => ?_
  refine related_read (purposeToken_run _ _ _ _ _) fun claims _ => related_get ?_
  refine related_expect fun found hfound => ?_
  obtain ⟨id, user⟩ := found
  have hu := (userById_eq_some.mp hfound).2
  dsimp only
  rw [modify_bind_run, bind_run_ok (consume_run env claims _), record_bind_run haudit]
  -- the denylist may change between the update and its event
  have haction : (if user.isActive then "password_reset.confirmed" else "invite.accepted") ≠ triageAction := by
    split
    · decide
    · decide
  obtain ⟨es, hes, hactions⟩ := updateUser_recorded env
    (fun u => { u with passwordHash := p.hashPassword env.salt password, isActive := true }) haction
    (userFields id user) hu ⟨rfl, rfl⟩ ⟨rfl, .inl rfl⟩
  exact ⟨es, ⟨hes.log, hes.users, hes.tenants, hes.kept⟩, hactions⟩

theorem inviteUser_audited (haudit : env.auditUp = true) (credentials : Option Token) (tenantId : ℕ)
    (email role : String) :
    Keeps Audited (inviteUser p env credentials tenantId email role) := by
  intro w
  refine related_read (requireScope_run _ _ _ _) fun principal _ => related_expect fun email _ => ?_
  refine related_expect fun role _ => related_ensure fun _ => related_get (related_ensure fun _ => ?_)
  rw [modify_bind_run, record_bind_run haudit]
  have haction : "user.invited" ≠ triageAction := by decide
  have hrow := addUser_recorded env haction
    { tenantId := some tenantId, actorUserId := principal.userId, target := some email,
      detail := some ("role=" ++ role.text) }
    ⟨tenantId, email, p.hashPassword env.salt env.placeholder, role, false, env.now, none, none, false⟩ w
    ⟨rfl, .inr rfl⟩
  refine IsTrans.trans _ _ _ hrow ?_
  refine related_bind (createToken_audited _ _ _ _ _ _ _) fun token w' _ => ?_
  exact related_bind (deliverEmail_audited _ _) fun _ w'' _ => refl w''

theorem listUsers_audited (credentials : Option Token) (tenantId : ℕ) :
    Keeps Audited (listUsers env credentials tenantId) := by
  refine .bind (requireScope_audited _ _) fun principal => .bind (.ensure _ _) fun _ => ?_
  exact .bind .get fun w => .pure _

theorem deactivateUser_audited (haudit : env.auditUp = true) (credentials : Option Token) (tenantId userId : ℕ) :
    Keeps Audited (deactivateUser env credentials tenantId userId) := by
  intro w
  refine related_read (requireScope_run _ _ _ _) fun principal _ => related_ensure fun _ => ?_
  refine related_ensure fun _ => related_get (related_expect fun found hfound => ?_)
  obtain ⟨id, user⟩ := found
  have hu := (userById_eq_some.mp (Option.eq_some_of_filter_eq_some hfound)).2
  have htenant : user.tenantId = tenantId := by
    simpa using (Option.filter_eq_some_iff.mp hfound).2
  exact change_audited haudit (by decide) hu ⟨rfl, rfl⟩ ⟨congrArg some htenant.symm, .inr rfl⟩ _

theorem handle_audited (p : Platform) {env : Env} (haudit : env.auditUp = true) (r : Request) :
    Keeps Audited (handle p env r) := by
  cases r with
  | signup tenantName email password => exact signup_audited haudit tenantName email password
  | login email password => exact login_audited haudit email password
  | verifyMfa mfaToken code => exact verifyMfa_audited haudit mfaToken code
  | enrollMfa credentials => exact enrollMfa_audited haudit credentials
  | confirmMfa credentials code => exact confirmMfa_audited haudit credentials code
  | disableMfa credentials code => exact disableMfa_audited haudit credentials code
  | logout token => exact logout_audited token
  | getMe credentials => exact getMe_audited credentials
  | requestPasswordReset email => exact requestPasswordReset_audited email
  | confirmPasswordReset token newPassword => exact confirmPasswordReset_audited haudit token newPassword
  | inviteUser credentials tenantId email role => exact inviteUser_audited haudit credentials tenantId email role
  | listUsers credentials tenantId => exact listUsers_audited credentials tenantId
  | deactivateUser credentials tenantId userId => exact deactivateUser_audited haudit credentials tenantId userId

end NeuralSoc.Api
