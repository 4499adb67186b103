import NeuralSoc.Api.Auth

/-!
# What a request does to the users and the tokens

`Effect R` relates the worlds before and after a request: a row stays, keeps its tenant and its role and
changes by `R`, and a token issued meanwhile has no scopes or is a session token of a row. `RowUpdate` lists
the updates each request makes, and `handle_effect` says that it makes no other.
-/

namespace NeuralSoc.Api

open Handler

variable {p : Platform} {env : Env}

/-! ## Definitions -/

def Session (claims : Claims) (id : ℕ) (u : User) : Prop :=
  claims.userId = some id ∧ claims.tenantId = some u.tenantId ∧ claims.scopes = roleScopes u.role

structure Effect (R : ℕ → User → User → Prop) (w w' : World) : Prop where
  rows : ∀ id u, w.users.get? id = some u → ∃ u', w'.users.get? id = some u' ∧
    u'.tenantId = u.tenantId ∧ u'.role = u.role ∧ R id u u'
  issued : ∀ claims ∈ w'.issued, claims ∈ w.issued ∨ claims.scopes = [] ∨
    ∃ id u, w'.users.get? id = some u ∧ Session claims id u

/-- The token is good for the purpose and not consumed yet. -/
def Redeemable (env : Env) (w : World) (purpose : String) (claims : Claims) : Prop :=
  verifyToken env w (.jwt claims) = some claims ∧ claims.purpose = some purpose ∧
    isTokenRevoked env w claims.jti = false

/-- The updates of a row, by the request that makes them. -/
inductive RowUpdate (p : Platform) (env : Env) : Request → ℕ → (User → User) → Prop
  | login {email password id} :
      RowUpdate p env (.login email password) id fun u => { u with lastLoginAt := some env.now }
  | verify {mfaToken code id} :
      RowUpdate p env (.verifyMfa mfaToken code) id fun u => { u with lastLoginAt := some env.now }
  | enroll {credentials id} :
      RowUpdate p env (.enrollMfa credentials) id fun u => { u with totpSecret := some env.secret }
  | confirm {credentials code id} :
      RowUpdate p env (.confirmMfa credentials code) id fun u => { u with mfaEnabled := true }
  | disable {credentials code id} : RowUpdate p env (.disableMfa credentials code) id fun u =>
      { u with mfaEnabled := false, totpSecret := none }
  | reset {claims newPassword id} (redeemed : claims.userId = some id) :
      RowUpdate p env (.confirmPasswordReset (.jwt claims) newPassword) id fun u =>
        { u with passwordHash := p.hashPassword env.salt newPassword, isActive := true }
  | deactivate {credentials tenantId id} :
      RowUpdate p env (.deactivateUser credentials tenantId id) id fun u => { u with isActive := false }

/-! ## Tables -/

theorem get?_freshId {α : Type} (table : Dict ℕ α) : table.get? (freshId table) = none := by
  have hlt : ∀ (ks : List ℕ), ∀ k ∈ ks, k ≤ ks.foldr max 0 := by
    intro ks
    induction ks with
    | nil => nofun
    | cons k ks ih =>
        intro j hj
        rcases List.mem_cons.mp hj with rfl | hj
        · exact Nat.le_max_left _ _
        · exact Nat.le_trans (ih j hj) (Nat.le_max_right _ _)
  rw [Dict.get?_eq_none]
  intro hmem
  exact Nat.not_succ_le_self _ (hlt _ _ hmem)

theorem users_addUser (u : User) (w : World) (j : ℕ) :
    (w.addUser u).users.get? j = if j = freshId w.users then some u else w.users.get? j := by
  rw [World.addUser, Dict.get?_set]

theorem users_updateUser (id : ℕ) (f : User → User) (w : World) (j : ℕ) :
    (w.updateUser id f).users.get? j =
      if j = id then (w.users.get? id).map f else w.users.get? j := by
  unfold World.updateUser
  cases hu : w.users.get? id with
  | some u =>
      dsimp only
      rw [Dict.get?_set]
      rfl
  | none =>
      dsimp only
      split
      · rename_i hj
        rw [hj, hu]
        rfl
      · rfl

theorem issued_updateUser (id : ℕ) (f : User → User) (w : World) : (w.updateUser id f).issued = w.issued := by
  unfold World.updateUser
  split <;> rfl

theorem userByEmail_eq_some {w : World} {email : String} {id : ℕ} {u : User}
    (h : w.userByEmail email = some (id, u)) : w.users.get? id = some u ∧ u.email = email := by
  refine ⟨Dict.get?_eq_some.mpr (List.mem_of_find?_eq_some h), ?_⟩
  simpa using List.find?_some h

theorem userById_eq_some {w : World} {o : Option ℕ} {id : ℕ} {u : User} :
    userById w o = some (id, u) ↔ o = some id ∧ w.users.get? id = some u := by
  constructor
  · intro h
    obtain ⟨id', rfl, h⟩ := Option.bind_eq_some_iff.mp h
    obtain ⟨u', hu, heq⟩ := Option.map_eq_some_iff.mp h
    cases heq
    exact ⟨rfl, hu⟩
  · rintro ⟨rfl, hu⟩
    simp [userById, hu]

/-- Whether or not the write succeeds, nothing but the log changes. -/
theorem recordAuditEvent_run (env : Env) (action : String) (fields : AuditFields) (w : World) :
    ∃ audit, recordAuditEvent env action fields w = (.ok (), { w with audit }) := by
  unfold recordAuditEvent Handler.modify
  cases env.auditUp with
  | true => exact ⟨_, rfl⟩
  | false => exact ⟨_, rfl⟩

/-- A row is updated and the request ends with an event. -/
theorem update_record_run {α : Type} (env : Env) (id : ℕ) (f : User → User) (action : String)
    (fields : AuditFields) (a : α) (w : World) :
    ∃ audit, (Handler.modify (World.updateUser id f) >>= fun _ =>
      recordAuditEvent env action fields >>= fun _ => pure a : Route α) w =
        (.ok a, { w.updateUser id f with audit }) := by
  obtain ⟨audit, hrun⟩ := recordAuditEvent_run env action fields (w.updateUser id f)
  refine ⟨audit, ?_⟩
  rw [modify_bind_run, bind_run_ok hrun]
  rfl

/-! ## Effects of the parts of a request -/

section Effect

variable {R : ℕ → User → User → Prop} [∀ id, IsPreorder User (R id)]

theorem Effect.trans {a b c : World} (h : Effect R a b) (h' : Effect R b c) : Effect R a c where
  rows id u hu := by
    obtain ⟨v, hv, htenant, hrole, hR⟩ := h.rows id u hu
    obtain ⟨x, hx, htenant', hrole', hR'⟩ := h'.rows id v hv
    exact ⟨x, hx, htenant'.trans htenant, hrole'.trans hrole, IsTrans.trans _ _ _ hR hR'⟩
  issued claims hc := by
    rcases h'.issued claims hc with hc | hempty | hsession
    · rcases h.issued claims hc with hc | hempty | ⟨id, u, hu, huser, htenant, hscopes⟩
      · exact Or.inl hc
      · exact Or.inr (Or.inl hempty)
      · obtain ⟨v, hv, hvtenant, hvrole, -⟩ := h'.rows id u hu
        refine Or.inr (Or.inr ⟨id, v, hv, huser, ?_, ?_⟩)
        · rw [htenant, hvtenant]
        · rw [hscopes, hvrole]
    · exact Or.inr (Or.inl hempty)
    · exact Or.inr (Or.inr hsession)

theorem Effect.of_same {w w' : World} (husers : w'.users = w.users)
    (hissued : ∀ claims ∈ w'.issued, claims ∈ w.issued ∨ claims.scopes = []) : Effect R w w' where
  rows id u hu := ⟨u, by rw [husers]; exact hu, rfl, rfl, refl u⟩
  issued claims hc := by
    rcases hissued claims hc with hc | hempty
    · exact Or.inl hc
    · exact Or.inr (Or.inl hempty)

instance : IsPreorder World (Effect R) where
  refl _ := .of_same rfl fun _ => Or.inl
  trans _ _ _ := Effect.trans

theorem effect_of_same {α : Type} {m : Route α}
    (h : ∀ w, (m w).2.users = w.users ∧ (m w).2.issued = w.issued) : Keeps (Effect R) m := by
  intro w
  refine .of_same (h w).1 fun claims hc => Or.inl ?_
  rwa [(h w).2] at hc

theorem Effect.addUser (u : User) (w : World) : Effect R w (w.addUser u) where
  rows id v hv := by
    refine ⟨v, ?_, rfl, rfl, refl v⟩
    have hne : id ≠ freshId w.users := by
      rintro rfl
      rw [get?_freshId] at hv
      cases hv
    rw [users_addUser, if_neg hne, hv]
  issued claims hc := Or.inl hc

theorem Effect.updateUser {id : ℕ} {f : User → User}
    (hstanding : ∀ u, (f u).tenantId = u.tenantId ∧ (f u).role = u.role) (hf : ∀ u, R id u (f u))
    (w : World) : Effect R w (w.updateUser id f) where
  rows j u hu := by
    rw [users_updateUser]
    split
    · rename_i hj
      subst hj
      exact ⟨f u, by rw [hu]; rfl, (hstanding u).1, (hstanding u).2, hf u⟩
    · exact ⟨u, hu, rfl, rfl, refl u⟩
  issued claims hc := by
    rw [issued_updateUser] at hc
    exact Or.inl hc

theorem recordAuditEvent_effect (action : String) (fields : AuditFields) :
    Keeps (Effect R) (recordAuditEvent env action fields) := by
  refine effect_of_same fun w => ?_
  obtain ⟨audit, hrun⟩ := recordAuditEvent_run env action fields w
  rw [hrun]
  exact ⟨rfl, rfl⟩

theorem deliverEmail_effect (mail : Mail) : Keeps (Effect R) (deliverEmail mail) :=
  effect_of_same fun _ => ⟨rfl, rfl⟩

theorem recordFailedLogin_effect (email : String) : Keeps (Effect R) (recordFailedLogin p env email) := by
  refine effect_of_same fun w => ?_
  change World.users (if _ then _ else _) = _ ∧ World.issued (if _ then _ else _) = _
  split <;> exact ⟨rfl, rfl⟩

theorem clearFailedLogins_effect (email : String) : Keeps (Effect R) (clearFailedLogins p env email) := by
  refine effect_of_same fun w => ?_
  change World.users (if _ then _ else _) = _ ∧ World.issued (if _ then _ else _) = _
  split <;> exact ⟨rfl, rfl⟩

def consumed (env : Env) (claims : Claims) (denylist : List (String × ℚ)) : List (String × ℚ) :=
  if claims.jti ≠ "" && claims.exp ≠ 0 then
    if truncate (claims.exp - env.now) ≤ 0 || !env.redisUp then denylist
    else (claims.jti, env.now + truncate (claims.exp - env.now)) :: denylist.filter fun e => e.1 ≠ claims.jti
  else denylist

theorem consume_run (env : Env) (claims : Claims) (w : World) :
    consume env claims w = (.ok (), { w with denylist := consumed env claims w.denylist }) := by
  unfold consume consumed
  split
  · unfold revokeJti Handler.modify
    dsimp only
    split <;> rfl
  · rfl

theorem consume_effect (claims : Claims) : Keeps (Effect R) (consume env claims) := by
  refine effect_of_same fun w => ?_
  rw [consume_run]
  exact ⟨rfl, rfl⟩

theorem createToken_effect (subject : Option String) (tenantId userId : Option ℕ) (purpose : Option String)
    (expiryMinutes : Option ℕ) :
    Keeps (Effect R) (createToken p env [] subject tenantId userId purpose expiryMinutes) := by
  intro w
  refine .of_same rfl fun claims hc => ?_
  rcases List.mem_append.mp hc with hc | hc
  · exact Or.inl hc
  · rw [List.mem_singleton.mp hc]
    exact Or.inr rfl

theorem issueSessionToken_effect {id : ℕ} {u v : User} {w : World} (hv : w.users.get? id = some v)
    (htenant : v.tenantId = u.tenantId) (hrole : v.role = u.role) :
    Effect R w (issueSessionToken p env id u w).2 where
  rows j x hx := ⟨x, hx, rfl, rfl, refl x⟩
  issued claims hc := by
    rcases List.mem_append.mp hc with hc | hc
    · exact Or.inl hc
    · rw [List.mem_singleton.mp hc]
      exact Or.inr (Or.inr ⟨id, v, hv, rfl, by rw [htenant], by rw [hrole]⟩)

end Effect

/-! ## Authentication reads only -/

theorem requireScope_run (env : Env) (scope : String) (credentials : Option Token) (w : World) :
    ∃ r, requireScope env scope credentials w = (r, w) := by
  have hauth : ∀ token, ∃ r, authenticate env token w = (r, w) := by
    intro token
    cases token with
    | apiKey => exact ⟨_, rfl⟩
    | text t => exact ⟨_, rfl⟩
    | jwt claims =>
        change ∃ r, (get >>= _ : Route Principal) w = (r, w)
        rw [get_bind_run, expect_bind_run]
        cases verifyToken env w (.jwt claims) with
        | none => exact ⟨_, rfl⟩
        | some claims =>
            dsimp only
            rw [ensure_bind_run]
            split <;> exact ⟨_, rfl⟩
  have hverify : ∃ r, verifyAuth env credentials w = (r, w) := by
    cases credentials with
    | none => exact ⟨_, rfl⟩
    | some token => exact hauth token
  obtain ⟨r, hr⟩ := hverify
  unfold requireScope
  cases r with
  | error e => exact ⟨_, bind_run_error hr _⟩
  | ok principal =>
      rw [bind_run_ok hr, ensure_bind_run]
      split <;> exact ⟨_, rfl⟩

theorem verifyToken_eq_some {w : World} {claims c : Claims} :
    verifyToken env w (.jwt claims) = some c ↔
      c = claims ∧ claims ∈ w.issued ∧ env.now < claims.exp := by
  simp only [verifyToken, Option.ite_none_right_eq_some, Option.some.injEq]
  constructor
  · rintro ⟨hgood, rfl⟩
    exact ⟨rfl, hgood⟩
  · rintro ⟨rfl, hgood⟩
    exact ⟨hgood, rfl⟩

/-- A token for one purpose is taken exactly when it can be redeemed. -/
theorem purposeToken_cases (env : Env) (e : HttpError) (purpose : String) (token : Token) (w : World) :
    (∃ claims, token = .jwt claims ∧ Redeemable env w purpose claims ∧
        purposeToken env e purpose token w = (.ok claims, w)) ∨
      purposeToken env e purpose token w = (.error e, w) ∧
        ∀ claims, token = .jwt claims → ¬ Redeemable env w purpose claims := by
  unfold purposeToken
  rw [get_bind_run, expect_bind_run]
  cases token with
  | apiKey => exact Or.inr ⟨rfl, nofun⟩
  | text t => exact Or.inr ⟨rfl, nofun⟩
  | jwt claims =>
      cases hv : verifyToken env w (.jwt claims) with
      | none =>
          refine Or.inr ⟨rfl, ?_⟩
          rintro _ h ⟨hgood, -, -⟩
          cases h
          cases hv.symm.trans hgood
      | some c =>
          obtain ⟨rfl, -⟩ := verifyToken_eq_some.mp hv
          dsimp only
          rw [ensure_bind_run]
          by_cases hpurpose : c.purpose = some purpose
          · rw [if_pos (by simpa using hpurpose), ensure_bind_run]
            cases hrevoked : isTokenRevoked env w c.jti with
            | false => exact Or.inl ⟨c, rfl, ⟨hv, hpurpose, hrevoked⟩, rfl⟩
            | true =>
                refine Or.inr ⟨rfl, ?_⟩
                rintro _ h ⟨-, -, hnot⟩
                cases h
                cases hrevoked.symm.trans hnot
          · rw [if_neg (by simpa using hpurpose)]
            refine Or.inr ⟨rfl, ?_⟩
            rintro _ h ⟨-, hnot, -⟩
            cases h
            exact hpurpose hnot

theorem purposeToken_run (env : Env) (e : HttpError) (purpose : String) (token : Token) (w : World) :
    ∃ r, purposeToken env e purpose token w = (r, w) := by
  rcases purposeToken_cases env e purpose token w with ⟨claims, -, -, h⟩ | ⟨h, -⟩
  · exact ⟨_, h⟩
  · exact ⟨_, h⟩

/-! ## The routes -/

section Routes

variable {R : ℕ → User → User → Prop} [∀ id, IsPreorder User (R id)]

theorem requireScope_effect (scope : String) (credentials : Option Token) :
    Keeps (Effect R) (requireScope env scope credentials) := by
  intro w
  obtain ⟨r, hr⟩ := requireScope_run env scope credentials w
  rw [hr]
  exact refl w

/-- The session token is for a row found before, whose other fields may have changed meanwhile. -/
theorem completeLogin_effect {id : ℕ} {user v : User} {w : World} (hv : w.users.get? id = some v)
    (htenant : v.tenantId = user.tenantId) (hrole : v.role = user.role)
    (hlogin : ∀ u : User, R id u { u with lastLoginAt := some env.now }) (detail : Option String) :
    Effect R w (completeLogin p env id user detail w).2 := by
  have hupdate := Effect.updateUser (f := fun u => { u with lastLoginAt := some env.now })
    (fun _ => ⟨rfl, rfl⟩) hlogin w
  refine related_modify hupdate ?_
  refine related_bind (recordAuditEvent_effect _ _ _) fun _ w' h => ?_
  obtain ⟨x, hx, htenant', hrole', -⟩ := (hupdate.trans h).rows id v hv
  exact related_bind (issueSessionToken_effect hx (htenant'.trans htenant) (hrole'.trans hrole))
    fun _ w'' _ => refl w''

theorem signup_effect (tenantName email password : String) :
    Keeps (Effect R) (signup p env tenantName email password) := by
  intro w
  refine related_expect fun tenantName _ => related_expect fun email _ => ?_
  refine related_expect fun password _ => related_ensure fun _ => related_get ?_
  refine related_ensure fun _ => related_expect fun slug _ => ?_
  refine related_modify (.of_same rfl fun _ => Or.inl) ?_
  refine related_modify (Effect.addUser _ _) ?_
  refine related_bind (recordAuditEvent_effect _ _ _) fun _ w' h => ?_
  obtain ⟨v, hv, htenant, hrole, -⟩ := h.rows (freshId w.users) _ (by
    rw [users_addUser]
    exact if_pos rfl)
  exact related_bind (issueSessionToken_effect hv htenant hrole) fun _ w'' _ => refl w''

theorem failLogin_effect (email : String) (fields : AuditFields) :
    Keeps (Effect R) (failLogin p env email fields) := by
  refine .bind (recordFailedLogin_effect _) fun _ => ?_
  exact .bind (recordAuditEvent_effect _ _) fun _ => .throw _

theorem login_effect (hlogin : ∀ (id : ℕ) (u : User), R id u { u with lastLoginAt := some env.now })
    (email password : String) : Keeps (Effect R) (login p env email password) := by
  intro w
  refine related_expect fun email _ => related_ensure fun _ => related_get ?_
  split
  · exact related_bind (recordAuditEvent_effect _ _ _) fun _ w' _ => refl w'
  cases hfound : (w.userByEmail email).filter fun e => e.2.isActive with
  | none => exact failLogin_effect _ _ w
  | some found =>
      obtain ⟨id, user⟩ := found
      dsimp only
      split
      · exact failLogin_effect _ _ w
      have hu := (userByEmail_eq_some (Option.eq_some_of_filter_eq_some hfound)).1
      refine related_bind (clearFailedLogins_effect _ _) fun _ w' h => ?_
      split
      · refine related_bind (createToken_effect _ _ _ _ _ _) fun _ w'' _ => ?_
        exact related_bind (recordAuditEvent_effect _ _ _) fun _ w''' _ => refl w'''
      · obtain ⟨v, hv, htenant, hrole, -⟩ := h.rows id user hu
        exact completeLogin_effect hv htenant hrole (hlogin id) none

theorem verifyMfa_effect (hlogin : ∀ (id : ℕ) (u : User), R id u { u with lastLoginAt := some env.now })
    (mfaToken : Token) (code : String) : Keeps (Effect R) (verifyMfa p env mfaToken code) := by
  intro w
  refine related_ensure fun _ => ?_
  refine related_read (purposeToken_run _ _ _ _ _) fun claims _ => related_get ?_
  refine related_expect fun found hfound => related_ensure fun _ => ?_
  obtain ⟨id, user⟩ := found
  split
  · exact related_bind (recordAuditEvent_effect _ _ _) fun _ w' _ => refl w'
  · refine related_bind (consume_effect _ _) fun _ w' h => ?_
    have hu := (userById_eq_some.mp (Option.eq_some_of_filter_eq_some hfound)).2
    obtain ⟨v, hv, htenant, hrole, -⟩ := h.rows id user hu
    exact completeLogin_effect hv htenant hrole (hlogin id) _

theorem enrollMfa_effect (hsecret : ∀ (id : ℕ) (u : User), R id u { u with totpSecret := some env.secret })
    (credentials : Option Token) : Keeps (Effect R) (enrollMfa env credentials) := by
  refine .bind (requireScope_effect _ _) fun principal => .bind .get fun w => ?_
  refine .bind (.expect _ _) fun found => ?_
  refine .bind (.modify (Effect.updateUser (fun _ => ⟨rfl, rfl⟩) (hsecret _))) fun _ => ?_
  exact .bind (recordAuditEvent_effect _ _) fun _ => .pure _

theorem confirmMfa_effect (henable : ∀ (id : ℕ) (u : User), R id u { u with mfaEnabled := true })
    (credentials : Option Token) (code : String) : Keeps (Effect R) (confirmMfa p env credentials code) := by
  refine .bind (requireScope_effect _ _) fun principal => .bind .get fun w => ?_
  refine .bind (.expect _ _) fun found => .bind (.ensure _ _) fun _ => .bind (.ensure _ _) fun _ => ?_
  refine .bind (.modify (Effect.updateUser (fun _ => ⟨rfl, rfl⟩) (henable _))) fun _ => ?_
  exact .bind (recordAuditEvent_effect _ _) fun _ => .pure _

theorem disableMfa_effect
    (hdisable : ∀ (id : ℕ) (u : User), R id u { u with mfaEnabled := false, totpSecret := none })
    (credentials : Option Token) (code : String) : Keeps (Effect R) (disableMfa p env credentials code) := by
  refine .bind (requireScope_effect _ _) fun principal => .bind .get fun w => ?_
  refine .bind (.expect _ _) fun found => .bind (.ensure _ _) fun _ => .bind (.ensure _ _) fun _ => ?_
  refine .bind (.ensure _ _) fun _ => ?_
  refine .bind (.modify (Effect.updateUser (fun _ => ⟨rfl, rfl⟩) (hdisable _))) fun _ => ?_
  exact .bind (recordAuditEvent_effect _ _) fun _ => .pure _

theorem logout_effect (token : Token) : Keeps (Effect R) (logout env token) := by
  refine .bind .get fun w => ?_
  split
  · exact .pure _
  · exact .bind (consume_effect _) fun _ => .pure _

theorem getMe_effect (credentials : Option Token) : Keeps (Effect R) (getMe env credentials) := by
  refine .bind (requireScope_effect _ _) fun principal => .bind (.ensure _ _) fun _ => ?_
  exact .bind .get fun w => .bind (.expect _ _) fun found => .pure _

theorem requestPasswordReset_effect (email : String) :
    Keeps (Effect R) (requestPasswordReset p env email) := by
  refine .bind (.expect _ _) fun email => .bind .get fun w => ?_
  split
  · exact .pure _
  · refine .bind ?_ fun _ => .pure _
    refine .bind (createToken_effect _ _ _ _ _) fun token => ?_
    exact .bind (deliverEmail_effect _) fun _ => recordAuditEvent_effect _ _

theorem validatePassword_eq_some {value password : String} (h : validatePassword value = some password) :
    value = password := by
  unfold validatePassword at h
  split at h
  · cases h
  · exact Option.some.inj h

theorem confirmPasswordReset_effect {token : Token} {newPassword : String}
    (hreset : ∀ claims id, token = .jwt claims → claims.userId = some id → ∀ u : User,
      R id u { u with passwordHash := p.hashPassword env.salt newPassword, isActive := true }) :
    Keeps (Effect R) (confirmPasswordReset p env token newPassword) := by
  intro w
  refine related_expect fun password hpassword => ?_
  refine related_read (purposeToken_run _ _ _ _ _) fun claims hclaims => related_get ?_
  refine related_expect fun found hfound => ?_
  obtain ⟨id, user⟩ := found
  have htoken : token = .jwt claims := by
    rcases purposeToken_cases env invalidResetToken "password_reset" token w with
      ⟨c, rfl, -, hrun⟩ | ⟨hrun, -⟩
    · cases hrun.symm.trans hclaims
      rfl
    · cases hrun.symm.trans hclaims
  obtain ⟨hid, -⟩ := userById_eq_some.mp hfound
  refine related_modify (Effect.updateUser ?_ ?_ _) ?_
  · exact fun _ => ⟨rfl, rfl⟩
  · rw [← validatePassword_eq_some hpassword]
    exact hreset claims id htoken hid
  · refine related_bind (consume_effect _ _) fun _ w' _ => ?_
    exact related_bind (recordAuditEvent_effect _ _ _) fun _ w'' _ => refl w''

theorem inviteUser_effect (credentials : Option Token) (tenantId : ℕ) (email role : String) :
    Keeps (Effect R) (inviteUser p env credentials tenantId email role) := by
  refine .bind (requireScope_effect _ _) fun principal => .bind (.expect _ _) fun email => ?_
  refine .bind (.expect _ _) fun role => .bind (.ensure _ _) fun _ => .bind .get fun w => ?_
  refine .bind (.ensure _ _) fun _ => .bind (.modify (Effect.addUser _)) fun _ => ?_
  refine .bind (recordAuditEvent_effect _ _) fun _ => ?_
  refine .bind (createToken_effect _ _ _ _ _) fun token => ?_
  exact .bind (deliverEmail_effect _) fun _ => .pure _

theorem listUsers_effect (credentials : Option Token) (tenantId : ℕ) :
    Keeps (Effect R) (listUsers env credentials tenantId) := by
  refine .bind (requireScope_effect _ _) fun principal => .bind (.ensure _ _) fun _ => ?_
  exact .bind .get fun w => .pure _

theorem deactivateUser_effect {userId : ℕ} (hdeactivate : ∀ u : User, R userId u { u with isActive := false })
    (credentials : Option Token) (tenantId : ℕ) :
    Keeps (Effect R) (deactivateUser env credentials tenantId userId) := by
  intro w
  refine related_read (requireScope_run _ _ _ _) fun principal _ => related_ensure fun _ => ?_
  refine related_ensure fun _ => related_get (related_expect fun found hfound => ?_)
  obtain ⟨id, user⟩ := found
  obtain ⟨hid, -⟩ := userById_eq_some.mp (Option.eq_some_of_filter_eq_some hfound)
  cases hid
  refine related_modify (Effect.updateUser ?_ hdeactivate _) ?_
  · exact fun _ => ⟨rfl, rfl⟩
  · exact related_bind (recordAuditEvent_effect _ _ _) fun _ w' _ => refl w'

theorem handle_effect {r : Request} (h : ∀ id f, RowUpdate p env r id f → ∀ u, R id u (f u)) :
    Keeps (Effect R) (handle p env r) := by
  cases r with
  | signup tenantName email password => exact signup_effect tenantName email password
  | login email password => exact login_effect (fun id => h id _ .login) email password
  | verifyMfa mfaToken code => exact verifyMfa_effect (fun id => h id _ .verify) mfaToken code
  | enrollMfa credentials => exact enrollMfa_effect (fun id => h id _ .enroll) credentials
  | confirmMfa credentials code => exact confirmMfa_effect (fun id => h id _ .confirm) credentials code
  | disableMfa credentials code => exact disableMfa_effect (fun id => h id _ .disable) credentials code
  | logout token => exact logout_effect token
  | getMe credentials => exact getMe_effect credentials
  | requestPasswordReset email => exact requestPasswordReset_effect email
  | confirmPasswordReset token newPassword =>
      refine confirmPasswordReset_effect ?_
      rintro claims id rfl hid
      exact h id _ (.reset hid)
  | inviteUser credentials tenantId email role => exact inviteUser_effect credentials tenantId email role
  | listUsers credentials tenantId => exact listUsers_effect credentials tenantId
  | deactivateUser credentials tenantId userId =>
      exact deactivateUser_effect (h userId _ .deactivate) credentials tenantId

end Routes

end NeuralSoc.Api
