import NeuralSoc.Api.Lemmas.Effects
import NeuralSoc.Base.Runs

/-!
# Active and deactivated users

A deactivated user stays out until a reset token of theirs is redeemed, and a tenant keeps an active
administrator as long as the users who deactivate others are active themselves.
-/

namespace NeuralSoc.Api

open Handler

variable {p : Platform} {env : Env}

/-! ## Definitions -/

def Deactivated (id : ℕ) (w : World) : Prop := ∃ u, w.users.get? id = some u ∧ u.isActive = false

/-- The request logs the user in, completes the login or sets the password. -/
def Enters (p : Platform) (id : ℕ) (w : World) : Request → Prop
  | .login email _ => ∃ e u, validateEmail p email = some e ∧ w.userByEmail e = some (id, u)
  | .verifyMfa (.jwt claims) _ => claims.userId = some id
  | .confirmPasswordReset (.jwt claims) _ => claims.userId = some id
  | _ => False

/-- The request handled next does not succeed for the user. -/
def StaysOut (p : Platform) (id : ℕ) (w : World) (call : Env × Request) : Prop :=
  Enters p id w call.2 → ∃ e, (handle p call.1 call.2 w).1 = .error e

/-- A password reset with a token of the user that can be redeemed. -/
def Reactivates (id : ℕ) (w : World) (call : Env × Request) : Prop :=
  ∃ claims newPassword, call.2 = .confirmPasswordReset (.jwt claims) newPassword ∧
    (validatePassword newPassword).isSome ∧ Redeemable call.1 w "password_reset" claims ∧
    claims.userId = some id

def Request.credentials : Request → Option Token
  | .enrollMfa credentials => credentials
  | .confirmMfa credentials _ => credentials
  | .disableMfa credentials _ => credentials
  | .getMe credentials => credentials
  | .inviteUser credentials _ _ _ => credentials
  | .listUsers credentials _ => credentials
  | .deactivateUser credentials _ _ => credentials
  | _ => none

/-- The request carries the session of an administrator or the service key. -/
def ByManager (w : World) (call : Env × Request) : Prop :=
  ∃ principal, requireScope call.1 "users:manage" call.2.credentials w = (.ok principal, w)

def ActiveAdmin (tenantId : ℕ) (w : World) : Prop :=
  ∃ id u, w.users.get? id = some u ∧ u.tenantId = tenantId ∧ u.role = .admin ∧ u.isActive = true

def DeactivatesWhileActive (w : World) (call : Env × Request) : Prop :=
  ∀ credentials tenantId target principal, call.2 = .deactivateUser credentials tenantId target →
    requireScope call.1 "users:manage" credentials w = (.ok principal, w) →
    ∃ id u, principal.userId = some id ∧ w.users.get? id = some u ∧ u.isActive = true

/-- Every token with scopes is a session token of a row. -/
def SessionsBacked (w : World) : Prop :=
  ∀ claims ∈ w.issued, claims.scopes = [] ∨ ∃ id u, w.users.get? id = some u ∧ Session claims id u

/-! ## Session tokens -/

def Anyhow (_ : ℕ) (_ _ : User) : Prop := True

instance (id : ℕ) : IsPreorder User (Anyhow id) where
  refl _ := trivial
  trans _ _ _ _ _ := trivial

theorem Effect.sessionsBacked {R : ℕ → User → User → Prop} {w w' : World} (h : Effect R w w')
    (hw : SessionsBacked w) : SessionsBacked w' := by
  intro claims hc
  rcases h.issued claims hc with hc | hempty | hsession
  · rcases hw claims hc with hempty | ⟨id, u, hu, huser, htenant, hscopes⟩
    · exact Or.inl hempty
    · obtain ⟨u', hu', htenant', hrole', -⟩ := h.rows id u hu
      exact Or.inr ⟨id, u', hu', huser, by rw [htenant, htenant'], by rw [hscopes, hrole']⟩
  · exact Or.inl hempty
  · exact Or.inr hsession

theorem serve_sessionsBacked {w : World} (h : SessionsBacked w) (call : Env × Request) :
    SessionsBacked (serve p w call) :=
  (handle_effect (R := Anyhow) (fun _ _ _ _ => trivial) w).sessionsBacked h

theorem sessionsBacked_run {w : World} (h : SessionsBacked w) (calls : List (Env × Request)) :
    SessionsBacked (calls.foldl (serve p) w) := by
  induction calls generalizing w with
  | nil => exact h
  | cons call calls ih => exact ih (serve_sessionsBacked h call)

theorem verifyAuth_ok {credentials : Option Token} {principal : Principal} {w w' : World}
    (h : verifyAuth env credentials w = (.ok principal, w')) :
    w' = w ∧ ((credentials = some .apiKey ∧ principal.userId = none ∧ principal.tenantId = none) ∨
      ∃ claims, credentials = some (.jwt claims) ∧ verifyToken env w (.jwt claims) = some claims ∧
        principal = ⟨claims.sub, claims.scopes, claims.tenantId, claims.userId⟩) := by
  obtain ⟨token, w'', htoken, hauth⟩ := bind_eq_ok.mp h
  obtain ⟨rfl, rfl⟩ := expect_eq_ok.mp htoken
  cases token with
  | text s => cases hauth
  | apiKey =>
      cases hauth
      exact ⟨rfl, Or.inl ⟨rfl, rfl, rfl⟩⟩
  | jwt claims =>
      obtain ⟨_, _, hget, hdecode⟩ := bind_eq_ok.mp hauth
      obtain ⟨rfl, rfl⟩ := get_eq_ok.mp hget
      obtain ⟨c, _, hclaims, hrevoked⟩ := bind_eq_ok.mp hdecode
      obtain ⟨hgood, rfl⟩ := expect_eq_ok.mp hclaims
      obtain ⟨rfl, -⟩ := verifyToken_eq_some.mp hgood
      obtain ⟨_, _, hensure, hprincipal⟩ := bind_eq_ok.mp hrevoked
      obtain ⟨-, rfl⟩ := ensure_eq_ok.mp hensure
      obtain ⟨rfl, rfl⟩ := pure_eq_ok.mp hprincipal
      exact ⟨rfl, Or.inr ⟨c, rfl, hgood, rfl⟩⟩

theorem requireScope_ok {scope : String} {credentials : Option Token} {principal : Principal} {w : World}
    (h : requireScope env scope credentials w = (.ok principal, w)) :
    (credentials = some .apiKey ∧ principal.userId = none ∧ principal.tenantId = none) ∨
      ∃ claims, credentials = some (.jwt claims) ∧ claims ∈ w.issued ∧
        principal = ⟨claims.sub, claims.scopes, claims.tenantId, claims.userId⟩ ∧
        (scope ∈ claims.scopes ∨ "*" ∈ claims.scopes) := by
  obtain ⟨principal', w', hverify, hrest⟩ := bind_eq_ok.mp h
  obtain ⟨_, w'', hscope, hpure⟩ := bind_eq_ok.mp hrest
  obtain ⟨rfl, rfl⟩ := pure_eq_ok.mp hpure
  obtain ⟨hheld, rfl⟩ := ensure_eq_ok.mp hscope
  rcases (verifyAuth_ok hverify).2 with hkey | ⟨claims, hcredentials, hgood, rfl⟩
  · exact Or.inl hkey
  · exact Or.inr ⟨claims, hcredentials, (verifyToken_eq_some.mp hgood).2.1, rfl, by simpa using hheld⟩

theorem star_not_mem_roleScopes (role : Role) : "*" ∉ roleScopes role := by
  cases role <;> decide

/-! ## Deactivation -/

theorem deactivateUser_cases (env : Env) (credentials : Option Token) (tenantId target : ℕ) (w : World) :
    (∃ principal u, requireScope env "users:manage" credentials w = (.ok principal, w) ∧
        (principal.tenantId = some tenantId ∨ "*" ∈ principal.scopes) ∧ principal.userId ≠ some target ∧
        w.users.get? target = some u ∧ u.tenantId = tenantId ∧
        (deactivateUser env credentials tenantId target w).1 = .ok .noContent ∧
        ∀ j, (deactivateUser env credentials tenantId target w).2.users.get? j =
          if j = target then some { u with isActive := false } else w.users.get? j) ∨
      ∃ e, deactivateUser env credentials tenantId target w = (.error e, w) := by
  unfold deactivateUser
  obtain ⟨r, hr⟩ := requireScope_run env "users:manage" credentials w
  cases r with
  | error e => exact Or.inr ⟨e, bind_run_error hr _⟩
  | ok principal =>
      rw [bind_run_ok hr, requireOwnTenant, ensure_bind_run]
      split
      · rename_i htenant
        rw [ensure_bind_run]
        split
        · rename_i hself
          rw [get_bind_run, expect_bind_run]
          cases hfound : (userById w (some target)).filter fun e => e.2.tenantId = tenantId with
          | none => exact Or.inr ⟨_, rfl⟩
          | some found =>
              obtain ⟨id, u⟩ := found
              obtain ⟨hid, hu⟩ := userById_eq_some.mp (Option.eq_some_of_filter_eq_some hfound)
              cases hid
              have hown : u.tenantId = tenantId := by
                simpa using (Option.filter_eq_some_iff.mp hfound).2
              refine Or.inl ⟨principal, u, hr, by simpa using htenant, by simpa using hself, hu, hown, rfl, ?_⟩
              intro j
              obtain ⟨audit, hrun⟩ := update_record_run env target (fun u => { u with isActive := false })
                "user.deactivated"
                { tenantId := some tenantId, actorUserId := principal.userId, target := some u.email }
                Response.noContent w
              dsimp only
              rw [hrun]
              change (w.updateUser target _).users.get? j = _
              rw [users_updateUser, hu]
              rfl
        · exact Or.inr ⟨_, rfl⟩
      · exact Or.inr ⟨_, rfl⟩

theorem confirmPasswordReset_cases (p : Platform) (env : Env) (token : Token) (newPassword : String)
    (w : World) :
    (∃ claims id u, token = .jwt claims ∧ (validatePassword newPassword).isSome ∧
        Redeemable env w "password_reset" claims ∧ claims.userId = some id ∧ w.users.get? id = some u ∧
        (confirmPasswordReset p env token newPassword w).1 = .ok .noContent ∧
        ∀ j, (confirmPasswordReset p env token newPassword w).2.users.get? j =
          if j = id then
            some { u with passwordHash := p.hashPassword env.salt newPassword, isActive := true }
          else w.users.get? j) ∨
      (∃ e, confirmPasswordReset p env token newPassword w = (.error e, w)) ∧
        ∀ claims id, token = .jwt claims → (validatePassword newPassword).isSome →
          Redeemable env w "password_reset" claims → claims.userId = some id →
          w.users.get? id = none := by
  unfold confirmPasswordReset
  rw [expect_bind_run]
  cases hpassword : validatePassword newPassword with
  | none => exact Or.inr ⟨⟨_, rfl⟩, nofun⟩
  | some password =>
      cases validatePassword_eq_some hpassword
      dsimp only
      rcases purposeToken_cases env invalidResetToken "password_reset" token w with
        ⟨claims, rfl, hredeemable, hrun⟩ | ⟨hrun, hnot⟩
      · rw [bind_run_ok hrun, get_bind_run, expect_bind_run]
        cases hfound : userById w claims.userId with
        | none =>
            refine Or.inr ⟨⟨_, rfl⟩, ?_⟩
            rintro c id heq - - hid
            cases heq
            rw [hid] at hfound
            exact Option.map_eq_none_iff.mp hfound
        | some found =>
            obtain ⟨id, u⟩ := found
            obtain ⟨hid, hu⟩ := userById_eq_some.mp hfound
            have hconsume := consume_run env claims (w.updateUser id fun u =>
              { u with passwordHash := p.hashPassword env.salt newPassword, isActive := true })
            refine Or.inl ⟨claims, id, u, rfl, rfl, hredeemable, hid, hu, ?_⟩
            dsimp only
            rw [modify_bind_run, bind_run_ok hconsume]
            obtain ⟨audit, hrecord⟩ := recordAuditEvent_run env
              (if u.isActive then "password_reset.confirmed" else "invite.accepted") (userFields id u)
              { w.updateUser id fun u =>
                  { u with passwordHash := p.hashPassword env.salt newPassword, isActive := true } with
                denylist := consumed env claims (w.updateUser id fun u =>
                  { u with passwordHash := p.hashPassword env.salt newPassword, isActive := true }).denylist }
            rw [bind_run_ok hrecord]
            refine ⟨rfl, fun j => ?_⟩
            change (w.updateUser id _).users.get? j = _
            rw [users_updateUser, hu]
            rfl
      · rw [bind_run_error hrun]
        refine Or.inr ⟨⟨_, rfl⟩, ?_⟩
        rintro claims id htoken - hredeemable
        exact absurd hredeemable (hnot claims htoken)

def StaysInactive (id j : ℕ) (u u' : User) : Prop := j = id → u.isActive = false → u'.isActive = false

instance (id j : ℕ) : IsPreorder User (StaysInactive id j) where
  refl _ _ h := h
  trans _ _ _ h h' hj hu := h' hj (h hj hu)

theorem Deactivated.of_effect {id : ℕ} {w w' : World} (h : Effect (StaysInactive id) w w')
    (hw : Deactivated id w) : Deactivated id w' := by
  obtain ⟨u, hu, hoff⟩ := hw
  obtain ⟨u', hu', -, -, hstays⟩ := h.rows id u hu
  exact ⟨u', hu', hstays rfl hoff⟩

theorem deactivated_of_ok {id tenantId : ℕ} {credentials : Option Token} {w : World} {r : Response}
    (h : (handle p env (.deactivateUser credentials tenantId id) w).1 = .ok r) :
    Deactivated id (serve p w (env, .deactivateUser credentials tenantId id)) := by
  rcases deactivateUser_cases env credentials tenantId id w with
    ⟨principal, u, -, -, -, -, -, -, hafter⟩ | ⟨e, herror⟩
  · exact ⟨{ u with isActive := false }, by rw [serve, handle, hafter, if_pos rfl], rfl⟩
  · rw [handle, herror] at h
    cases h

/-- A request reactivates a deactivated user exactly when it redeems a reset token of theirs. -/
theorem deactivated_serve_iff {id : ℕ} {w : World} (hw : Deactivated id w) (call : Env × Request) :
    Deactivated id (serve p w call) ↔ ¬ Reactivates id w call := by
  obtain ⟨env, r⟩ := call
  by_cases hreset : ∃ token newPassword, r = .confirmPasswordReset token newPassword
  · obtain ⟨token, newPassword, rfl⟩ := hreset
    change Deactivated id (confirmPasswordReset p env token newPassword w).2 ↔ _
    rcases confirmPasswordReset_cases p env token newPassword w with
      ⟨claims, j, u, rfl, hpassword, hredeemable, hj, hu, -, hafter⟩ | ⟨⟨e, herror⟩, hno⟩
    · by_cases hid : id = j
      · subst hid
        refine iff_of_false ?_ fun h => h ⟨claims, newPassword, rfl, hpassword, hredeemable, hj⟩
        rintro ⟨u', hu', hoff⟩
        rw [hafter, if_pos rfl] at hu'
        cases hu'
        cases hoff
      · refine iff_of_true ?_ ?_
        · obtain ⟨v, hv, hoff⟩ := hw
          exact ⟨v, by rw [hafter, if_neg hid, hv], hoff⟩
        · rintro ⟨_, _, heq, -, -, hother⟩
          cases heq
          cases hj.symm.trans hother
          exact hid rfl
    · rw [herror]
      refine iff_of_true hw ?_
      rintro ⟨claims, _, heq, hpassword, hredeemable, hclaims⟩
      cases heq
      obtain ⟨v, hv, -⟩ := hw
      cases (hno claims id rfl hpassword hredeemable hclaims).symm.trans hv
  · refine iff_of_true (hw.of_effect (handle_effect ?_ w)) ?_
    · intro j f hf u
      cases hf with
      | reset => exact absurd ⟨_, _, rfl⟩ hreset
      | deactivate => exact fun _ _ => rfl
      | _ => exact fun _ h => h
    · rintro ⟨claims, newPassword, heq, -⟩
      exact hreset ⟨_, _, heq⟩

theorem login_denied {id : ℕ} {w : World} (hw : Deactivated id w) {email e : String} {u : User}
    (hemail : validateEmail p email = some e) (hfound : w.userByEmail e = some (id, u)) (password : String) :
    ∃ e, (login p env email password w).1 = .error e := by
  obtain ⟨v, hv, hoff⟩ := hw
  cases hv.symm.trans (userByEmail_eq_some hfound).1
  have hno : ((w.userByEmail e).filter fun f => f.2.isActive) = none := by
    rw [hfound, Option.filter_some]
    simp [hoff]
  unfold login
  rw [hemail, expect_bind_run]
  dsimp only
  rw [ensure_bind_run]
  split
  · rw [get_bind_run]
    split
    · exact ⟨_, rfl⟩
    · rw [hno]
      exact ⟨_, rfl⟩
  · exact ⟨_, rfl⟩

theorem verifyMfa_denied {id : ℕ} {w : World} (hw : Deactivated id w) {claims : Claims}
    (hclaims : claims.userId = some id) (code : String) :
    ∃ e, (verifyMfa p env (.jwt claims) code w).1 = .error e := by
  obtain ⟨u, hu, hoff⟩ := hw
  have hno : ((userById w (some id)).filter fun e => e.2.isActive) = none := by
    rw [userById_eq_some.mpr ⟨rfl, hu⟩, Option.filter_some]
    simp [hoff]
  unfold verifyMfa
  rw [ensure_bind_run]
  split
  · rcases purposeToken_cases env invalidChallenge "mfa_pending" (.jwt claims) w with
      ⟨c, heq, -, hrun⟩ | ⟨hrun, -⟩
    · cases heq
      rw [bind_run_ok hrun, get_bind_run, hclaims, hno]
      exact ⟨_, rfl⟩
    · rw [bind_run_error hrun]
      exact ⟨_, rfl⟩
  · exact ⟨_, rfl⟩

theorem Deactivated.staysOut {id : ℕ} {w : World} (hw : Deactivated id w) {call : Env × Request}
    (hno : ¬ Reactivates id w call) : StaysOut p id w call := by
  obtain ⟨env, r⟩ := call
  intro henters
  cases r with
  | login email password =>
      obtain ⟨e, u, hemail, hfound⟩ := henters
      exact login_denied hw hemail hfound password
  | verifyMfa token code =>
      cases token with
      | jwt claims => exact verifyMfa_denied hw henters code
      | _ => cases henters
  | confirmPasswordReset token newPassword =>
      cases token with
      | jwt claims =>
          rcases confirmPasswordReset_cases p env (.jwt claims) newPassword w with
            ⟨c, j, u, heq, hpassword, hredeemable, hj, -⟩ | ⟨⟨e, herror⟩, -⟩
          · cases heq
            cases hj.symm.trans henters
            exact absurd ⟨claims, newPassword, rfl, hpassword, hredeemable, hj⟩ hno
          · exact ⟨e, by rw [handle, herror]⟩
      | _ => cases henters
  | _ => cases henters

/-- A deactivated user stays out throughout the runs that redeem no reset token of theirs. -/
theorem deactivated_run_iff {id : ℕ} {w : World} (hw : Deactivated id w) (calls : List (Env × Request)) :
    Always (serve p) (Deactivated id) w calls ∧ Each (serve p) (StaysOut p id) w calls ↔
      Each (serve p) (fun w call => ¬ Reactivates id w call) w calls := by
  have hstep : ∀ w call, True → Deactivated id w → (Deactivated id (serve p w call) ↔ ¬ Reactivates id w call) :=
    fun _ call _ hw => deactivated_serve_iff hw call
  have hiff : Always (serve p) (Deactivated id) w calls ↔
      Each (serve p) (fun w call => ¬ Reactivates id w call) w calls :=
    always_iff_each (I := fun _ => True) (fun _ _ _ => trivial) hstep trivial hw
  constructor
  · exact fun h => hiff.mp h.1
  · intro hno
    have halways := hiff.mpr hno
    exact ⟨halways, halways.each_of_imp hno fun _ _ hw hcall => hw.staysOut hcall⟩

/-! ## Administrators -/

def StaysActive (_ : ℕ) (u u' : User) : Prop := u.isActive = true → u'.isActive = true

instance (id : ℕ) : IsPreorder User (StaysActive id) where
  refl _ h := h
  trans _ _ _ h h' hu := h' (h hu)

theorem ActiveAdmin.of_effect {tenantId : ℕ} {w w' : World} (h : Effect StaysActive w w')
    (hw : ActiveAdmin tenantId w) : ActiveAdmin tenantId w' := by
  obtain ⟨id, u, hu, htenant, hrole, hactive⟩ := hw
  obtain ⟨u', hu', htenant', hrole', hstays⟩ := h.rows id u hu
  exact ⟨id, u', hu', htenant'.trans htenant, hrole'.trans hrole, hstays hactive⟩

theorem manager_of_session {w : World} (hbacked : SessionsBacked w) {credentials : Option Token}
    {principal : Principal} {id : ℕ}
    (h : requireScope env "users:manage" credentials w = (.ok principal, w))
    (hid : principal.userId = some id) :
    ∃ u, w.users.get? id = some u ∧ principal.tenantId = some u.tenantId ∧ u.role = .admin ∧
      "*" ∉ principal.scopes := by
  rcases requireScope_ok h with ⟨-, hnone, -⟩ | ⟨claims, -, hissued, rfl, hscope⟩
  · cases hnone.symm.trans hid
  · rcases hbacked claims hissued with hempty | ⟨j, u, hu, huser, htenant, hscopes⟩
    · rw [hempty] at hscope
      simp at hscope
    · cases huser.symm.trans hid
      have hstar := star_not_mem_roleScopes u.role
      rw [hscopes] at hscope
      refine ⟨u, hu, htenant, ?_, by rwa [hscopes]⟩
      have hmanage := hscope.resolve_right hstar
      cases hrole : u.role with
      | admin => rfl
      | analyst => rw [hrole] at hmanage; revert hmanage; decide
      | lead => rw [hrole] at hmanage; revert hmanage; decide

/-- An active user who deactivates another one of the tenant is an administrator of it and stays. -/
theorem activeAdmin_serve {tenantId : ℕ} {w : World} (hbacked : SessionsBacked w)
    (hw : ActiveAdmin tenantId w) {call : Env × Request} (hcall : DeactivatesWhileActive w call) :
    ActiveAdmin tenantId (serve p w call) := by
  obtain ⟨env, r⟩ := call
  by_cases hdeactivate : ∃ credentials t target, r = .deactivateUser credentials t target
  · obtain ⟨credentials, t, target, rfl⟩ := hdeactivate
    change ActiveAdmin tenantId (deactivateUser env credentials t target w).2
    rcases deactivateUser_cases env credentials t target w with
      ⟨principal, v, hscope, hown, hself, hv, hvtenant, -, hafter⟩ | ⟨e, herror⟩
    · obtain ⟨actor, u, hactor, hu, hactive⟩ := hcall credentials t target principal rfl hscope
      obtain ⟨_, hu', htenant, hrole, hstar⟩ := manager_of_session hbacked hscope hactor
      cases hu.symm.trans hu'
      by_cases ht : t = tenantId
      · subst ht
        have hne : actor ≠ target := by
          rintro rfl
          exact hself hactor
        refine ⟨actor, u, by rw [hafter, if_neg hne, hu], ?_, hrole, hactive⟩
        cases htenant.symm.trans (hown.resolve_right hstar)
        rfl
      · obtain ⟨id, x, hx, hxtenant, hxrole, hxactive⟩ := hw
        have hne : id ≠ target := by
          rintro rfl
          cases hx.symm.trans hv
          exact ht (hvtenant.symm.trans hxtenant)
        exact ⟨id, x, by rw [hafter, if_neg hne, hx], hxtenant, hxrole, hxactive⟩
    · rw [herror]
      exact hw
  · refine hw.of_effect (handle_effect ?_ w)
    intro j f hf u
    cases hf with
    | deactivate => exact absurd ⟨_, _, _, rfl⟩ hdeactivate
    | reset => exact fun _ => rfl
    | _ => exact fun h => h

end NeuralSoc.Api
