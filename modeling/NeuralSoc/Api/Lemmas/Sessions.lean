import NeuralSoc.Api.Lemmas.Accounts
import Mathlib.Data.List.Induction

/-!
# Who is issued a token

`Warrant` lists what entitles a request to the tokens it issues. A link or a challenge has a purpose and no
scopes; the token of a session needs a signup, a password or a second factor.
-/

namespace NeuralSoc.Api

open Handler

variable {p : Platform} {env : Env}

/-! ## Definitions -/

def SignsUp (p : Platform) (w : World) (call : Env × Request) (id : ℕ) : Prop :=
  (∃ tenantName email password, call.2 = .signup tenantName email password) ∧
    w.users.get? id = none ∧ ∃ u, (serve p w call).users.get? id = some u

def LogsIn (p : Platform) (w : World) (call : Env × Request) (id : ℕ) (u : User) : Prop :=
  ∃ email password e, call.2 = .login email password ∧ validateEmail p email = some e ∧
    w.userByEmail e = some (id, u) ∧ u.isActive = true ∧ p.verifyPassword u.passwordHash password = true

/-- A right code for the challenge of an active user with MFA enabled. -/
def PassesChallenge (p : Platform) (w : World) (call : Env × Request) (id : ℕ) (challenge : Claims) : Prop :=
  ∃ code u secret, call.2 = .verifyMfa (.jwt challenge) code ∧
    Redeemable call.1 w "mfa_pending" challenge ∧ challenge.userId = some id ∧
    w.users.get? id = some u ∧ u.isActive = true ∧ u.mfaEnabled = true ∧
    u.totpSecret = some secret ∧ p.totpVerify secret code = true

inductive Warrant (p : Platform) (w : World) (call : Env × Request) (claims : Claims) : Prop
  | link (scopes : claims.scopes = []) (purpose : claims.purpose = some "password_reset")
  | challenge {id u} (scopes : claims.scopes = []) (purpose : claims.purpose = some "mfa_pending")
      (user : claims.userId = some id) (login : LogsIn p w call id u)
  | signup {id} (purpose : claims.purpose = none) (user : claims.userId = some id)
      (created : SignsUp p w call id)
  | login {id u} (purpose : claims.purpose = none) (user : claims.userId = some id)
      (login : LogsIn p w call id u) (single : u.mfaEnabled = false)
  | verify {id challenge} (purpose : claims.purpose = none) (user : claims.userId = some id)
      (passed : PassesChallenge p w call id challenge)

def Issues (Q : Claims → Prop) (w w' : World) : Prop :=
  ∃ added, w'.issued = w.issued ++ added ∧ ∀ claims ∈ added, Q claims

def Quiet (w w' : World) : Prop := w'.issued = w.issued

/-! ## Parts that issue nothing -/

instance : IsPreorder World Quiet where
  refl _ := rfl
  trans _ _ _ h h' := h'.trans h

instance (Q : Claims → Prop) : IsPreorder World (Issues Q) where
  refl w := ⟨[], (List.append_nil _).symm, by simp⟩
  trans _ _ _ h h' := by
    obtain ⟨added, hadded, hQ⟩ := h
    obtain ⟨added', hadded', hQ'⟩ := h'
    refine ⟨added ++ added', by rw [hadded', hadded, List.append_assoc], ?_⟩
    intro claims hc
    rcases List.mem_append.mp hc with hc | hc
    · exact hQ claims hc
    · exact hQ' claims hc

theorem Quiet.issues {Q : Claims → Prop} {w w' : World} (h : Quiet w w') : Issues Q w w' :=
  ⟨[], by rw [h, List.append_nil], by simp⟩

theorem recordAuditEvent_quiet (action : String) (fields : AuditFields) :
    Keeps Quiet (recordAuditEvent env action fields) := by
  intro w
  obtain ⟨audit, hrun⟩ := recordAuditEvent_run env action fields w
  rw [hrun]
  rfl

theorem deliverEmail_quiet (mail : Mail) : Keeps Quiet (deliverEmail mail) := fun _ => rfl

theorem recordFailedLogin_quiet (email : String) : Keeps Quiet (recordFailedLogin p env email) := by
  intro w
  change World.issued (if _ then _ else _) = _
  split <;> rfl

theorem clearFailedLogins_quiet (email : String) : Keeps Quiet (clearFailedLogins p env email) := by
  intro w
  change World.issued (if _ then _ else _) = _
  split <;> rfl

theorem consume_quiet (claims : Claims) : Keeps Quiet (consume env claims) := by
  intro w
  rw [consume_run]
  rfl

theorem updateUser_quiet (id : ℕ) (f : User → User) :
    Keeps Quiet (modify (World.updateUser id f) : Route Unit) := .modify (issued_updateUser id f)

theorem requireScope_quiet (scope : String) (credentials : Option Token) :
    Keeps Quiet (requireScope env scope credentials) := by
  intro w
  obtain ⟨r, hr⟩ := requireScope_run env scope credentials w
  rw [hr]
  rfl

theorem purposeToken_quiet (e : HttpError) (purpose : String) (token : Token) :
    Keeps Quiet (purposeToken env e purpose token) := by
  intro w
  obtain ⟨r, hr⟩ := purposeToken_run env e purpose token w
  rw [hr]
  rfl

/-! ## Routes that issue nothing -/

theorem enrollMfa_quiet (credentials : Option Token) : Keeps Quiet (enrollMfa env credentials) := by
  refine .bind (requireScope_quiet _ _) fun principal => .bind .get fun w => ?_
  refine .bind (.expect _ _) fun found => .bind (updateUser_quiet _ _) fun _ => ?_
  exact .bind (recordAuditEvent_quiet _ _) fun _ => .pure _

theorem confirmMfa_quiet (credentials : Option Token) (code : String) :
    Keeps Quiet (confirmMfa p env credentials code) := by
  refine .bind (requireScope_quiet _ _) fun principal => .bind .get fun w => ?_
  refine .bind (.expect _ _) fun found => .bind (.ensure _ _) fun _ => .bind (.ensure _ _) fun _ => ?_
  exact .bind (updateUser_quiet _ _) fun _ => .bind (recordAuditEvent_quiet _ _) fun _ => .pure _

theorem disableMfa_quiet (credentials : Option Token) (code : String) :
    Keeps Quiet (disableMfa p env credentials code) := by
  refine .bind (requireScope_quiet _ _) fun principal => .bind .get fun w => ?_
  refine .bind (.expect _ _) fun found => .bind (.ensure _ _) fun _ => .bind (.ensure _ _) fun _ => ?_
  refine .bind (.ensure _ _) fun _ => .bind (updateUser_quiet _ _) fun _ => ?_
  exact .bind (recordAuditEvent_quiet _ _) fun _ => .pure _

theorem logout_quiet (token : Token) : Keeps Quiet (logout env token) := by
  refine .bind .get fun w => ?_
  split
  · exact .pure _
  · exact .bind (consume_quiet _) fun _ => .pure _

theorem getMe_quiet (credentials : Option Token) : Keeps Quiet (getMe env credentials) := by
  refine .bind (requireScope_quiet _ _) fun principal => .bind (.ensure _ _) fun _ => ?_
  exact .bind .get fun w => .bind (.expect _ _) fun found => .pure _

theorem confirmPasswordReset_quiet (token : Token) (newPassword : String) :
    Keeps Quiet (confirmPasswordReset p env token newPassword) := by
  refine .bind (.expect _ _) fun password => .bind (purposeToken_quiet _ _ _) fun claims => ?_
  refine .bind .get fun w => .bind (.expect _ _) fun found => .bind (updateUser_quiet _ _) fun _ => ?_
  exact .bind (consume_quiet _) fun _ => .bind (recordAuditEvent_quiet _ _) fun _ => .pure _

theorem listUsers_quiet (credentials : Option Token) (tenantId : ℕ) :
    Keeps Quiet (listUsers env credentials tenantId) := by
  refine .bind (requireScope_quiet _ _) fun principal => .bind (.ensure _ _) fun _ => ?_
  exact .bind .get fun w => .pure _

theorem deactivateUser_quiet (credentials : Option Token) (tenantId userId : ℕ) :
    Keeps Quiet (deactivateUser env credentials tenantId userId) := by
  refine .bind (requireScope_quiet _ _) fun principal => .bind (.ensure _ _) fun _ => ?_
  refine .bind (.ensure _ _) fun _ => .bind .get fun w => .bind (.expect _ _) fun found => ?_
  exact .bind (updateUser_quiet _ _) fun _ => .bind (recordAuditEvent_quiet _ _) fun _ => .pure _

/-! ## Routes that issue a token -/

section Issues

variable {Q : Claims → Prop}

theorem Keeps.issues {α : Type} {m : Route α} (h : Keeps Quiet m) : Keeps (Issues Q) m :=
  h.mono Quiet.issues

theorem createToken_issues {scopes : List String} {subject : Option String} {tenantId userId : Option ℕ}
    {purpose : Option String} {expiryMinutes : Option ℕ}
    (hQ : ∀ claims : Claims, claims.scopes = scopes → claims.userId = userId → claims.purpose = purpose →
      Q claims) :
    Keeps (Issues Q) (createToken p env scopes subject tenantId userId purpose expiryMinutes) := by
  intro w
  refine ⟨_, rfl, fun claims hc => ?_⟩
  rw [List.mem_singleton.mp hc]
  exact hQ _ rfl rfl rfl

theorem completeLogin_issues {id : ℕ} {user : User} {detail : Option String}
    (hQ : ∀ claims : Claims, claims.userId = some id → claims.purpose = none → Q claims) :
    Keeps (Issues Q) (completeLogin p env id user detail) := by
  refine .bind (Keeps.issues (updateUser_quiet _ _)) fun _ => ?_
  refine .bind (Keeps.issues (recordAuditEvent_quiet _ _)) fun _ => ?_
  exact .bind (createToken_issues fun claims _ => hQ claims) fun _ => .pure _

/-- A signup adds one user and issues one token of theirs, or fails and changes nothing. -/
theorem signup_cases (p : Platform) (env : Env) (tenantName email password : String) (w : World) :
    (signup p env tenantName email password w).2 = w ∨
      ∃ u claims, claims.userId = some (freshId w.users) ∧ claims.purpose = none ∧
        (signup p env tenantName email password w).2.users = w.users.set (freshId w.users) u ∧
        (signup p env tenantName email password w).2.issued = w.issued ++ [claims] := by
  unfold signup
  rw [expect_bind_run]
  cases validateTenantName tenantName with
  | none => exact Or.inl rfl
  | some tenantName =>
      dsimp only
      rw [expect_bind_run]
      cases validateEmail p email with
      | none => exact Or.inl rfl
      | some email =>
          dsimp only
          rw [expect_bind_run]
          cases validatePassword password with
          | none => exact Or.inl rfl
          | some password =>
              dsimp only
              rw [ensure_bind_run]
              split
              · rw [get_bind_run, ensure_bind_run]
                split
                · rw [expect_bind_run]
                  cases uniqueTenantSlug p env w tenantName with
                  | none => exact Or.inl rfl
                  | some slug =>
                      obtain ⟨audit, hrun⟩ := recordAuditEvent_run env "signup"
                        { tenantId := some (freshId w.tenants), actorUserId := some (freshId w.users),
                          actorLabel := some email, target := some slug }
                        ((w.addTenant ⟨tenantName, slug⟩).addUser ⟨freshId w.tenants, email,
                          p.hashPassword env.salt password, .admin, true, env.now, none, none, false⟩)
                      dsimp only
                      rw [modify_bind_run, modify_bind_run, bind_run_ok hrun]
                      exact Or.inr ⟨_, _, rfl, rfl, rfl, rfl⟩
                · exact Or.inl rfl
              · exact Or.inl rfl

theorem signup_issues (tenantName email password : String) (w : World) :
    Issues (Warrant p w (env, .signup tenantName email password)) w
      (signup p env tenantName email password w).2 := by
  rcases signup_cases p env tenantName email password w with hsame | ⟨u, claims, hid, hpurpose, hu, hissued⟩
  · rw [hsame]
    exact refl w
  · have hcreates : SignsUp p w (env, .signup tenantName email password) (freshId w.users) :=
      ⟨⟨_, _, _, rfl⟩, get?_freshId _, u, by rw [serve, handle, hu, Dict.get?_set, if_pos rfl]⟩
    refine ⟨[claims], hissued, fun c hc => ?_⟩
    rw [List.mem_singleton.mp hc]
    exact .signup hpurpose hid hcreates

theorem login_issues (email password : String) (w : World) :
    Issues (Warrant p w (env, .login email password)) w (login p env email password w).2 := by
  refine related_expect fun e he => related_ensure fun _ => related_get ?_
  split
  · exact related_bind (Keeps.issues (recordAuditEvent_quiet _ _) _) fun _ w' _ => refl w'
  have hfail : ∀ fields, Issues (Warrant p w (env, .login email password)) w (failLogin p env e fields w).2 := by
    intro fields
    refine Keeps.bind (Keeps.issues (recordFailedLogin_quiet _)) (fun _ => ?_) w
    exact .bind (Keeps.issues (recordAuditEvent_quiet _ _)) fun _ => .throw _
  cases hfound : (w.userByEmail e).filter fun e => e.2.isActive with
  | none => exact hfail _
  | some found =>
      obtain ⟨id, user⟩ := found
      obtain ⟨hemail, hactive⟩ := Option.filter_eq_some_iff.mp hfound
      dsimp only
      split
      · exact hfail _
      rename_i hpassword
      have hlogin : LogsIn p w (env, .login email password) id user :=
        ⟨email, password, e, rfl, he, hemail, hactive, by simpa using hpassword⟩
      refine related_bind (Keeps.issues (clearFailedLogins_quiet _) w) fun _ w' _ => ?_
      split
      · refine Keeps.bind (createToken_issues ?_) (fun _ => ?_) w'
        · exact fun claims hscopes huser hpurpose => .challenge hscopes hpurpose huser hlogin
        · exact .bind (Keeps.issues (recordAuditEvent_quiet _ _)) fun _ => .pure _
      · rename_i hmfa
        refine completeLogin_issues (fun claims huser hpurpose => ?_) w'
        exact .login hpurpose huser hlogin (by simpa using hmfa)

theorem verifyMfa_issues (mfaToken : Token) (code : String) (w : World) :
    Issues (Warrant p w (env, .verifyMfa mfaToken code)) w (verifyMfa p env mfaToken code w).2 := by
  refine related_ensure fun _ => ?_
  rcases purposeToken_cases env invalidChallenge "mfa_pending" mfaToken w with
    ⟨challenge, rfl, hredeemable, hrun⟩ | ⟨hrun, -⟩
  · rw [bind_run_ok hrun]
    refine related_get (related_expect fun found hfound => related_ensure fun henabled => ?_)
    obtain ⟨id, user⟩ := found
    obtain ⟨hrow, hactive⟩ := Option.filter_eq_some_iff.mp hfound
    obtain ⟨huser, hget⟩ := userById_eq_some.mp hrow
    split
    · exact related_bind (Keeps.issues (recordAuditEvent_quiet _ _) _) fun _ w' _ => refl w'
    · rename_i hcode
      have hpasses : PassesChallenge p w (env, .verifyMfa (.jwt challenge) code) id challenge := by
        cases hsecret : user.totpSecret with
        | none => simp [codeMatches, hsecret] at hcode
        | some secret =>
            refine ⟨code, user, secret, rfl, hredeemable, huser, hget, hactive, ?_, hsecret, ?_⟩
            · exact (Bool.and_eq_true_iff.mp henabled).1
            · simpa [codeMatches, hsecret] using hcode
      refine related_bind (Keeps.issues (consume_quiet _) w) fun _ w' _ => ?_
      exact completeLogin_issues (fun claims hid hpurpose => .verify hpurpose hid hpasses) w'
  · rw [bind_run_error hrun]
    exact refl w

theorem requestPasswordReset_issues (email : String) (w : World) :
    Issues (Warrant p w (env, .requestPasswordReset email)) w (requestPasswordReset p env email w).2 := by
  refine Keeps.bind (.expect _ _) (fun e => .bind .get fun w' => ?_) w
  split
  · exact .pure _
  · refine .bind ?_ fun _ => .pure _
    refine .bind (createToken_issues ?_) fun token => ?_
    · exact fun claims hscopes _ hpurpose => .link hscopes hpurpose
    · exact .bind (Keeps.issues (deliverEmail_quiet _)) fun _ => Keeps.issues (recordAuditEvent_quiet _ _)

theorem inviteUser_issues (credentials : Option Token) (tenantId : ℕ) (email role : String) (w : World) :
    Issues (Warrant p w (env, .inviteUser credentials tenantId email role)) w
      (inviteUser p env credentials tenantId email role w).2 := by
  refine Keeps.bind (Keeps.issues (requireScope_quiet _ _)) (fun principal => ?_) w
  refine .bind (.expect _ _) fun email => .bind (.expect _ _) fun role => .bind (.ensure _ _) fun _ => ?_
  refine .bind .get fun w' => .bind (.ensure _ _) fun _ => ?_
  refine .bind (Keeps.issues (.modify fun _ => rfl)) fun _ => ?_
  refine .bind (Keeps.issues (recordAuditEvent_quiet _ _)) fun _ => ?_
  refine .bind (createToken_issues ?_) fun token => ?_
  · exact fun claims hscopes _ hpurpose => .link hscopes hpurpose
  · exact .bind (Keeps.issues (deliverEmail_quiet _)) fun _ => .pure _

end Issues

theorem serve_issues (w : World) (call : Env × Request) : Issues (Warrant p w call) w (serve p w call) := by
  obtain ⟨env, r⟩ := call
  cases r with
  | signup tenantName email password => exact signup_issues tenantName email password w
  | login email password => exact login_issues email password w
  | verifyMfa mfaToken code => exact verifyMfa_issues mfaToken code w
  | enrollMfa credentials => exact Quiet.issues (enrollMfa_quiet credentials w)
  | confirmMfa credentials code => exact Quiet.issues (confirmMfa_quiet credentials code w)
  | disableMfa credentials code => exact Quiet.issues (disableMfa_quiet credentials code w)
  | logout token => exact Quiet.issues (logout_quiet token w)
  | getMe credentials => exact Quiet.issues (getMe_quiet credentials w)
  | requestPasswordReset email => exact requestPasswordReset_issues email w
  | confirmPasswordReset token newPassword =>
      exact Quiet.issues (confirmPasswordReset_quiet token newPassword w)
  | inviteUser credentials tenantId email role => exact inviteUser_issues credentials tenantId email role w
  | listUsers credentials tenantId => exact Quiet.issues (listUsers_quiet credentials tenantId w)
  | deactivateUser credentials tenantId userId =>
      exact Quiet.issues (deactivateUser_quiet credentials tenantId userId w)

/-! ## Runs -/

def IssuedAt (p : Platform) (w : World) (call : Env × Request) (claims : Claims) : Prop :=
  ∃ added, (serve p w call).issued = w.issued ++ added ∧ claims ∈ added

theorem IssuedAt.warrant {w : World} {call : Env × Request} {claims : Claims}
    (h : IssuedAt p w call claims) : Warrant p w call claims := by
  obtain ⟨added, hadded, hc⟩ := h
  obtain ⟨added', hadded', hwarrant⟩ := serve_issues (p := p) w call
  cases List.append_cancel_left (hadded.symm.trans hadded')
  exact hwarrant claims hc

theorem issued_run {w : World} {calls : List (Env × Request)} {claims : Claims}
    (h : claims ∈ (calls.foldl (serve p) w).issued) : claims ∈ w.issued ∨
      ∃ pre call post, calls = pre ++ call :: post ∧ IssuedAt p (pre.foldl (serve p) w) call claims := by
  induction calls using List.reverseRecOn with
  | nil => exact Or.inl h
  | append_singleton calls call ih =>
      obtain ⟨added, hadded, -⟩ := serve_issues (p := p) (calls.foldl (serve p) w) call
      rw [List.foldl_append, List.foldl_cons, List.foldl_nil, hadded] at h
      rcases List.mem_append.mp h with h | h
      · rcases ih h with h | ⟨pre, call', post, rfl, hissued⟩
        · exact Or.inl h
        · exact Or.inr ⟨pre, call', post ++ [call], by simp, hissued⟩
      · exact Or.inr ⟨calls, call, [], rfl, added, hadded, h⟩

theorem scopes_of_purpose {w : World} (hw : w.issued = []) {calls : List (Env × Request)} {claims : Claims}
    (h : claims ∈ (calls.foldl (serve p) w).issued) {purpose : String}
    (hpurpose : claims.purpose = some purpose) : claims.scopes = [] := by
  rcases issued_run h with h | ⟨pre, call, post, -, hissued⟩
  · rw [hw] at h
    cases h
  · cases hissued.warrant with
    | link hscopes _ => exact hscopes
    | challenge hscopes _ _ _ => exact hscopes
    | signup hnone _ _ => cases hnone.symm.trans hpurpose
    | login hnone _ _ _ => cases hnone.symm.trans hpurpose
    | verify hnone _ _ => cases hnone.symm.trans hpurpose

/-- Whom a challenge was issued to has given the password before. -/
theorem challenge_run {w : World} (hw : w.issued = []) {calls : List (Env × Request)} {claims : Claims}
    (h : claims ∈ (calls.foldl (serve p) w).issued) (hpurpose : claims.purpose = some "mfa_pending") :
    ∃ pre call post id u, calls = pre ++ call :: post ∧ IssuedAt p (pre.foldl (serve p) w) call claims ∧
      claims.userId = some id ∧ LogsIn p (pre.foldl (serve p) w) call id u := by
  rcases issued_run h with h | ⟨pre, call, post, hsplit, hissued⟩
  · rw [hw] at h
    cases h
  · cases hissued.warrant with
    | link _ hother => exact absurd (hother.symm.trans hpurpose) (by decide)
    | challenge _ _ huser hlogin => exact ⟨pre, call, post, _, _, hsplit, hissued, huser, hlogin⟩
    | signup hnone _ _ => cases hnone.symm.trans hpurpose
    | login hnone _ _ _ => cases hnone.symm.trans hpurpose
    | verify hnone _ _ => cases hnone.symm.trans hpurpose

/-- The user has been created by the request, or has just given the password and needs no more, or has given
a code for a challenge after the password. -/
def FullyAuthenticated (p : Platform) (w : World) (pre : List (Env × Request)) (call : Env × Request)
    (id : ℕ) : Prop :=
  SignsUp p (pre.foldl (serve p) w) call id ∨
    (∃ u, LogsIn p (pre.foldl (serve p) w) call id u ∧ u.mfaEnabled = false) ∨
    ∃ challenge, PassesChallenge p (pre.foldl (serve p) w) call id challenge ∧
      ∃ earlier login later u, pre = earlier ++ login :: later ∧
        IssuedAt p (earlier.foldl (serve p) w) login challenge ∧
        LogsIn p (earlier.foldl (serve p) w) login id u

theorem fullyAuthenticated_of_issuedAt {w : World} (hw : w.issued = []) {pre : List (Env × Request)}
    {call : Env × Request} {claims : Claims} (h : IssuedAt p (pre.foldl (serve p) w) call claims)
    (hscopes : claims.scopes ≠ []) :
    ∃ id, claims.userId = some id ∧ FullyAuthenticated p w pre call id := by
  cases h.warrant with
  | link hnone _ => exact absurd hnone hscopes
  | challenge hnone _ _ _ => exact absurd hnone hscopes
  | signup _ huser hcreated => exact ⟨_, huser, Or.inl hcreated⟩
  | login _ huser hlogin hsingle => exact ⟨_, huser, Or.inr (Or.inl ⟨_, hlogin, hsingle⟩)⟩
  | @verify id challenge _ huser hpassed =>
      refine ⟨id, huser, Or.inr (Or.inr ⟨challenge, hpassed, ?_⟩)⟩
      obtain ⟨code, u, secret, -, ⟨hgood, hpurpose, -⟩, hid, -⟩ := hpassed
      obtain ⟨-, hissued, -⟩ := verifyToken_eq_some.mp hgood
      obtain ⟨earlier, login, later, id', v, hsplit, hissuedAt, hid', hlogin⟩ :=
        challenge_run hw hissued hpurpose
      cases hid.symm.trans hid'
      exact ⟨earlier, login, later, v, hsplit, hissuedAt, hlogin⟩

/-! ## Tokens for one purpose -/

theorem requireScope_of_no_scopes {scope : String} {claims : Claims} (h : claims.scopes = []) (w : World) :
    ∃ e, requireScope env scope (some (.jwt claims)) w = (.error e, w) := by
  obtain ⟨r, hr⟩ := requireScope_run env scope (some (.jwt claims)) w
  cases r with
  | error e => exact ⟨e, hr⟩
  | ok principal =>
      rcases requireScope_ok hr with ⟨hkey, -⟩ | ⟨c, hc, -, -, hscope⟩
      · cases hkey
      · cases hc
        rw [h] at hscope
        rcases hscope with hscope | hscope <;> cases hscope

theorem verifyMfa_of_purpose {claims : Claims} (h : claims.purpose ≠ some "mfa_pending") (code : String)
    (w : World) : ∃ e, verifyMfa p env (.jwt claims) code w = (.error e, w) := by
  unfold verifyMfa
  rw [ensure_bind_run]
  split
  · rcases purposeToken_cases env invalidChallenge "mfa_pending" (.jwt claims) w with
      ⟨c, hc, ⟨-, hpurpose, -⟩, -⟩ | ⟨hrun, -⟩
    · cases hc
      exact absurd hpurpose h
    · exact ⟨_, bind_run_error hrun _⟩
  · exact ⟨_, rfl⟩

theorem confirmPasswordReset_of_purpose {claims : Claims} (h : claims.purpose ≠ some "password_reset")
    (newPassword : String) (w : World) :
    ∃ e, confirmPasswordReset p env (.jwt claims) newPassword w = (.error e, w) := by
  rcases confirmPasswordReset_cases p env (.jwt claims) newPassword w with
    ⟨c, id, u, hc, -, ⟨-, hpurpose, -⟩, -⟩ | ⟨herror, -⟩
  · cases hc
    exact absurd hpurpose h
  · exact herror

end NeuralSoc.Api
