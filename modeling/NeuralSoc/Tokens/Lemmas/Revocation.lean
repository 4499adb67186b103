import NeuralSoc.Tokens.Lemmas.SingleUse
import Mathlib.Tactic.Linarith

/-!
# Revoked tokens

The denylist entry of a token lives for a whole number of seconds from the clock of the revocation, the token
until the whole second of its expiry.
-/

namespace NeuralSoc.Tokens

open Handler Api

variable {p : Platform} {env : Env}

/-! ## Definitions -/

/-- The request revokes the token: it logs out a live one, or redeems it. -/
def Revokes (p : Platform) (env : Env) (w : World) (claims : Claims) : Request → Prop
  | .logout token => token = .jwt claims ∧ verifyToken env w token = some claims
  | .verifyMfa token code => token = .jwt claims ∧ ∃ r, (verifyMfa p env token code w).1 = .ok r
  | .confirmPasswordReset token newPassword =>
      token = .jwt claims ∧ ∃ r, (confirmPasswordReset p env token newPassword w).1 = .ok r
  | _ => False

/-- From the instant on the token has expired or is on the denylist. -/
def NeverAccepted (w : World) (claims : Claims) (start : ℚ) : Prop :=
  ∀ later : Env, later.redisUp = true → start ≤ later.now →
    verifyToken later w (.jwt claims) = none ∨ isTokenRevoked later w claims.jti = true

/-- An entry of the token is there up to its expiry. -/
def Lasts (denylist : List (String × ℚ)) (claims : Claims) : Prop :=
  ∃ e ∈ denylist, e.1 = claims.jti ∧ claims.exp ≤ e.2

/-- A revocation of the token would reach the denylist: it has a whole second left. -/
def Writes (env : Env) (c : Claims) : Prop := c.exp ≠ 0 ∧ env.redisUp = true ∧ 1 ≤ c.exp - env.now

/-- A revocation of `c` writes the entry that both tokens share, and the entry ends before `claims` expires. -/
def EndsEarly (env : Env) (c claims : Claims) : Prop :=
  c.jti = claims.jti ∧ Writes env c ∧ env.now + ((c.exp : ℚ) - env.now).floor < claims.exp

/-- The request revokes the token once more, or one with its id, by an entry that ends before the token does. -/
def Shortens (p : Platform) (claims : Claims) (w : World) (call : Env × Request) : Prop :=
  ∃ c, Revokes p call.1 w c call.2 ∧ EndsEarly call.1 c claims

/-! ## The two lifetimes -/

/-- A list of instants before another one does not reach up to it. -/
theorem exists_later (expiries : List ℚ) {a b : ℚ} (hab : a < b) (h : ∀ e ∈ expiries, e < b) :
    ∃ t, a ≤ t ∧ t < b ∧ ∀ e ∈ expiries, e < t := by
  induction expiries with
  | nil => exact ⟨a, le_refl a, hab, fun _ h => absurd h List.not_mem_nil⟩
  | cons e es ih =>
      obtain ⟨he, hes⟩ := List.forall_mem_cons.mp h
      obtain ⟨t, hat, htb, hlt⟩ := ih hes
      refine ⟨max ((e + b) / 2) t, hat.trans (le_max_right _ _), max_lt (by linarith) htb, ?_⟩
      refine List.forall_mem_cons.mpr ⟨lt_max_of_lt_left (by linarith), fun x hx => ?_⟩
      exact (hlt x hx).trans_le (le_max_right _ _)

/-- A token is shut out for good exactly when one entry of it lasts until it expires. -/
theorem neverAccepted_iff {w : World} {claims : Claims} {start : ℚ} (hissued : claims ∈ w.issued)
    (hjti : claims.jti ≠ "") (hstart : start < claims.exp) :
    NeverAccepted w claims start ↔ Lasts w.denylist claims := by
  constructor
  · intro h
    by_contra hno
    simp only [Lasts, not_exists, not_and, not_le] at hno
    obtain ⟨t, hst, htexp, hlt⟩ := exists_later
      ((w.denylist.filter fun e => e.1 = claims.jti).map Prod.snd) hstart (by
        intro e he
        obtain ⟨x, hx, rfl⟩ := List.mem_map.mp he
        obtain ⟨hmem, hkey⟩ := List.mem_filter.mp hx
        exact hno x hmem (by simpa using hkey))
    let later : Env :=
      { now := t, limited := false, redisUp := true, auditUp := true, jti := "", salt := "", placeholder := ""
        secret := "", slugSuffixes := [], clientIp := "" }
    rcases h later rfl hst with hexpired | hrevoked
    · have hgood : verifyToken later w (.jwt claims) = some claims :=
        verifyToken_eq_some.mpr ⟨rfl, hissued, htexp⟩
      cases hexpired.symm.trans hgood
    · simp only [isTokenRevoked, Bool.and_eq_true, List.any_eq_true, decide_eq_true_eq] at hrevoked
      obtain ⟨-, e, he, hkey, hlive⟩ := hrevoked
      have hmem : e.2 ∈ (w.denylist.filter fun e => e.1 = claims.jti).map Prod.snd :=
        List.mem_map_of_mem (List.mem_filter.mpr ⟨he, by simpa using hkey⟩)
      exact absurd hlive (hlt _ hmem).not_ge
  · rintro ⟨e, he, hkey, hlast⟩ later hredis -
    by_cases hlive : later.now < claims.exp
    · have hmem : (claims.jti, e.2) ∈ w.denylist := by
        rw [← hkey]
        exact he
      exact Or.inr (isTokenRevoked_of_mem hjti hredis hmem (hlive.le.trans hlast))
    · refine Or.inl ?_
      simp only [verifyToken, hlive, and_false, ↓reduceIte]

theorem truncate_of_nonneg {q : ℚ} (h : 0 ≤ q) : truncate q = q.floor := if_pos h

theorem le_add_floor_iff (exp : ℤ) (now : ℚ) :
    (exp : ℚ) ≤ now + ((exp : ℚ) - now).floor ↔ ∃ n : ℤ, now = n := by
  have hfloor : (((exp : ℚ) - now).floor : ℚ) ≤ exp - now := Rat.floor_le _
  constructor
  · intro h
    refine ⟨exp - ((exp : ℚ) - now).floor, ?_⟩
    push_cast
    linarith
  · rintro ⟨n, rfl⟩
    have hint : (exp : ℚ) - n = ((exp - n : ℤ) : ℚ) := by push_cast; rfl
    rw [hint, Rat.floor_intCast]
    push_cast
    linarith

theorem truncate_le_zero_iff {c : Claims} (hlive : env.now < c.exp) :
    truncate (c.exp - env.now) ≤ 0 ↔ ¬ 1 ≤ (c.exp : ℚ) - env.now := by
  rw [truncate_of_nonneg (sub_nonneg.mpr hlive.le), ← not_lt, not_iff_not, ← Int.add_one_le_iff, zero_add,
    Rat.le_floor_iff, Int.cast_one]

theorem consumed_of_writes {c : Claims} (hjti : c.jti ≠ "") (hlive : env.now < c.exp) (h : Writes env c)
    (denylist : List (String × ℚ)) :
    consumed env c denylist =
      (c.jti, env.now + ((c.exp : ℚ) - env.now).floor) :: denylist.filter fun e => e.1 ≠ c.jti := by
  obtain ⟨hexp, hredis, hlife⟩ := h
  have hpos : ¬ truncate (c.exp - env.now) ≤ 0 := by
    rw [truncate_le_zero_iff hlive, not_not]
    exact hlife
  rw [← truncate_of_nonneg (sub_nonneg.mpr hlive.le)]
  simp [consumed, hjti, hexp, hredis, hpos]

theorem consumed_of_not_writes {c : Claims} (hlive : env.now < c.exp) (h : ¬ Writes env c)
    (denylist : List (String × ℚ)) : consumed env c denylist = denylist := by
  unfold consumed
  split
  · rename_i hidentified
    simp only [Bool.and_eq_true, decide_eq_true_eq] at hidentified
    refine if_pos ?_
    cases hredis : env.redisUp with
    | false => simp
    | true =>
        have hshort : truncate (c.exp - env.now) ≤ 0 :=
          (truncate_le_zero_iff hlive).mpr fun hlife => h ⟨hidentified.2, hredis, hlife⟩
        simp [hshort]
  · rfl

/-- The entry of another token does not matter. -/
theorem lasts_consumed_other {c claims : Claims} (hlive : env.now < c.exp) (hne : c.jti ≠ claims.jti)
    (denylist : List (String × ℚ)) : Lasts (consumed env c denylist) claims ↔ Lasts denylist claims := by
  by_cases hwrites : Writes env c
  · by_cases hjti : c.jti = ""
    · have hsame : consumed env c denylist = denylist := by simp [consumed, hjti]
      rw [hsame]
    · rw [consumed_of_writes hjti hlive hwrites]
      constructor
      · rintro ⟨e, he, hkey, hlast⟩
        rcases List.mem_cons.mp he with rfl | he
        · exact absurd hkey hne
        · exact ⟨e, (List.mem_filter.mp he).1, hkey, hlast⟩
      · rintro ⟨e, he, hkey, hlast⟩
        refine ⟨e, List.mem_cons_of_mem _ (List.mem_filter.mpr ⟨he, ?_⟩), hkey, hlast⟩
        rw [hkey]
        exact decide_eq_true (Ne.symm hne)
  · rw [consumed_of_not_writes hlive hwrites]

/-- The entry that is written takes the place of the older ones of its token. -/
theorem lasts_consumed_of_writes {c claims : Claims} (hjti : claims.jti ≠ "") (hlive : env.now < c.exp)
    (hsame : c.jti = claims.jti) (h : Writes env c) (denylist : List (String × ℚ)) :
    Lasts (consumed env c denylist) claims ↔ claims.exp ≤ env.now + ((c.exp : ℚ) - env.now).floor := by
  rw [consumed_of_writes (hsame ▸ hjti) hlive h]
  constructor
  · rintro ⟨e, he, hkey, hlast⟩
    rcases List.mem_cons.mp he with rfl | he
    · exact hlast
    · have hother := (List.mem_filter.mp he).2
      rw [hkey, hsame] at hother
      simp at hother
  · exact fun hlast => ⟨_, List.mem_cons_self .., hsame, hlast⟩

/-- The new entry, or where it is not written an older one, lasts until the token expires. -/
theorem consumed_lasts_iff {claims : Claims} (hjti : claims.jti ≠ "") (hexp : claims.exp ≠ 0)
    (hredis : env.redisUp = true) (hlive : env.now < claims.exp) (denylist : List (String × ℚ)) :
    Lasts (consumed env claims denylist) claims ↔
      (∃ n : ℤ, env.now = n) ∨ claims.exp - env.now < 1 ∧ Lasts denylist claims := by
  by_cases hsecond : (claims.exp : ℚ) - env.now < 1
  · rw [consumed_of_not_writes hlive fun h => hsecond.not_ge h.2.2]
    constructor
    · exact fun h => Or.inr ⟨hsecond, h⟩
    · rintro (⟨n, hn⟩ | ⟨-, h⟩)
      · -- an integer instant before the expiry is a second before it
        rw [hn] at hlive hsecond
        have h₁ : n < claims.exp := by exact_mod_cast hlive
        have h₂ : claims.exp - n < 1 := by exact_mod_cast hsecond
        omega
      · exact h
  · rw [lasts_consumed_of_writes hjti hlive rfl ⟨hexp, hredis, not_lt.mp hsecond⟩, le_add_floor_iff]
    constructor
    · exact Or.inl
    · rintro (h | ⟨h, -⟩)
      · exact h
      · exact absurd h hsecond

/-- An entry that ends early takes the place of one that lasts. -/
theorem consumed_keeps_lasts_iff {c claims : Claims} (hjti : claims.jti ≠ "") (hlive : env.now < c.exp)
    {denylist : List (String × ℚ)} (h : Lasts denylist claims) :
    Lasts (consumed env c denylist) claims ↔ ¬ EndsEarly env c claims := by
  unfold EndsEarly
  by_cases hsame : c.jti = claims.jti
  · by_cases hwrites : Writes env c
    · rw [lasts_consumed_of_writes hjti hlive hsame hwrites]
      simp [hsame, hwrites]
    · rw [consumed_of_not_writes hlive hwrites]
      exact iff_of_true h fun hearly => hwrites hearly.2.1
  · rw [lasts_consumed_other hlive hsame]
    exact iff_of_true h fun hearly => hsame hearly.1

/-- An entry of the token itself ends early when it is written between two whole seconds. -/
theorem endsEarly_self_iff {claims : Claims} :
    EndsEarly env claims claims ↔ Writes env claims ∧ ¬ ∃ n : ℤ, env.now = n := by
  unfold EndsEarly
  rw [← le_add_floor_iff claims.exp env.now, not_le]
  exact and_iff_right rfl

/-! ## The requests -/

theorem createToken_keepsTokens (scopes : List String) (subject : Option String) (tenantId userId : Option ℕ)
    (purpose : Option String) (expiryMinutes : Option ℕ) :
    Keeps KeepsTokens (createToken p env scopes subject tenantId userId purpose expiryMinutes) :=
  fun _ => ⟨rfl, fun _ hc => List.mem_append_left _ hc⟩

theorem requireScope_keepsTokens (scope : String) (credentials : Option Token) :
    Keeps KeepsTokens (requireScope env scope credentials) := by
  intro w
  obtain ⟨r, hr⟩ := requireScope_run env scope credentials w
  rw [hr]
  exact refl w

theorem recordFailedLogin_keepsTokens (email : String) : Keeps KeepsTokens (recordFailedLogin p env email) := by
  intro w
  change KeepsTokens w (if _ then _ else _)
  split <;> exact ⟨rfl, fun _ h => h⟩

theorem clearFailedLogins_keepsTokens (email : String) : Keeps KeepsTokens (clearFailedLogins p env email) := by
  intro w
  change KeepsTokens w (if _ then _ else _)
  split <;> exact ⟨rfl, fun _ h => h⟩

theorem completeLogin_keepsTokens (id : ℕ) (user : User) (detail : Option String) :
    Keeps KeepsTokens (completeLogin p env id user detail) := by
  refine .bind (updateUser_keepsTokens _ _) fun _ => .bind (recordAuditEvent_keepsTokens _ _) fun _ => ?_
  exact .bind (createToken_keepsTokens _ _ _ _ _ _) fun _ => .pure _

theorem login_keepsTokens (email password : String) : Keeps KeepsTokens (login p env email password) := by
  have hfail : ∀ email fields, Keeps KeepsTokens (failLogin p env email fields) := by
    intro email fields
    refine .bind (recordFailedLogin_keepsTokens _) fun _ => ?_
    exact .bind (recordAuditEvent_keepsTokens _ _) fun _ => .throw _
  refine .bind (.expect _ _) fun email => .bind (.ensure _ _) fun _ => .bind .get fun w => ?_
  split
  · exact .bind (recordAuditEvent_keepsTokens _ _) fun _ => .throw _
  · split
    · exact hfail _ _
    · split
      · exact hfail _ _
      · refine .bind (clearFailedLogins_keepsTokens _) fun _ => ?_
        split
        · refine .bind (createToken_keepsTokens _ _ _ _ _ _) fun _ => ?_
          exact .bind (recordAuditEvent_keepsTokens _ _) fun _ => .pure _
        · exact completeLogin_keepsTokens _ _ _

/-- An update of a row found by the session, with its event. -/
theorem update_keepsTokens (id : ℕ) (f : User → User) (action : String) (fields : AuditFields)
    (response : Response) :
    Keeps KeepsTokens (do
      modify (World.updateUser id f)
      recordAuditEvent env action fields
      return response : Route Response) :=
  .bind (updateUser_keepsTokens _ _) fun _ => .bind (recordAuditEvent_keepsTokens _ _) fun _ => .pure _

theorem deliver_keepsTokens (mail : Mail) : Keeps KeepsTokens (deliverEmail mail) :=
  .modify fun _ => ⟨rfl, fun _ h => h⟩

theorem signup_keepsTokens (tenantName email password : String) :
    Keeps KeepsTokens (signup p env tenantName email password) := by
  refine .bind (.expect _ _) fun _ => .bind (.expect _ _) fun _ => .bind (.expect _ _) fun _ => ?_
  refine .bind (.ensure _ _) fun _ => .bind .get fun w => .bind (.ensure _ _) fun _ => .bind (.expect _ _) fun _ => ?_
  refine .bind (.modify fun _ => ⟨rfl, fun _ h => h⟩) fun _ => .bind (.modify fun _ => ⟨rfl, fun _ h => h⟩) fun _ => ?_
  refine .bind (recordAuditEvent_keepsTokens _ _) fun _ => ?_
  exact .bind (createToken_keepsTokens _ _ _ _ _ _) fun _ => .pure _

theorem enrollMfa_keepsTokens (credentials : Option Token) : Keeps KeepsTokens (enrollMfa env credentials) := by
  refine .bind (requireScope_keepsTokens _ _) fun _ => .bind .get fun _ => .bind (.expect _ _) fun _ => ?_
  exact update_keepsTokens _ _ _ _ _

theorem confirmMfa_keepsTokens (credentials : Option Token) (code : String) :
    Keeps KeepsTokens (confirmMfa p env credentials code) := by
  refine .bind (requireScope_keepsTokens _ _) fun _ => .bind .get fun _ => .bind (.expect _ _) fun _ => ?_
  exact .bind (.ensure _ _) fun _ => .bind (.ensure _ _) fun _ => update_keepsTokens _ _ _ _ _

theorem disableMfa_keepsTokens (credentials : Option Token) (code : String) :
    Keeps KeepsTokens (disableMfa p env credentials code) := by
  refine .bind (requireScope_keepsTokens _ _) fun _ => .bind .get fun _ => .bind (.expect _ _) fun _ => ?_
  refine .bind (.ensure _ _) fun _ => .bind (.ensure _ _) fun _ => .bind (.ensure _ _) fun _ => ?_
  exact update_keepsTokens _ _ _ _ _

theorem getMe_keepsTokens (credentials : Option Token) : Keeps KeepsTokens (getMe env credentials) := by
  refine .bind (requireScope_keepsTokens _ _) fun _ => .bind (.ensure _ _) fun _ => ?_
  exact .bind .get fun _ => .bind (.expect _ _) fun _ => .pure _

theorem requestPasswordReset_keepsTokens (email : String) :
    Keeps KeepsTokens (requestPasswordReset p env email) := by
  refine .bind (.expect _ _) fun _ => .bind .get fun w => ?_
  split
  · exact .pure _
  · refine .bind (.bind (createToken_keepsTokens _ _ _ _ _ _) fun _ => ?_) fun _ => .pure _
    exact .bind (deliver_keepsTokens _) fun _ => recordAuditEvent_keepsTokens _ _

theorem inviteUser_keepsTokens (credentials : Option Token) (tenantId : ℕ) (email role : String) :
    Keeps KeepsTokens (inviteUser p env credentials tenantId email role) := by
  refine .bind (requireScope_keepsTokens _ _) fun _ => .bind (.expect _ _) fun _ => .bind (.expect _ _) fun _ => ?_
  refine .bind (.ensure _ _) fun _ => .bind .get fun w => .bind (.ensure _ _) fun _ => ?_
  refine .bind (.modify fun _ => ⟨rfl, fun _ h => h⟩) fun _ => .bind (recordAuditEvent_keepsTokens _ _) fun _ => ?_
  exact .bind (createToken_keepsTokens _ _ _ _ _ _) fun _ => .bind (deliver_keepsTokens _) fun _ => .pure _

theorem listUsers_keepsTokens (credentials : Option Token) (tenantId : ℕ) :
    Keeps KeepsTokens (listUsers env credentials tenantId) := by
  refine .bind (requireScope_keepsTokens _ _) fun _ => .bind (.ensure _ _) fun _ => ?_
  exact .bind .get fun _ => .pure _

theorem deactivateUser_keepsTokens (credentials : Option Token) (tenantId userId : ℕ) :
    Keeps KeepsTokens (deactivateUser env credentials tenantId userId) := by
  refine .bind (requireScope_keepsTokens _ _) fun _ => .bind (.ensure _ _) fun _ => .bind (.ensure _ _) fun _ => ?_
  exact .bind .get fun _ => .bind (.expect _ _) fun _ => update_keepsTokens _ _ _ _ _

/-- What presents a token without success leaves the denylist alone. -/
theorem redeem_keepsTokens (token : Token) (r : Redemption) (w : World) :
    KeepsTokens w (r.redeem p env token w).2 ∨
      ∃ claims, token = .jwt claims ∧ ∃ response, (r.redeem p env token w).1 = .ok response := by
  cases hrun : r.redeem p env token w with
  | mk outcome w' =>
      cases outcome with
      | ok response =>
          obtain ⟨claims, -, htoken, -⟩ := Redemption.redeem_ok p env hrun
          exact Or.inr ⟨claims, htoken, response, rfl⟩
      | error e =>
          left
          rcases Redemption.check_cases env token r w with ⟨claims, -, -, -, hcheck⟩ | ⟨e', hcheck⟩
          · rw [Redemption.redeem, bind_run_ok hcheck] at hrun
            have hkept := Redemption.work_keepsTokens p env claims r w
            cases hwork : r.work p env claims w with
            | mk found w₁ =>
                rw [hwork] at hkept
                cases found with
                | error e₁ =>
                    rw [bind_run_error hwork] at hrun
                    cases hrun
                    exact hkept
                | ok found =>
                    rw [bind_run_ok hwork] at hrun
                    dsimp only at hrun
                    rw [bind_run_ok (consume_run env claims w₁)] at hrun
                    obtain ⟨response, hok⟩ := Redemption.finish_ok p env found.1 found.2 r
                      { w₁ with denylist := consumed env claims w₁.denylist }
                    rw [hrun] at hok
                    cases hok
          · rw [Redemption.redeem, bind_run_error hcheck] at hrun
            cases hrun
            exact refl w

/-- A logout revokes a live token, and does nothing with another one. -/
theorem logout_keepsTokens (token : Token) (w : World) :
    KeepsTokens w (logout env token w).2 ∨ ∃ claims, token = .jwt claims ∧ verifyToken env w token = some claims := by
  cases hgood : verifyToken env w token with
  | none =>
      have hrun : logout env token w = (.ok .noContent, w) := by
        unfold logout
        rw [get_bind_run, hgood]
        rfl
      rw [hrun]
      exact Or.inl (refl w)
  | some claims =>
      cases token with
      | jwt c =>
          obtain ⟨rfl, -⟩ := verifyToken_eq_some.mp hgood
          exact Or.inr ⟨_, rfl, rfl⟩
      | _ => cases hgood

/-- A request leaves the denylist alone unless it revokes a token, and forgets none. -/
theorem handle_keepsTokens (r : Request) (w : World) :
    KeepsTokens w (serve p w (env, r)) ∨ ∃ claims, Revokes p env w claims r := by
  cases r with
  | signup tenantName email password => exact Or.inl (signup_keepsTokens tenantName email password w)
  | login email password => exact Or.inl (login_keepsTokens email password w)
  | verifyMfa token code =>
      have hgoal := @redeem_keepsTokens p env token (.mfa code) w
      rw [← Redemption.redeem_eq] at hgoal
      exact hgoal
  | enrollMfa credentials => exact Or.inl (enrollMfa_keepsTokens credentials w)
  | confirmMfa credentials code => exact Or.inl (confirmMfa_keepsTokens credentials code w)
  | disableMfa credentials code => exact Or.inl (disableMfa_keepsTokens credentials code w)
  | logout token => exact logout_keepsTokens token w
  | getMe credentials => exact Or.inl (getMe_keepsTokens credentials w)
  | requestPasswordReset email => exact Or.inl (requestPasswordReset_keepsTokens email w)
  | confirmPasswordReset token newPassword =>
      have hgoal := @redeem_keepsTokens p env token (.reset newPassword) w
      rw [← Redemption.redeem_eq] at hgoal
      exact hgoal
  | inviteUser credentials tenantId email role =>
      exact Or.inl (inviteUser_keepsTokens credentials tenantId email role w)
  | listUsers credentials tenantId => exact Or.inl (listUsers_keepsTokens credentials tenantId w)
  | deactivateUser credentials tenantId userId =>
      exact Or.inl (deactivateUser_keepsTokens credentials tenantId userId w)

/-- A request that revokes a live token leaves the denylist with its entry. -/
theorem Revokes.serve {w : World} {claims : Claims} {r : Request} (h : Revokes p env w claims r) :
    claims ∈ w.issued ∧ env.now < claims.exp ∧ (∀ c ∈ w.issued, c ∈ (serve p w (env, r)).issued) ∧
      (serve p w (env, r)).denylist = consumed env claims w.denylist := by
  have hredeem : ∀ r : Redemption, (∃ response, (r.redeem p env (.jwt claims) w).1 = .ok response) →
      claims ∈ w.issued ∧ env.now < claims.exp ∧
        (∀ c ∈ w.issued, c ∈ (r.redeem p env (.jwt claims) w).2.issued) ∧
        (r.redeem p env (.jwt claims) w).2.denylist = consumed env claims w.denylist := by
    rintro r ⟨response, hok⟩
    obtain ⟨c, purpose, heq, ⟨hgood, -, -⟩, hdenylist, hissued⟩ :=
      Redemption.redeem_ok p env (r := r) (Prod.ext hok rfl)
    cases heq
    obtain ⟨-, hmem, hnow⟩ := verifyToken_eq_some.mp hgood
    exact ⟨hmem, hnow, hissued, hdenylist⟩
  cases r with
  | logout token =>
      obtain ⟨rfl, hgood⟩ := h
      obtain ⟨-, hmem, hnow⟩ := verifyToken_eq_some.mp hgood
      have hrun : logout env (.jwt claims) w =
          (.ok .noContent, { w with denylist := consumed env claims w.denylist }) := by
        unfold logout
        rw [get_bind_run, hgood]
        exact bind_run_ok (consume_run env claims w) _
      change _ ∧ _ ∧ (∀ c ∈ w.issued, c ∈ (logout env (.jwt claims) w).2.issued) ∧
        (logout env (.jwt claims) w).2.denylist = _
      rw [hrun]
      exact ⟨hmem, hnow, fun _ hc => hc, rfl⟩
  | verifyMfa token code =>
      obtain ⟨rfl, hok⟩ := h
      have heq := Redemption.redeem_eq p env (.jwt claims) (.mfa code)
      have hgoal := hredeem (.mfa code) (by rw [← heq]; exact hok)
      rw [← heq] at hgoal
      exact hgoal
  | confirmPasswordReset token newPassword =>
      obtain ⟨rfl, hok⟩ := h
      have heq := Redemption.redeem_eq p env (.jwt claims) (.reset newPassword)
      have hgoal := hredeem (.reset newPassword) (by rw [← heq]; exact hok)
      rw [← heq] at hgoal
      exact hgoal
  | _ => cases h

/-! ## Runs -/

theorem issued_serve {claims : Claims} {w : World} (h : claims ∈ w.issued) (call : Env × Request) :
    claims ∈ (serve p w call).issued := by
  rcases handle_keepsTokens call.2 w with hkept | ⟨c, hrevokes⟩
  · exact hkept.2 claims h
  · obtain ⟨-, -, hissued, -⟩ := hrevokes.serve
    exact hissued claims h

/-- A logout on a whole second shortens nothing. -/
theorem not_shortens_on_second {claims : Claims} {w : World} {n : ℤ} (hn : env.now = n) :
    ¬ Shortens p claims w (env, .logout (.jwt claims)) := by
  rintro ⟨c, ⟨heq, -⟩, hearly⟩
  cases heq
  exact (endsEarly_self_iff.mp hearly).2 ⟨n, hn⟩

/-- An entry that lasts is lost exactly to a request that shortens it. -/
theorem lasts_serve_iff {claims : Claims} (hjti : claims.jti ≠ "") {w : World} (h : Lasts w.denylist claims)
    (call : Env × Request) : Lasts (serve p w call).denylist claims ↔ ¬ Shortens p claims w call := by
  have hwrite : ∀ c, Revokes p call.1 w c call.2 →
      (Lasts (serve p w call).denylist claims ↔ ¬ EndsEarly call.1 c claims) := by
    intro c hrevokes
    obtain ⟨-, hlive, -, hdenylist⟩ := hrevokes.serve
    rw [show (serve p w call).denylist = _ from hdenylist]
    exact consumed_keeps_lasts_iff hjti hlive h
  constructor
  · rintro hlasts ⟨c, hrevokes, hearly⟩
    exact (hwrite c hrevokes).mp hlasts hearly
  · intro hnot
    rcases handle_keepsTokens call.2 w with hkept | ⟨c, hrevokes⟩
    · rw [show (serve p w call).denylist = _ from hkept.1]
      exact h
    · exact (hwrite c hrevokes).mpr fun hearly => hnot ⟨c, hrevokes, hearly⟩

/-- A token that is shut out stays so in exactly the runs that shorten no entry of it. -/
theorem neverAccepted_run_iff {claims : Claims} {start : ℚ} (hjti : claims.jti ≠ "") (hstart : start < claims.exp)
    {w : World} (hissued : claims ∈ w.issued) (h : NeverAccepted w claims start) (calls : List (Env × Request)) :
    Always (serve p) (fun w => NeverAccepted w claims start) w calls ↔
      Each (serve p) (fun w call => ¬ Shortens p claims w call) w calls := by
  refine always_iff_each (I := fun w => claims ∈ w.issued) (fun _ call hw => issued_serve hw call) ?_ hissued h
  intro w call hw hnever
  rw [neverAccepted_iff (issued_serve hw call) hjti hstart]
  exact lasts_serve_iff hjti ((neverAccepted_iff hw hjti hstart).mp hnever) call

end NeuralSoc.Tokens
