import NeuralSoc.Api.Lemmas.Effects
import NeuralSoc.Base.Runs
import Mathlib.Data.List.Pairwise

/-!
# Locked e-mail addresses

The counter of an address lives for the lockout window from the first failure it counts. A login that is
locked out and a login for another address leave it alone.
-/

namespace NeuralSoc.Api

open Handler

variable {p : Platform} {env : Env}

/-! ## Definitions -/

/-- A login that reaches the handler, for the address in any capitalisation. -/
def LoginFor (p : Platform) (email : String) (call : Env × Request) : Prop :=
  call.1.limited = false ∧ ∃ text password e, call.2 = .login text password ∧
    validateEmail p text = some e ∧ p.lower e = p.lower email

/-- A login for the address that comes before the instant is rejected as locked. -/
def LockedUntil (p : Platform) (email : String) (deadline : ℚ) (w : World) (call : Env × Request) : Prop :=
  LoginFor p email call → call.1.now < deadline → (handle p call.1 call.2 w).1 = .error lockedOut

/-- Logins one after the other from an instant on, with Redis reachable. -/
def TimedLogins (start : ℚ) (calls : List (Env × Request)) : Prop :=
  (start :: calls.map fun call => call.1.now).Pairwise (· ≤ ·) ∧
    ∀ call ∈ calls, call.1.redisUp = true ∧ ∃ text password, call.2 = .login text password

/-- The counters that are kept for the address, whether or not they have run out. -/
def counters (p : Platform) (email : String) (w : World) : List LoginFailures :=
  w.loginFailures.filter fun f => f.email = p.lower email

def SameCounters (p : Platform) (email : String) (w w' : World) : Prop :=
  counters p email w' = counters p email w

instance (email : String) : IsPreorder World (SameCounters p email) where
  refl _ := rfl
  trans _ _ _ h h' := Eq.trans h' h

/-! ## The counter -/

theorem failureCount_eq (w : World) (email : String) :
    failureCount p env w email = (counters p email w).find? fun f => env.now ≤ f.expires := by
  rw [counters, List.find?_filter, failureCount]
  simp only [Bool.decide_and, Bool.decide_eq_true]

theorem failureCount_of_single {w : World} {email : String} {f : LoginFailures}
    (h : counters p email w = [f]) :
    failureCount p env w email = if env.now ≤ f.expires then some f else none := by
  rw [failureCount_eq, h]
  by_cases hlive : env.now ≤ f.expires <;> simp [hlive]

def counted (p : Platform) (env : Env) (w : World) (email : String) : LoginFailures :=
  match failureCount p env w email with
  | some f => { f with count := f.count + 1 }
  | none => ⟨p.lower email, 1, env.now + loginLockoutWindowSec⟩

theorem counted_email (w : World) (email : String) : (counted p env w email).email = p.lower email := by
  unfold counted
  split
  · rename_i f hf
    have := List.find?_some hf
    simp only [Bool.and_eq_true, decide_eq_true_eq] at this
    exact this.1
  · rfl

theorem recordFailedLogin_run (hredis : env.redisUp = true) (email : String) (w : World) :
    recordFailedLogin p env email w = (.ok (), { dropFailures p email w with
      loginFailures := counted p env w email :: (dropFailures p email w).loginFailures }) := by
  unfold recordFailedLogin Handler.modify
  simp only [hredis, Bool.not_true, Bool.false_eq_true, ↓reduceIte]
  rfl

theorem counters_recordFailedLogin (hredis : env.redisUp = true) (email : String) (w : World) :
    counters p email (recordFailedLogin p env email w).2 = [counted p env w email] := by
  rw [recordFailedLogin_run hredis]
  simp only [counters, dropFailures, List.filter_cons, counted_email, decide_true, ↓reduceIte, List.cons.injEq,
    true_and, List.filter_filter, List.filter_eq_nil_iff]
  intro g _
  simp

theorem counters_dropFailures {email other : String} (h : p.lower other ≠ p.lower email) (w : World) :
    counters p email (dropFailures p other w) = counters p email w := by
  simp only [counters, dropFailures, List.filter_filter]
  apply List.filter_congr
  intro f _
  by_cases hf : f.email = p.lower email
  · simp [hf, Ne.symm h]
  · simp [hf]

theorem recordFailedLogin_sameCounters {email other : String} (h : p.lower other ≠ p.lower email) :
    Keeps (SameCounters p email) (recordFailedLogin p env other) := by
  intro w
  cases hredis : env.redisUp with
  | false =>
      unfold recordFailedLogin Handler.modify
      rw [hredis]
      exact refl w
  | true =>
      have hne : (counted p env w other).email ≠ p.lower email := by rwa [counted_email]
      have hdrop := counters_dropFailures h w
      simp only [counters] at hdrop
      rw [recordFailedLogin_run hredis]
      simp only [SameCounters, counters, List.filter_cons, hne, decide_false, Bool.false_eq_true, ↓reduceIte, hdrop]

theorem clearFailedLogins_sameCounters {email other : String} (h : p.lower other ≠ p.lower email) :
    Keeps (SameCounters p email) (clearFailedLogins p env other) := by
  refine .modify fun w => ?_
  split
  · exact counters_dropFailures h w
  · exact refl w

/-! ## Logins -/

theorem sameCounters_of_same {α : Type} {email : String} {m : Route α}
    (h : ∀ w, (m w).2.loginFailures = w.loginFailures) : Keeps (SameCounters p email) m := by
  intro w
  rw [SameCounters, counters, h]
  rfl

theorem recordAuditEvent_sameCounters (email action : String) (fields : AuditFields) :
    Keeps (SameCounters p email) (recordAuditEvent env action fields) := by
  refine sameCounters_of_same fun w => ?_
  obtain ⟨audit, hrun⟩ := recordAuditEvent_run env action fields w
  rw [hrun]

theorem createToken_sameCounters (email : String) (scopes : List String) (subject : Option String)
    (tenantId userId : Option ℕ) (purpose : Option String) (expiryMinutes : Option ℕ) :
    Keeps (SameCounters p email) (createToken p env scopes subject tenantId userId purpose expiryMinutes) :=
  sameCounters_of_same fun _ => rfl

theorem completeLogin_sameCounters (email : String) (id : ℕ) (user : User) (detail : Option String) :
    Keeps (SameCounters p email) (completeLogin p env id user detail) := by
  refine .bind (sameCounters_of_same fun w => ?_) fun _ => ?_
  · change (w.updateUser id _).loginFailures = _
    unfold World.updateUser
    split <;> rfl
  · refine .bind (recordAuditEvent_sameCounters _ _ _) fun _ => ?_
    exact .bind (createToken_sameCounters _ _ _ _ _ _ _) fun _ => .pure _

theorem failLogin_sameCounters {email other : String} (h : p.lower other ≠ p.lower email)
    (fields : AuditFields) : Keeps (SameCounters p email) (failLogin p env other fields) := by
  refine .bind (recordFailedLogin_sameCounters h) fun _ => ?_
  exact .bind (recordAuditEvent_sameCounters _ _ _) fun _ => .throw _

theorem login_sameCounters {email text password : String} {w : World}
    (h : ∀ e, env.limited = false → validateEmail p text = some e → p.lower e ≠ p.lower email) :
    SameCounters p email w (login p env text password w).2 := by
  refine related_expect fun e he => related_ensure fun hlimited => related_get ?_
  have hne := h e (by simpa using hlimited) he
  split
  · exact related_bind (recordAuditEvent_sameCounters _ _ _ _) fun _ w' _ => refl w'
  cases hfound : (w.userByEmail e).filter fun e => e.2.isActive with
  | none => exact failLogin_sameCounters hne _ w
  | some found =>
      obtain ⟨id, user⟩ := found
      dsimp only
      split
      · exact failLogin_sameCounters hne _ w
      refine related_bind (clearFailedLogins_sameCounters hne _) fun _ w' _ => ?_
      split
      · refine related_bind (createToken_sameCounters _ _ _ _ _ _ _ _) fun _ w'' _ => ?_
        exact related_bind (recordAuditEvent_sameCounters _ _ _ _) fun _ w''' _ => refl w'''
      · exact completeLogin_sameCounters _ _ _ _ w'

theorem login_run {text password e : String} (he : validateEmail p text = some e)
    (hlimited : env.limited = false) (w : World) :
    login p env text password w =
      if isLockedOut p env w e then refuseLogin env e w
      else
        match (w.userByEmail e).filter fun e => e.2.isActive with
        | none => failLogin p env e { actorLabel := some e } w
        | some (id, user) =>
            if !p.verifyPassword user.passwordHash password then failLogin p env e (userFields id user) w
            else (clearFailedLogins p env e >>= fun _ =>
              if user.mfaEnabled then challenge p env id user else completeLogin p env id user none) w := by
  unfold login
  rw [he, expect_bind_run]
  dsimp only
  rw [ensure_bind_run, hlimited, get_bind_run]
  simp only [Bool.not_false, ↓reduceIte]
  split
  · rfl
  · cases (w.userByEmail e).filter fun e => e.2.isActive with
    | none => rfl
    | some found =>
        dsimp only
        split <;> rfl

theorem login_locked {text password e : String} {w : World} (he : validateEmail p text = some e)
    (hlimited : env.limited = false) (hlocked : isLockedOut p env w e = true) (email : String) :
    (login p env text password w).1 = .error lockedOut ∧
      SameCounters p email w (login p env text password w).2 := by
  rw [login_run he hlimited, if_pos hlocked]
  exact ⟨rfl, related_bind (recordAuditEvent_sameCounters _ _ _ w) fun _ w' _ => refl w'⟩

theorem failLogin_run (email : String) (fields : AuditFields) (w : World) :
    (failLogin p env email fields w).1 = .error invalidCredentials ∧
      counters p email (failLogin p env email fields w).2 =
        counters p email (recordFailedLogin p env email w).2 := by
  have hrecorded : recordFailedLogin p env email w = (.ok (), (recordFailedLogin p env email w).2) := rfl
  refine ⟨rfl, ?_⟩
  unfold failLogin
  rw [bind_run_ok hrecorded]
  exact related_bind (recordAuditEvent_sameCounters email _ _ (recordFailedLogin p env email w).2)
    fun _ w' _ => refl w'

theorem login_unlocked {text e : String} {w : World} (he : validateEmail p text = some e)
    (hlimited : env.limited = false) (hlocked : isLockedOut p env w e = false) (password : String) :
    (login p env text password w).1 ≠ .error lockedOut := by
  rw [login_run he hlimited, hlocked]
  simp only [Bool.false_eq_true, ↓reduceIte]
  have hfail : ∀ fields, (failLogin p env e fields w).1 ≠ .error lockedOut := by
    intro fields
    rw [(failLogin_run e fields w).1]
    decide
  cases (w.userByEmail e).filter fun e => e.2.isActive with
  | none => exact hfail _
  | some found =>
      obtain ⟨id, user⟩ := found
      dsimp only
      split
      · exact hfail _
      · rw [clearFailedLogins, modify_bind_run]
        split
        · nofun
        · nofun

theorem counters_of_failed {text password e : String} {w : World} (he : validateEmail p text = some e)
    (hredis : env.redisUp = true) (hfail : (login p env text password w).1 = .error invalidCredentials) :
    counters p e (login p env text password w).2 = [counted p env w e] := by
  cases hlimited : env.limited with
  | true =>
      have hanswer : (login p env text password w).1 = .error rateLimited := by
        unfold login
        rw [he, expect_bind_run]
        dsimp only
        rw [ensure_bind_run, hlimited]
        rfl
      cases hanswer.symm.trans hfail
  | false =>
      rw [login_run he hlimited] at hfail ⊢
      split at hfail
      · cases hfail
      rename_i hfree
      rw [if_neg hfree]
      rw [← counters_recordFailedLogin hredis]
      split at hfail
      · exact (failLogin_run e _ w).2
      · split at hfail
        · rename_i hwrong
          rw [if_pos hwrong]
          exact (failLogin_run e _ w).2
        · rw [clearFailedLogins, modify_bind_run] at hfail
          split at hfail
          · cases hfail
          · cases hfail

/-! ## Runs of logins -/

theorem isLockedOut_of_single {w : World} {email e : String} {f : LoginFailures} (hredis : env.redisUp = true)
    (hf : counters p email w = [f]) (hcount : loginLockoutMaxAttempts ≤ f.count)
    (he : p.lower e = p.lower email) : isLockedOut p env w e = decide (env.now ≤ f.expires) := by
  have hsame : counters p e w = [f] := by rw [← hf, counters, counters, he]
  rw [isLockedOut, hredis, failureCount_of_single hsame]
  by_cases hlive : env.now ≤ f.expires
  · simp [hlive, hcount]
  · simp [hlive]

/-- A login that does not reach the handler for the address leaves its counters alone. -/
theorem serve_sameCounters {email : String} {w : World} {call : Env × Request} (hno : ¬ LoginFor p email call)
    (hlogin : ∃ text password, call.2 = .login text password) : SameCounters p email w (serve p w call) := by
  obtain ⟨env, r⟩ := call
  obtain ⟨text, password, rfl⟩ := hlogin
  change SameCounters p email w (login p env text password w).2
  refine login_sameCounters fun e hlimited he hsame => ?_
  exact hno ⟨hlimited, text, password, e, rfl, he, hsame⟩

/-- While the counter of the address lives it is locked, and afterwards the next login is not. -/
theorem lockedUntil_run_iff {email : String} {f : LoginFailures} (hcount : loginLockoutMaxAttempts ≤ f.count)
    (deadline : ℚ) {start : ℚ} {w : World} {calls : List (Env × Request)} (hf : counters p email w = [f])
    (hcalls : TimedLogins start calls) :
    Each (serve p) (LockedUntil p email deadline) w calls ↔
      ∀ call ∈ calls, LoginFor p email call → call.1.now < deadline → call.1.now ≤ f.expires := by
  induction calls generalizing w start with
  | nil => exact iff_of_true trivial fun _ h => absurd h List.not_mem_nil
  | cons call calls ih =>
      obtain ⟨htimes, hlogins⟩ := hcalls
      obtain ⟨hredis, hlogin⟩ := hlogins call (List.mem_cons_self ..)
      have hrest : TimedLogins call.1.now calls :=
        ⟨(List.pairwise_cons.mp htimes).2, fun c hc => hlogins c (List.mem_cons_of_mem _ hc)⟩
      have hlater : ∀ c ∈ calls, call.1.now ≤ c.1.now := fun c hc =>
        (List.pairwise_cons.mp hrest.1).1 _ (List.mem_map_of_mem hc)
      rw [List.forall_mem_cons]
      by_cases hfor : LoginFor p email call
      · obtain ⟨env, r⟩ := call
        obtain ⟨hlimited, text, password, e, heq, he, hsame⟩ := id hfor
        cases heq
        have hlock := isLockedOut_of_single hredis hf hcount hsame
        by_cases hlive : env.now ≤ f.expires
        · obtain ⟨hanswer, hkept⟩ := login_locked he hlimited (hlock.trans (decide_eq_true hlive)) email
          rw [← ih (Eq.trans hkept hf) hrest]
          exact and_congr (iff_of_true (fun _ _ => hanswer) fun _ _ => hlive) Iff.rfl
        · have hanswer := login_unlocked he hlimited (hlock.trans (decide_eq_false hlive)) password
          by_cases hdeadline : env.now < deadline
          · exact iff_of_false (fun h => hanswer (h.1 hfor hdeadline)) fun h => hlive (h.1 hfor hdeadline)
          · -- the deadline has passed for this login and for every later one
            refine iff_of_true ⟨fun _ h => absurd h hdeadline, ?_⟩ ⟨fun _ h => absurd h hdeadline, ?_⟩
            · refine each_of_forall fun c hc w => ?_
              exact fun _ h => absurd ((hlater c hc).trans_lt h) hdeadline
            · exact fun c hc _ h => absurd ((hlater c hc).trans_lt h) hdeadline
      · have hkept := serve_sameCounters (w := w) hfor hlogin
        rw [← ih (Eq.trans hkept hf) hrest]
        exact and_congr (iff_of_true (fun h => absurd h hfor) fun h => absurd h hfor) Iff.rfl

end NeuralSoc.Api
