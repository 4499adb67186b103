import NeuralSoc.Api.Lemmas.SecondFactor
import NeuralSoc.Api.Lemmas.Accounts
import NeuralSoc.Api.Lemmas.Lockout
import NeuralSoc.Api.Lemmas.Sessions

/-!
# The guarantees of the API
-/

namespace NeuralSoc.Api

/-! ## Second factor -/

/-- A run leaves every enabled second factor to requests with a right code exactly when none of its steps
enrols a user again whose MFA is enabled. -/
theorem second_factor_guarded_iff (p : Platform) (w : World) (calls : List (Env × Request)) :
    Each (serve p) (SecondFactorKept p) w calls ↔
      Each (serve p) (fun w call => ¬ Reenrolls w call) w calls :=
  ⟨Each.mono fun w call => (secondFactorKept_iff w call).mp,
    Each.mono fun w call => (secondFactorKept_iff w call).mpr⟩

/-- Passwords are kept as they are, and the code of a secret is the secret. -/
def plainPlatform : Platform where
  lower := String.toLower
  hashPassword _ password := password
  verifyPassword hash password := hash = password
  totpVerify secret code := secret = code
  jwtExpiryMin := 30

def emptyWorld : World := ⟨.empty, .empty, [], [], [], [], []⟩

def plainEnv (jti secret : String) : Env := ⟨0, false, true, true, jti, "", "", secret, [], "10.0.0.9"⟩

def session : Token := .jwt
  { sub := "1", scopes := roleScopes .admin, iat := 0, exp := 1800, jti := "jti-1", tenantId := some 1,
    userId := some 1, purpose := none }

def enabledRun : List (Env × Request) :=
  [(plainEnv "jti-1" "", .signup "Acme" "admin@acme.example.com" "correct-horse"),
    (plainEnv "jti-2" "JBSWY3DP", .enrollMfa (some session)),
    (plainEnv "jti-3" "", .confirmMfa (some session) "JBSWY3DP")]

def stolenEnrolment : Env × Request := (plainEnv "jti-4" "KRSXG5BA", .enrollMfa (some session))

/-- With the session token alone the secret of an enabled second factor is replaced. -/
theorem session_replaces_secret :
    ¬ Each (serve plainPlatform) (SecondFactorKept plainPlatform) emptyWorld
      (enabledRun ++ [stolenEnrolment]) := by
  rintro ⟨-, -, -, hkept, -⟩
  have hbefore : ((enabledRun.foldl (serve plainPlatform) emptyWorld).users.get? 1).map
      (fun u => (u.totpSecret, u.mfaEnabled)) = some (some "JBSWY3DP", true) := by decide +kernel
  have hafter : (((enabledRun ++ [stolenEnrolment]).foldl (serve plainPlatform) emptyWorld).users.get?
      1).map User.totpSecret = some (some "KRSXG5BA") := by decide +kernel
  obtain ⟨u, hu, heq⟩ := Option.map_eq_some_iff.mp hbefore
  obtain ⟨hsecret, henabled⟩ := Prod.mk.inj heq
  rcases hkept 1 u hu henabled with ⟨u', hu', hsame, -⟩ | ⟨c, hc, -⟩
  · obtain ⟨u'', hu'', hnew⟩ := Option.map_eq_some_iff.mp hafter
    cases hu'.symm.trans hu''
    rw [hsame, hsecret] at hnew
    exact absurd hnew (by decide)
  · cases hc

/-! ## Deactivation -/

def asciiPlatform : Platform := { plainPlatform with lower text := String.ofList (text.toList.map Char.toLower) }

def plainEnvAt (now : ℚ) (jti : String) : Env := { plainEnv jti "" with now }

/-- After a deactivation the user stays out for good exactly when no reset token of theirs is redeemed. -/
theorem deactivation_final_iff (p : Platform) (env : Env) (credentials : Option Token) (tenantId id : ℕ)
    (w : World) (calls : List (Env × Request))
    (h : (handle p env (.deactivateUser credentials tenantId id) w).1 = .ok .noContent) :
    Always (serve p) (Deactivated id) (serve p w (env, .deactivateUser credentials tenantId id)) calls ∧
        Each (serve p) (StaysOut p id) (serve p w (env, .deactivateUser credentials tenantId id)) calls ↔
      Each (serve p) (fun w call => ¬ Reactivates id w call)
        (serve p w (env, .deactivateUser credentials tenantId id)) calls :=
  deactivated_run_iff (deactivated_of_ok h) calls

def adminSession (id : ℕ) (jti : String) : Claims :=
  { sub := toString id, scopes := roleScopes .admin, iat := 0, exp := 1800, jti, tenantId := some 1,
    userId := some id, purpose := none }

def inviteLink : Claims :=
  { sub := "2", scopes := [], iat := 0, exp := 604800, jti := "jti-2", tenantId := some 1, userId := some 2,
    purpose := some "password_reset" }

def joinedRun (role : String) : List (Env × Request) :=
  [(plainEnvAt 0 "jti-1", .signup "B" "al@b.io" "12345678"),
    (plainEnvAt 0 "jti-2", .inviteUser (some (.jwt (adminSession 1 "jti-1"))) 1 "bo@b.io" role),
    (plainEnvAt 0 "jti-3", .confirmPasswordReset (.jwt inviteLink) "abcdefgh")]

def askedWorld : World :=
  serve asciiPlatform ((joinedRun "analyst").foldl (serve asciiPlatform) emptyWorld)
    (plainEnvAt 0 "jti-4", .requestPasswordReset "bo@b.io")

def resetLink : Claims :=
  { sub := "2", scopes := [], iat := 0, exp := 3600, jti := "jti-4", tenantId := none, userId := some 2,
    purpose := some "password_reset" }

def deactivation : Env × Request :=
  (plainEnvAt 60 "jti-5", .deactivateUser (some (.jwt (adminSession 1 "jti-1"))) 1 2)

def resetByLink : Env × Request := (plainEnvAt 120 "jti-6", .confirmPasswordReset (.jwt resetLink) "abcdefgh")

theorem expired_link_stays_out :
    Always (serve asciiPlatform) (Deactivated 2) (serve asciiPlatform askedWorld deactivation)
        [(plainEnvAt 3600 "jti-6", resetByLink.2)] ∧
      Each (serve asciiPlatform) (StaysOut asciiPlatform 2) (serve asciiPlatform askedWorld deactivation)
        [(plainEnvAt 3600 "jti-6", resetByLink.2)] := by
  refine (deactivation_final_iff asciiPlatform deactivation.1 _ 1 2 askedWorld _ (by decide +kernel)).mpr ?_
  refine ⟨?_, trivial⟩
  rintro ⟨claims, newPassword, heq, -, ⟨hgood, -⟩, -⟩
  cases heq
  exact absurd (verifyToken_eq_some.mp hgood).2.2 (by decide +kernel)

/-- The link that was mailed before brings the user back without an administrator. -/
theorem mailed_link_reactivates :
    (handle asciiPlatform deactivation.1 deactivation.2 askedWorld).1 = .ok .noContent ∧
      Each (serve asciiPlatform) (fun w call => ¬ ByManager w call)
        (serve asciiPlatform askedWorld deactivation) [resetByLink] ∧
      ¬ (Always (serve asciiPlatform) (Deactivated 2) (serve asciiPlatform askedWorld deactivation)
          [resetByLink] ∧
        Each (serve asciiPlatform) (StaysOut asciiPlatform 2) (serve asciiPlatform askedWorld deactivation)
          [resetByLink]) := by
  refine ⟨by decide +kernel, ⟨?_, trivial⟩, ?_⟩
  · rintro ⟨principal, hscope⟩
    cases hscope
  · rintro ⟨⟨-, u, hu, hoff⟩, -⟩
    have hback : ((serve asciiPlatform (serve asciiPlatform askedWorld deactivation) resetByLink).users.get?
        2).map User.isActive = some true := by decide +kernel
    rw [hu] at hback
    cases hoff.symm.trans (Option.some.inj hback)

/-! ## The last administrator -/

/-- A tenant keeps an active administrator as long as the users who deactivate others are active. The
sessions are ones that have been issued. -/
theorem admin_remains (p : Platform) (tenantId : ℕ) (w : World) (calls : List (Env × Request))
    (hbacked : SessionsBacked w) (hw : ActiveAdmin tenantId w)
    (hcalls : Each (serve p) DeactivatesWhileActive w calls) :
    Always (serve p) (ActiveAdmin tenantId) w calls := by
  induction calls generalizing w with
  | nil => exact hw
  | cons call calls ih =>
      refine ⟨hw, ih _ (serve_sessionsBacked hbacked call) ?_ hcalls.2⟩
      exact activeAdmin_serve hbacked hw hcalls.1

def twoAdmins : World := (joinedRun "admin").foldl (serve asciiPlatform) emptyWorld

def deposedRun : List (Env × Request) :=
  [(plainEnvAt 60 "jti-5", .login "al@b.io" "12345678"),
    (plainEnvAt 60 "jti-6", .login "bo@b.io" "abcdefgh"),
    (plainEnvAt 120 "jti-7", .deactivateUser (some (.jwt (adminSession 1 "jti-1"))) 1 2)]

def strikeBack : Env × Request :=
  (plainEnvAt 180 "jti-8", .deactivateUser
    (some (.jwt { adminSession 2 "jti-6" with iat := 60, exp := 1860 })) 1 1)

instance (tenantId : ℕ) (w : World) : Decidable (ActiveAdmin tenantId w) :=
  decidable_of_iff (∃ u ∈ w.users.values, u.tenantId = tenantId ∧ u.role = .admin ∧ u.isActive = true) <| by
    simp only [Dict.mem_values, ActiveAdmin]
    constructor
    · rintro ⟨u, ⟨id, hu⟩, h⟩
      exact ⟨id, u, hu, h⟩
    · rintro ⟨id, u, hu, h⟩
      exact ⟨u, ⟨id, hu⟩, h⟩

theorem first_admin_remains :
    Always (serve asciiPlatform) (ActiveAdmin 1) twoAdmins deposedRun := by
  have hbacked : SessionsBacked twoAdmins := sessionsBacked_run (fun _ h => absurd h List.not_mem_nil) _
  refine admin_remains asciiPlatform 1 twoAdmins deposedRun hbacked (by decide +kernel)
    ⟨nofun, nofun, ?_, trivial⟩
  rintro credentials tenantId target principal heq hscope
  cases heq
  obtain ⟨heq, -⟩ | ⟨claims, heq, -, rfl, -⟩ := requireScope_ok hscope
  · cases heq
  · cases heq
    have hactive : (((deposedRun.take 2).foldl (serve asciiPlatform) twoAdmins).users.get? 1).map User.isActive =
        some true := by decide +kernel
    obtain ⟨u, hu, hon⟩ := Option.map_eq_some_iff.mp hactive
    exact ⟨1, u, rfl, hu, hon⟩

/-- Two sessions opened earlier in the run take both administrators away. -/
theorem deactivated_session_removes_admin :
    ActiveAdmin 1 twoAdmins ∧
      ¬ Always (serve asciiPlatform) (ActiveAdmin 1) twoAdmins (deposedRun ++ [strikeBack]) := by
  refine ⟨by decide +kernel, fun h => ?_⟩
  have hlast := h.last
  revert hlast
  decide +kernel

/-! ## Lockout -/

/-- From the fifth failure on the address is locked for the whole window exactly when no login comes in the
part of it that follows the expiry of the counter. -/
theorem lockout_lasts_iff (p : Platform) (env : Env) (w : World) (text password e : String)
    (counter : LoginFailures) (calls : List (Env × Request)) (hemail : validateEmail p text = some e)
    (hredis : env.redisUp = true)
    (hfail : (handle p env (.login text password) w).1 = .error invalidCredentials)
    (hcounter : failureCount p env w e = some counter)
    (hfifth : loginLockoutMaxAttempts ≤ counter.count + 1) (hcalls : TimedLogins env.now calls) :
    Each (serve p) (LockedUntil p e (env.now + loginLockoutWindowSec))
        (serve p w (env, .login text password)) calls ↔
      ∀ call ∈ calls, LoginFor p e call → call.1.now < env.now + loginLockoutWindowSec →
        call.1.now ≤ counter.expires := by
  have hf : counters p e (login p env text password w).2 = [{ counter with count := counter.count + 1 }] := by
    rw [counters_of_failed hemail hredis hfail, counted, hcounter]
  exact lockedUntil_run_iff (f := { counter with count := counter.count + 1 }) hfifth _ hf hcalls

def guess : Request := .login "al@b.io" "guess"

def guessedAt (times : List ℚ) : World :=
  (times.map fun t => (plainEnvAt t "", guess)).foldl (serve asciiPlatform) <|
    serve asciiPlatform emptyWorld
      (plainEnvAt 0 "jti-1", .signup "B" "al@b.io" "12345678")

def guesses (n : ℕ) (expires : ℚ) : LoginFailures := ⟨"al@b.io", n, expires⟩

/-- Five guesses within a second lock the address for the right password too. -/
theorem quick_guesses_locked :
    Each (serve asciiPlatform) (LockedUntil asciiPlatform "al@b.io" (60 + loginLockoutWindowSec))
      (serve asciiPlatform (guessedAt [60, 60, 60, 60]) (plainEnvAt 60 "", guess))
      [(plainEnvAt 959 "", .login "al@b.io" "12345678")] := by
  refine (lockout_lasts_iff asciiPlatform (plainEnvAt 60 "") (guessedAt [60, 60, 60, 60])
    "al@b.io" "guess" "al@b.io" (guesses 4 960) _ (by decide +kernel) rfl
    (by decide +kernel) (by decide +kernel) (by decide) ⟨by decide +kernel, ?_⟩).mpr ?_
  · intro call hcall
    cases List.mem_singleton.mp hcall
    exact ⟨rfl, _, _, rfl⟩
  · intro call hcall _ _
    cases List.mem_singleton.mp hcall
    decide +kernel

/-- Two seconds after the fifth failure the address is open again when the first one is over fifteen minutes old. -/
theorem slow_guesses_unlocked :
    (handle asciiPlatform (plainEnvAt 899 "") guess (guessedAt [0, 100, 200, 300])).1 =
        .error invalidCredentials ∧
      failureCount asciiPlatform (plainEnvAt 899 "") (guessedAt [0, 100, 200, 300]) "al@b.io" =
        some (guesses 4 900) ∧
      ¬ Each (serve asciiPlatform)
        (LockedUntil asciiPlatform "al@b.io" (899 + loginLockoutWindowSec))
        (serve asciiPlatform (guessedAt [0, 100, 200, 300]) (plainEnvAt 899 "", guess))
        [(plainEnvAt 901 "", .login "al@b.io" "12345678")] := by
  refine ⟨by decide +kernel, by decide +kernel, ?_⟩
  rintro ⟨hlocked, -⟩
  have hanswer := hlocked ⟨rfl, _, _, "al@b.io", rfl, by decide +kernel, rfl⟩ (by decide +kernel)
  revert hanswer
  decide +kernel

/-! ## Sessions -/

/-- When no token has been issued before, every token with scopes is issued to a user who is fully
authenticated, and a token for one purpose is good for nothing else. -/
theorem sessions_authenticated (p : Platform) (w : World) (calls : List (Env × Request))
    (hw : w.issued = []) :
    (∀ claims ∈ (calls.foldl (serve p) w).issued, claims.scopes ≠ [] →
      (∃ pre call post, calls = pre ++ call :: post ∧ IssuedAt p (pre.foldl (serve p) w) call claims) ∧
        ∀ pre call post, calls = pre ++ call :: post →
          IssuedAt p (pre.foldl (serve p) w) call claims →
          ∃ id, claims.userId = some id ∧ FullyAuthenticated p w pre call id) ∧
      ∀ claims ∈ (calls.foldl (serve p) w).issued, ∀ purpose, claims.purpose = some purpose → ∀ env,
        (∀ scope, ∃ e, requireScope env scope (some (.jwt claims)) (calls.foldl (serve p) w) =
          (.error e, calls.foldl (serve p) w)) ∧
        (purpose ≠ "mfa_pending" → ∀ code, ∃ e,
          verifyMfa p env (.jwt claims) code (calls.foldl (serve p) w) =
            (.error e, calls.foldl (serve p) w)) ∧
        (purpose ≠ "password_reset" → ∀ newPassword, ∃ e,
          confirmPasswordReset p env (.jwt claims) newPassword (calls.foldl (serve p) w) =
            (.error e, calls.foldl (serve p) w)) := by
  constructor
  · intro claims hc hscopes
    refine ⟨?_, fun pre call post _ hissued => fullyAuthenticated_of_issuedAt hw hissued hscopes⟩
    rcases issued_run hc with hnone | hsome
    · rw [hw] at hnone
      cases hnone
    · exact hsome
  · intro claims hc purpose hpurpose env
    refine ⟨fun scope => requireScope_of_no_scopes (scopes_of_purpose hw hc hpurpose) _, ?_, ?_⟩
    · exact fun hother code => verifyMfa_of_purpose (by simpa [hpurpose] using hother) code _
    · exact fun hother newPassword =>
        confirmPasswordReset_of_purpose (by simpa [hpurpose] using hother) newPassword _

theorem first_session_authenticated :
    FullyAuthenticated asciiPlatform emptyWorld [] (plainEnvAt 0 "jti-1", .signup "B" "al@b.io" "12345678") 1 := by
  have hsessions := (sessions_authenticated asciiPlatform emptyWorld
    [(plainEnvAt 0 "jti-1", .signup "B" "al@b.io" "12345678")] rfl).1 (adminSession 1 "jti-1")
    (by decide +kernel) (by decide)
  obtain ⟨id, hid, hfull⟩ := hsessions.2 [] _ [] rfl ⟨[adminSession 1 "jti-1"], by decide +kernel, by simp⟩
  cases hid
  exact hfull

end NeuralSoc.Api
