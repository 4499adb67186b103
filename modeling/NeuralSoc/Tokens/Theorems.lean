import NeuralSoc.Tokens.Lemmas.Revocation
import NeuralSoc.Api.Theorems

/-!
# The guarantees of the tokens
-/

namespace NeuralSoc.Tokens

open Handler Api

/-! ## Revocation -/

/-- A revoked token is never accepted again, whatever is requested afterwards, exactly when it was revoked on a
whole second, or in its last second while an older entry lasts as long as the token, and no later revocation puts a
shorter entry in the place of the one that lasts. -/
theorem revoked_never_accepted_iff (p : Platform) (env : Env) (w : World) (claims : Claims) (r : Request)
    (calls : List (Env × Request)) (hrevokes : Revokes p env w claims r) (hjti : claims.jti ≠ "")
    (hexp : claims.exp ≠ 0) (hredis : env.redisUp = true) :
    Always (serve p) (fun w => NeverAccepted w claims env.now) (serve p w (env, r)) calls ↔
      ((∃ n : ℤ, env.now = n) ∨ claims.exp - env.now < 1 ∧ Lasts w.denylist claims) ∧
        Each (serve p) (fun w call => ¬ Shortens p claims w call) (serve p w (env, r)) calls := by
  obtain ⟨hmem, hlive, hissued, hdenylist⟩ := hrevokes.serve
  have hfirst : NeverAccepted (serve p w (env, r)) claims env.now ↔
      (∃ n : ℤ, env.now = n) ∨ claims.exp - env.now < 1 ∧ Lasts w.denylist claims := by
    rw [neverAccepted_iff (hissued _ hmem) hjti hlive, hdenylist]
    exact consumed_lasts_iff hjti hexp hredis hlive w.denylist
  rw [← hfirst]
  constructor
  · intro h
    exact ⟨h.head, (neverAccepted_run_iff hjti hlive (hissued _ hmem) h.head calls).mp h⟩
  · rintro ⟨hnever, hkept⟩
    exact (neverAccepted_run_iff hjti hlive (hissued _ hmem) hnever calls).mpr hkept

def signedUp : World :=
  serve asciiPlatform emptyWorld
    (plainEnvAt 0 "jti-1", .signup "B" "al@b.io" "12345678")

def logoutAt (now : ℚ) (jti : String) : Env × Request :=
  (plainEnvAt now jti, .logout (.jwt (adminSession 1 "jti-1")))

/-- Logged out on a whole second, and once more on another. -/
theorem logout_on_second :
    Always (serve asciiPlatform) (fun w => NeverAccepted w (adminSession 1 "jti-1") 100)
      (serve asciiPlatform signedUp (logoutAt 100 "jti-2")) [logoutAt 200 "jti-3"] :=
  (revoked_never_accepted_iff asciiPlatform (plainEnvAt 100 "jti-2") signedUp (adminSession 1 "jti-1")
    (.logout (.jwt (adminSession 1 "jti-1"))) [logoutAt 200 "jti-3"] ⟨rfl, by decide +kernel⟩ (by decide) (by decide)
    rfl).mpr ⟨Or.inl ⟨100, rfl⟩, not_shortens_on_second (show (200 : ℚ) = (200 : ℤ) from rfl), trivial⟩

/-- A session that is logged out half a second after a whole one is good again in its last half second. -/
theorem logout_between_seconds :
    ¬ NeverAccepted (serve asciiPlatform signedUp (logoutAt (201 / 2) "jti-2")) (adminSession 1 "jti-1")
      (201 / 2) := by
  intro h
  have hlate := h (plainEnvAt (7199 / 4) "jti-3") rfl (by decide +kernel)
  revert hlate
  decide +kernel

/-! ## Single use -/

/-- Requests that present one token succeed once, as long as no check falls between the check and the denylist
write of another request or after the entry of one has run out. -/
theorem token_used_once (p : Platform) (claims : Claims) (requests : ℕ → Redemption) (w : World)
    (events : List (Env × ℕ)) (hjti : claims.jti ≠ "") (hexp : claims.exp ≠ 0)
    (hredis : ∀ event ∈ events, event.1.redisUp = true)
    (hevents : Each (advance p (.jwt claims) requests) (ChecksApart claims.exp) (.start w) events) :
    Always (advance p (.jwt claims) requests) UsedOnce (.start w) events :=
  usedOnce_run (single_start claims w) hjti hexp hredis hevents

def bothReset (_ : ℕ) : Redemption := .reset "ijklmnop"

def oneByOne : List (Env × ℕ) :=
  List.replicate 4 (plainEnvAt 60 "jti-5", 0) ++ List.replicate 4 (plainEnvAt 61 "jti-6", 1)

/-- Both requests check the token before either of them writes the denylist. -/
def sideBySide : List (Env × ℕ) :=
  [(plainEnvAt 60 "jti-5", 0), (plainEnvAt 60 "jti-6", 1), (plainEnvAt 60 "jti-5", 0),
    (plainEnvAt 60 "jti-5", 0), (plainEnvAt 60 "jti-5", 0), (plainEnvAt 60 "jti-6", 1),
    (plainEnvAt 60 "jti-6", 1), (plainEnvAt 60 "jti-6", 1)]

theorem oneByOne_used_once :
    Always (advance asciiPlatform (.jwt resetLink) bothReset) UsedOnce (.start askedWorld) oneByOne := by
  refine token_used_once asciiPlatform resetLink bothReset askedWorld oneByOne (by decide) (by decide)
    (by decide) (each_append.mpr ⟨checksApart_alone 4 fun _ _ => trivial, ?_⟩)
  rw [advance_alone _ _ rfl]
  refine checksApart_alone 4 fun j hj => ?_
  have hfirst : (handle asciiPlatform (plainEnvAt 60 "jti-5") ((bothReset 0).request (.jwt resetLink))
      askedWorld).1 = .ok .noContent := by decide +kernel
  by_cases hj0 : j = 0
  · subst hj0
    simp only [Function.update_self]
    change (Phase.ofResult 60 (handle asciiPlatform (plainEnvAt 60 "jti-5")
      ((bothReset 0).request (.jwt resetLink)) askedWorld).1).Apart 3600 61
    rw [hfirst]
    exact Or.inl (by decide +kernel)
  · simp only [ne_eq, hj0, not_false_eq_true, Function.update_of_ne]
    trivial

/-- Both requests set the password with one link. -/
theorem sideBySide_used_twice :
    ¬ Always (advance asciiPlatform (.jwt resetLink) bothReset) UsedOnce (.start askedWorld) sideBySide := by
  intro h
  have hsame := h.last 0 1 (by decide +kernel) (by decide +kernel)
  cases hsame

end NeuralSoc.Tokens
