import NeuralSoc.Api.Auth
import Mathlib.Logic.Function.Basic

/-!
# Requests that race for a token

`verify_mfa` and `confirm_password_reset` check their token against the denylist, work on the database, write
the denylist and finish. Requests that present one token take these stages in any order.
-/

namespace NeuralSoc.Tokens

open Handler Api

variable (p : Platform) (env : Env)

/-! ## Stages -/

/-- The requests that consume their token. -/
inductive Redemption where
  | mfa (code : String)
  | reset (newPassword : String)

namespace Redemption

def request (token : Token) : Redemption → Request
  | .mfa code => .verifyMfa token code
  | .reset newPassword => .confirmPasswordReset token newPassword

def check (token : Token) : Redemption → Route Claims
  | .mfa _ => do
      ensure (!env.limited) rateLimited
      purposeToken env invalidChallenge "mfa_pending" token
  | .reset newPassword => do
      let _ ← expect unprocessable (validatePassword newPassword)
      purposeToken env invalidResetToken "password_reset" token

def work (claims : Claims) : Redemption → Route (ℕ × User)
  | .mfa code => do
      let w ← get
      let (id, user) ← expect invalidChallenge ((userById w claims.userId).filter fun e => e.2.isActive)
      ensure (user.mfaEnabled && (user.totpSecret.getD "") ≠ "") invalidChallenge
      if !codeMatches p user code then do
        recordAuditEvent env "mfa.verify_failed" (userFields id user)
        throw invalidChallenge
      else return (id, user)
  | .reset newPassword => do
      let w ← get
      let (id, user) ← expect invalidResetToken (userById w claims.userId)
      modify (World.updateUser id fun u =>
        { u with passwordHash := p.hashPassword env.salt newPassword, isActive := true })
      return (id, user)

def finish (id : ℕ) (user : User) : Redemption → Route Response
  | .mfa _ => completeLogin p env id user (some "mfa")
  | .reset _ => do
      recordAuditEvent env (if user.isActive then "password_reset.confirmed" else "invite.accepted")
        (userFields id user)
      return .noContent

/-- The stages of one request without a break. -/
def redeem (token : Token) (r : Redemption) : Route Response := do
  let claims ← check env token r
  let (id, user) ← work p env claims r
  consume env claims
  finish p env id user r

end Redemption

/-! ## Races -/

/-- How far a request has come. `since` is the instant of its denylist write. -/
inductive Phase where
  | waiting
  | checked (claims : Claims)
  | worked (claims : Claims) (id : ℕ) (user : User)
  | consumed (since : ℚ) (id : ℕ) (user : User)
  | succeeded (since : ℚ) (response : Response)
  | failed (e : HttpError)

structure Race where
  world : World
  phase : ℕ → Phase

def settle {α : Type} (next : α → Phase) : Except HttpError α × World → Phase × World
  | (.ok a, w) => (next a, w)
  | (.error e, w) => (.failed e, w)

def stage (token : Token) (r : Redemption) (w : World) : Phase → Phase × World
  | .waiting => settle .checked (r.check env token w)
  | .checked claims => settle (fun found => .worked claims found.1 found.2) (r.work p env claims w)
  | .worked claims id user => settle (fun _ => .consumed env.now id user) (consume env claims w)
  | .consumed since id user => settle (.succeeded since) (r.finish p env id user w)
  | phase => (phase, w)

def advance (token : Token) (requests : ℕ → Redemption) (s : Race) (event : Env × ℕ) : Race :=
  let next := stage p event.1 token (requests event.2) s.world (s.phase event.2)
  ⟨next.2, Function.update s.phase event.2 next.1⟩

def Phase.ofResult (since : ℚ) : Except HttpError Response → Phase
  | .ok response => .succeeded since response
  | .error e => .failed e

def Race.start (w : World) : Race := ⟨w, fun _ => .waiting⟩

/-! ## Properties -/

def Phase.Succeeded : Phase → Prop
  | .succeeded _ _ => True
  | _ => False

instance (phase : Phase) : Decidable phase.Succeeded :=
  match phase with
  | .succeeded _ _ => .isTrue trivial
  | .waiting => .isFalse id
  | .checked _ => .isFalse id
  | .worked _ _ _ => .isFalse id
  | .consumed _ _ _ => .isFalse id
  | .failed _ => .isFalse id

/-- At most one request has succeeded. -/
def UsedOnce (s : Race) : Prop :=
  ∀ i j, (s.phase i).Succeeded → (s.phase j).Succeeded → i = j

/-- The entry of a denylist write is there at the instant, or the token has expired. -/
def Covered (exp : ℤ) (now since : ℚ) : Prop :=
  0 < truncate (exp - since) ∧ now ≤ since + truncate (exp - since) ∨ exp ≤ now

/-- A check at the instant does not meet the request between its own check and its denylist write, nor after
its entry has run out. -/
def Phase.Apart (exp : ℤ) (now : ℚ) : Phase → Prop
  | .checked _ => False
  | .worked _ _ _ => False
  | .consumed since _ _ => Covered exp now since
  | .succeeded since _ => Covered exp now since
  | _ => True

/-- The checks of the run stay apart from the other requests. -/
def ChecksApart (exp : ℤ) (s : Race) (event : Env × ℕ) : Prop :=
  s.phase event.2 = .waiting → ∀ j, (s.phase j).Apart exp event.1.now

end NeuralSoc.Tokens
