import NeuralSoc.Api.Models
import Mathlib.Algebra.Order.Field.Rat

/-!
# Tokens, revocation, lockout and the audit log

`api/auth.py`, the parts of `api/deps.py` the authentication routes use, and `record_audit_event`. A
Redis call that fails is logged and read as "no": not revoked, not locked out, nothing recorded. A key is there
up to and at its deadline.
-/

namespace NeuralSoc.Api

open Handler

variable (p : Platform) (env : Env)

/-! ## Tokens -/

def createToken (scopes : List String) (subject : Option String) (tenantId userId : Option ℕ)
    (purpose : Option String) (expiryMinutes : Option ℕ) : Route Claims := do
  let claims : Claims :=
    { sub := match subject with
        | some s => if s = "" then "tsoc-service" else s
        | none => "tsoc-service"
      scopes
      iat := env.now.floor
      exp := (env.now + (expiryMinutes.getD p.jwtExpiryMin : ℚ) * 60).floor
      jti := env.jti
      tenantId
      userId
      purpose }
  modify fun w => { w with issued := w.issued ++ [claims] }
  return claims

/-- The claims of a token with a good signature that has not expired. -/
def verifyToken (w : World) : Token → Option Claims
  | .jwt claims => if claims ∈ w.issued ∧ env.now < claims.exp then some claims else none
  | _ => none

/-! ## Redis -/

/-- `int(x)` of a float. -/
def truncate (q : ℚ) : ℤ := if 0 ≤ q then q.floor else q.ceil

/-- `SET key 1 EX ttl` replaces an older entry and its expiry. -/
def revokeJti (jti : String) (ttlSeconds : ℤ) : Route Unit :=
  modify fun w =>
    if ttlSeconds ≤ 0 || !env.redisUp then w
    else { w with denylist := (jti, env.now + ttlSeconds) :: w.denylist.filter fun e => e.1 ≠ jti }

def isTokenRevoked (w : World) (jti : String) : Bool :=
  jti ≠ "" && env.redisUp && w.denylist.any fun e => e.1 = jti && env.now ≤ e.2

/-- Consume a token for the rest of its life. -/
def consume (claims : Claims) : Route Unit :=
  if claims.jti ≠ "" && claims.exp ≠ 0 then revokeJti env claims.jti (truncate (claims.exp - env.now))
  else pure ()

def loginLockoutMaxAttempts : ℕ := 5

def loginLockoutWindowSec : ℚ := 900

def failureCount (w : World) (email : String) : Option LoginFailures :=
  w.loginFailures.find? fun f => f.email = p.lower email && env.now ≤ f.expires

def dropFailures (email : String) (w : World) : World :=
  { w with loginFailures := w.loginFailures.filter fun f => f.email ≠ p.lower email }

def recordFailedLogin (email : String) : Route Unit :=
  modify fun w =>
    if !env.redisUp then w
    else
      let next : LoginFailures :=
        match failureCount p env w email with
        | some f => { f with count := f.count + 1 }
        | none => ⟨p.lower email, 1, env.now + loginLockoutWindowSec⟩
      let w := dropFailures p email w
      { w with loginFailures := next :: w.loginFailures }

def clearFailedLogins (email : String) : Route Unit :=
  modify fun w => if env.redisUp then dropFailures p email w else w

def isLockedOut (w : World) (email : String) : Bool :=
  env.redisUp &&
    match failureCount p env w email with
    | some f => f.count ≥ loginLockoutMaxAttempts
    | none => false

/-! ## Authentication -/

structure Principal where
  sub : String
  scopes : List String
  tenantId : Option ℕ
  userId : Option ℕ
  deriving DecidableEq

def invalidToken : HttpError := ⟨401, "Invalid or missing API Key / Authorization Token"⟩

/-- The static service key holds every scope and has no user. -/
def authenticate (token : Token) : Route Principal :=
  match token with
  | .apiKey => return ⟨"service-key", ["*"], none, none⟩
  | token => do
      let w ← get
      let claims ← expect invalidToken (verifyToken env w token)
      ensure (!isTokenRevoked env w claims.jti) ⟨401, "Token has been revoked"⟩
      return ⟨claims.sub, claims.scopes, claims.tenantId, claims.userId⟩

def verifyAuth (credentials : Option Token) : Route Principal := do
  let token ← expect invalidToken credentials
  authenticate env token

def requireScope (requiredScope : String) (credentials : Option Token) : Route Principal := do
  let principal ← verifyAuth env credentials
  ensure (principal.scopes.contains requiredScope || principal.scopes.contains "*")
    ⟨403, "Token lacks required scope: " ++ requiredScope⟩
  return principal

/-! ## Audit -/

structure AuditFields where
  tenantId : Option ℕ := none
  actorUserId : Option ℕ := none
  actorLabel : Option String := none
  target : Option String := none
  detail : Option String := none

/-- A write that fails is rolled back and logged; what the route has committed before it stays. -/
def recordAuditEvent (action : String) (fields : AuditFields) : Route Unit :=
  modify fun w =>
    if !env.auditUp then w
    else { w with
      audit := w.audit ++ [⟨action, fields.tenantId, fields.actorUserId, fields.actorLabel, fields.target,
        fields.detail, env.clientIp, env.now⟩] }

end NeuralSoc.Api
