import NeuralSoc.Api.Deps

/-!
# The authentication routes

`api/routes/auth.py`. A request is handled in one go, and the database does what it is told. Invalid bodies
are refused before the rate limiter is asked. The texts of the e-mails are left out, and `otpauth_uri` is
left as the arguments of `provisioning_uri`.
-/

namespace NeuralSoc.Api

open Handler

variable (p : Platform) (env : Env)

def resetTokenExpiryMin : ℕ := 60

def inviteTokenExpiryMin : ℕ := 60 * 24 * 7

def mfaPendingExpiryMin : ℕ := 5

def minPasswordLength : ℕ := 8

/-! ## Validation of the bodies -/

def validateEmail (value : String) : Option String :=
  let value := p.lower (strip value)
  if !value.toList.contains '@' || value.toList.head? = some '@' || value.toList.getLast? = some '@' then
    none
  else some value

def validatePassword (value : String) : Option String :=
  if value.length < minPasswordLength then none else some value

def validateTenantName (value : String) : Option String :=
  let value := strip value
  if value = "" then none else some value

/-! ## Tenant slugs -/

def isSlugChar (c : Char) : Bool := ('a' ≤ c && c ≤ 'z') || ('0' ≤ c && c ≤ '9')

/-- `_SLUG_SANITIZE_RE.sub("-", text)`: a run of other characters becomes one hyphen. -/
def sanitize (inRun : Bool) : List Char → List Char
  | [] => []
  | c :: cs =>
      if isSlugChar c then c :: sanitize false cs
      else if inRun then sanitize true cs
      else '-' :: sanitize true cs

def isHyphen (c : Char) : Bool := c = '-'

def slugify (name : String) : String :=
  let slug := sanitize false (p.lower (strip name)).toList
  let slug := String.ofList ((slug.dropWhile isHyphen).reverse.dropWhile isHyphen).reverse
  if slug = "" then "tenant" else slug

def uniqueTenantSlug (w : World) (name : String) : Option String :=
  let base := slugify p name
  (base :: env.slugSuffixes.map fun hex => base ++ "-" ++ hex).find? fun slug =>
    w.tenants.values.all fun t => t.slug ≠ slug

/-! ## Responses -/

structure UserSummary where
  id : ℕ
  email : String
  role : Role
  isActive : Bool
  createdAt : ℚ
  lastLoginAt : Option ℚ
  deriving DecidableEq

inductive Response where
  | token (accessToken : Claims) (tenantId : ℕ) (role : Role)
  | mfaRequired (mfaToken : Claims)
  | mfaEnroll (secret name issuerName : String)
  | noContent
  | me (summary : UserSummary) (tenantId : ℕ) (mfaEnabled : Bool)
  | users (summaries : List UserSummary)
  | invited (id : ℕ) (email : String) (role : Role)
  | detail (text : String)
  deriving DecidableEq

def unprocessable : HttpError := ⟨422, "Unprocessable Entity"⟩

def rateLimited : HttpError := ⟨429, "Rate limit exceeded"⟩

def emailTaken : HttpError := ⟨409, "A user with that email already exists"⟩

def internalError : HttpError := ⟨500, "Internal Server Error"⟩

def issueSessionToken (id : ℕ) (user : User) : Route Claims :=
  createToken p env (roleScopes user.role) (some (toString id)) (some user.tenantId) (some id) none none

/-! ## Signup and login -/

def signup (tenantName email password : String) : Route Response := do
  let tenantName ← expect unprocessable (validateTenantName tenantName)
  let email ← expect unprocessable (validateEmail p email)
  let password ← expect unprocessable (validatePassword password)
  ensure (!env.limited) rateLimited
  let w ← get
  ensure (w.userByEmail email).isNone emailTaken
  let slug ← expect internalError (uniqueTenantSlug p env w tenantName)
  modify (World.addTenant ⟨tenantName, slug⟩)
  let tenantId := freshId w.tenants
  let user : User := ⟨tenantId, email, p.hashPassword env.salt password, .admin, true, env.now, none, none, false⟩
  modify (World.addUser user)
  let id := freshId w.users
  recordAuditEvent env "signup"
    { tenantId := some tenantId, actorUserId := some id, actorLabel := some email, target := some slug }
  let token ← issueSessionToken p env id user
  return .token token tenantId user.role

def invalidCredentials : HttpError := ⟨401, "Invalid email or password"⟩

def lockedOut : HttpError := ⟨429, "Too many failed attempts. Try again later."⟩

def userFields (id : ℕ) (user : User) : AuditFields :=
  { tenantId := some user.tenantId, actorUserId := some id, actorLabel := some user.email }

def completeLogin (id : ℕ) (user : User) (detail : Option String) : Route Response := do
  modify (World.updateUser id fun u => { u with lastLoginAt := some env.now })
  recordAuditEvent env "login.success" { userFields id user with detail }
  let token ← issueSessionToken p env id user
  return .token token user.tenantId user.role

def challenge (id : ℕ) (user : User) : Route Response := do
  let mfaToken ← createToken p env [] (some (toString id)) (some user.tenantId) (some id)
    (some "mfa_pending") (some mfaPendingExpiryMin)
  recordAuditEvent env "login.mfa_challenge" (userFields id user)
  return .mfaRequired mfaToken

def failLogin (email : String) (fields : AuditFields) : Route Response := do
  recordFailedLogin p env email
  recordAuditEvent env "login.failure" fields
  throw invalidCredentials

def refuseLogin (email : String) : Route Response := do
  recordAuditEvent env "login.locked_out" { actorLabel := some email }
  throw lockedOut

def login (email password : String) : Route Response := do
  let email ← expect unprocessable (validateEmail p email)
  ensure (!env.limited) rateLimited
  let w ← get
  if isLockedOut p env w email then refuseLogin env email
  else
    match (w.userByEmail email).filter fun e => e.2.isActive with
    | none => failLogin p env email { actorLabel := some email }
    | some (id, user) =>
        if !p.verifyPassword user.passwordHash password then failLogin p env email (userFields id user)
        else do
          clearFailedLogins p env email
          if user.mfaEnabled then challenge p env id user else completeLogin p env id user none

/-! ## MFA -/

def invalidChallenge : HttpError := ⟨401, "Invalid or expired MFA challenge"⟩

/-- A code is checked against the secret; there is always one where MFA is enabled. -/
def codeMatches (user : User) (code : String) : Bool :=
  match user.totpSecret with
  | some secret => p.totpVerify secret code
  | none => false

def userById (w : World) (id : Option ℕ) : Option (ℕ × User) :=
  id.bind fun id => (w.users.get? id).map fun user => (id, user)

def failVerification (id : ℕ) (user : User) : Route Response := do
  recordAuditEvent env "mfa.verify_failed" (userFields id user)
  throw invalidChallenge

/-- A token from the body of a request, for one purpose and not consumed yet. -/
def purposeToken (e : HttpError) (purpose : String) (token : Token) : Route Claims := do
  let w ← get
  let claims ← expect e (verifyToken env w token)
  ensure (claims.purpose = some purpose) e
  ensure (!isTokenRevoked env w claims.jti) e
  return claims

def verifyMfa (mfaToken : Token) (code : String) : Route Response := do
  ensure (!env.limited) rateLimited
  let claims ← purposeToken env invalidChallenge "mfa_pending" mfaToken
  let w ← get
  let (id, user) ← expect invalidChallenge ((userById w claims.userId).filter fun e => e.2.isActive)
  ensure (user.mfaEnabled && (user.totpSecret.getD "") ≠ "") invalidChallenge
  if !codeMatches p user code then failVerification env id user
  else do
    consume env claims
    completeLogin p env id user (some "mfa")

def enrollMfa (credentials : Option Token) : Route Response := do
  let principal ← requireScope env "users:manage" credentials
  let w ← get
  let (id, user) ← expect ⟨404, "User not found"⟩ (userById w principal.userId)
  modify (World.updateUser id fun u => { u with totpSecret := some env.secret })
  recordAuditEvent env "mfa.enroll_started" (userFields id user)
  return .mfaEnroll env.secret user.email "T-SOC"

def confirmMfa (credentials : Option Token) (code : String) : Route Response := do
  let principal ← requireScope env "users:manage" credentials
  let w ← get
  let (id, user) ← expect ⟨400, "No pending MFA enrollment"⟩ (userById w principal.userId)
  ensure ((user.totpSecret.getD "") ≠ "") ⟨400, "No pending MFA enrollment"⟩
  ensure (codeMatches p user code) ⟨400, "Invalid code"⟩
  modify (World.updateUser id fun u => { u with mfaEnabled := true })
  recordAuditEvent env "mfa.enabled" (userFields id user)
  return .noContent

def disableMfa (credentials : Option Token) (code : String) : Route Response := do
  let principal ← requireScope env "users:manage" credentials
  let w ← get
  let (id, user) ← expect ⟨400, "MFA is not enabled"⟩ (userById w principal.userId)
  ensure user.mfaEnabled ⟨400, "MFA is not enabled"⟩
  -- `TOTP(None)` raises
  ensure user.totpSecret.isSome internalError
  ensure (codeMatches p user code) ⟨400, "Invalid code"⟩
  modify (World.updateUser id fun u => { u with mfaEnabled := false, totpSecret := none })
  recordAuditEvent env "mfa.disabled" (userFields id user)
  return .noContent

/-! ## Sessions and passwords -/

def logout (token : Token) : Route Response := do
  let w ← get
  match verifyToken env w token with
  | none => return .noContent
  | some claims => do
      consume env claims
      return .noContent

def summary (id : ℕ) (user : User) : UserSummary :=
  ⟨id, user.email, user.role, user.isActive, user.createdAt, user.lastLoginAt⟩

def getMe (credentials : Option Token) : Route Response := do
  let principal ← requireScope env "alerts:read" credentials
  ensure principal.userId.isSome ⟨400, "No per-employee session to describe"⟩
  let w ← get
  let (id, user) ← expect ⟨404, "User not found"⟩ (userById w principal.userId)
  return .me (summary id user) user.tenantId user.mfaEnabled

def deliverEmail (mail : Mail) : Route Unit := modify fun w => { w with mail := w.mail ++ [mail] }

def sendResetLink (id : ℕ) (user : User) : Route Unit := do
  let token ← createToken p env [] (some (toString id)) none (some id) (some "password_reset")
    (some resetTokenExpiryMin)
  deliverEmail ⟨user.email, "Reset your T-SOC password", token⟩
  recordAuditEvent env "password_reset.requested" (userFields id user)

/-- The answer is the same whether or not there is such a user. -/
def requestPasswordReset (email : String) : Route Response := do
  let email ← expect unprocessable (validateEmail p email)
  let w ← get
  match (w.userByEmail email).filter fun e => e.2.isActive with
  | none => return .detail "If that email exists, a reset link has been sent."
  | some (id, user) => do
      sendResetLink p env id user
      return .detail "If that email exists, a reset link has been sent."

def invalidResetToken : HttpError := ⟨400, "Invalid or expired reset token"⟩

def confirmPasswordReset (token : Token) (newPassword : String) : Route Response := do
  let newPassword ← expect unprocessable (validatePassword newPassword)
  let claims ← purposeToken env invalidResetToken "password_reset" token
  let w ← get
  let (id, user) ← expect invalidResetToken (userById w claims.userId)
  modify (World.updateUser id fun u =>
    { u with passwordHash := p.hashPassword env.salt newPassword, isActive := true })
  consume env claims
  recordAuditEvent env (if user.isActive then "password_reset.confirmed" else "invite.accepted")
    (userFields id user)
  return .noContent

/-! ## Users of a tenant -/

def requireOwnTenant (principal : Principal) (tenantId : ℕ) : Route Unit :=
  ensure (principal.tenantId = some tenantId || principal.scopes.contains "*")
    ⟨403, "Cannot manage another tenant's users"⟩

def inviteUser (credentials : Option Token) (tenantId : ℕ) (email role : String) : Route Response := do
  let principal ← requireScope env "users:manage" credentials
  let email ← expect unprocessable (validateEmail p email)
  let role ← expect unprocessable (validRole role)
  requireOwnTenant principal tenantId
  let w ← get
  ensure (w.userByEmail email).isNone emailTaken
  modify (World.addUser ⟨tenantId, email, p.hashPassword env.salt env.placeholder, role, false, env.now, none, none, false⟩)
  let id := freshId w.users
  recordAuditEvent env "user.invited"
    { tenantId := some tenantId, actorUserId := principal.userId, target := some email,
      detail := some ("role=" ++ role.text) }
  let token ← createToken p env [] (some (toString id)) (some tenantId) (some id) (some "password_reset")
    (some inviteTokenExpiryMin)
  deliverEmail ⟨email, "You've been invited to T-SOC", token⟩
  return .invited id email role

def listUsers (credentials : Option Token) (tenantId : ℕ) : Route Response := do
  let principal ← requireScope env "users:manage" credentials
  requireOwnTenant principal tenantId
  let w ← get
  let rows := w.users.entries.filter fun e => e.2.tenantId = tenantId
  let rows := rows.mergeSort fun a b => a.2.createdAt ≤ b.2.createdAt
  return .users (rows.map fun e => summary e.1 e.2)

def deactivateUser (credentials : Option Token) (tenantId userId : ℕ) : Route Response := do
  let principal ← requireScope env "users:manage" credentials
  requireOwnTenant principal tenantId
  ensure (principal.userId ≠ some userId) ⟨400, "Cannot deactivate your own account"⟩
  let w ← get
  let (id, user) ← expect ⟨404, "User not found"⟩
    ((userById w (some userId)).filter fun e => e.2.tenantId = tenantId)
  modify (World.updateUser id fun u => { u with isActive := false })
  recordAuditEvent env "user.deactivated"
    { tenantId := some tenantId, actorUserId := principal.userId, target := some user.email }
  return .noContent

/-! ## Runs -/

inductive Request where
  | signup (tenantName email password : String)
  | login (email password : String)
  | verifyMfa (mfaToken : Token) (code : String)
  | enrollMfa (credentials : Option Token)
  | confirmMfa (credentials : Option Token) (code : String)
  | disableMfa (credentials : Option Token) (code : String)
  | logout (token : Token)
  | getMe (credentials : Option Token)
  | requestPasswordReset (email : String)
  | confirmPasswordReset (token : Token) (newPassword : String)
  | inviteUser (credentials : Option Token) (tenantId : ℕ) (email role : String)
  | listUsers (credentials : Option Token) (tenantId : ℕ)
  | deactivateUser (credentials : Option Token) (tenantId userId : ℕ)

def handle : Request → Route Response
  | .signup tenantName email password => signup p env tenantName email password
  | .login email password => login p env email password
  | .verifyMfa mfaToken code => verifyMfa p env mfaToken code
  | .enrollMfa credentials => enrollMfa env credentials
  | .confirmMfa credentials code => confirmMfa p env credentials code
  | .disableMfa credentials code => disableMfa p env credentials code
  | .logout token => logout env token
  | .getMe credentials => getMe env credentials
  | .requestPasswordReset email => requestPasswordReset p env email
  | .confirmPasswordReset token newPassword => confirmPasswordReset p env token newPassword
  | .inviteUser credentials tenantId email role => inviteUser p env credentials tenantId email role
  | .listUsers credentials tenantId => listUsers env credentials tenantId
  | .deactivateUser credentials tenantId userId => deactivateUser env credentials tenantId userId

def serve (w : World) (call : Env × Request) : World := (handle p call.1 call.2 w).2

end NeuralSoc.Api
