import NeuralSoc.Base.Dict
import NeuralSoc.Base.Handler
import NeuralSoc.Base.Value

/-!
# Users, tokens and the state of the API

The two tables, the keys in Redis and what leaves the API. Times are in seconds. A signed token is its
claims, and its signature is right when the API has issued it.
-/

namespace NeuralSoc.Api

/-! ## Rows -/

inductive Role where
  | analyst
  | lead
  | admin
  deriving DecidableEq, Repr

def Role.text : Role → String
  | .analyst => "analyst"
  | .lead => "lead"
  | .admin => "admin"

/-- `VALID_ROLES` -/
def validRole (text : String) : Option Role := [Role.analyst, .lead, .admin].find? fun r => r.text = text

def roleScopes : Role → List String
  | .analyst => ["alerts:read", "stats:read", "triage:write"]
  | .lead => ["alerts:read", "stats:read", "triage:write"]
  | .admin => ["alerts:read", "stats:read", "triage:write", "users:manage"]

structure Tenant where
  name : String
  slug : String
  deriving DecidableEq

structure User where
  tenantId : ℕ
  email : String
  passwordHash : String
  role : Role
  isActive : Bool
  createdAt : ℚ
  lastLoginAt : Option ℚ
  totpSecret : Option String
  mfaEnabled : Bool
  deriving DecidableEq

/-! ## Tokens -/

/-- The payload of a JWT. -/
structure Claims where
  sub : String
  scopes : List String
  iat : ℤ
  exp : ℤ
  jti : String
  tenantId : Option ℕ
  userId : Option ℕ
  purpose : Option String
  deriving DecidableEq

/-- What a request presents as a credential or in its body. -/
inductive Token where
  | apiKey
  | jwt (claims : Claims)
  | text (s : String)
  deriving DecidableEq

/-! ## State -/

structure AuditEvent where
  action : String
  tenantId : Option ℕ
  actorUserId : Option ℕ
  actorLabel : Option String
  target : Option String
  detail : Option String
  ipAddress : String
  createdAt : ℚ
  deriving DecidableEq

structure Mail where
  recipient : String
  subject : String
  token : Claims
  deriving DecidableEq

/-- The counter of an e-mail address and the instant its key expires. -/
structure LoginFailures where
  email : String
  count : ℕ
  expires : ℚ
  deriving DecidableEq

structure World where
  tenants : Dict ℕ Tenant
  users : Dict ℕ User
  issued : List Claims
  denylist : List (String × ℚ)
  loginFailures : List LoginFailures
  audit : List AuditEvent
  mail : List Mail

/-- The next value of a primary key. -/
def freshId {α : Type} (table : Dict ℕ α) : ℕ := (table.entries.map Prod.fst).foldr max 0 + 1

def World.addUser (u : User) (w : World) : World := { w with users := w.users.set (freshId w.users) u }

def World.addTenant (t : Tenant) (w : World) : World :=
  { w with tenants := w.tenants.set (freshId w.tenants) t }

/-- An UPDATE of the row with this primary key. -/
def World.updateUser (id : ℕ) (f : User → User) (w : World) : World :=
  match w.users.get? id with
  | some u => { w with users := w.users.set id (f u) }
  | none => w

def World.userByEmail (email : String) (w : World) : Option (ℕ × User) :=
  w.users.entries.find? fun e => e.2.email = email

/-! ## Requests -/

/-- The libraries. `totpVerify` takes the secret and the code. -/
structure Platform where
  lower : String → String
  hashPassword : String → String → String
  verifyPassword : String → String → Bool
  totpVerify : String → String → Bool
  jwtExpiryMin : ℕ

/-- What a request meets: the clock, the rate limiter, Redis, the audit log, and the random values drawn for it. -/
structure Env where
  now : ℚ
  limited : Bool
  redisUp : Bool
  auditUp : Bool
  jti : String
  salt : String
  placeholder : String
  secret : String
  slugSuffixes : List String
  clientIp : String

structure HttpError where
  status : ℕ
  detail : String
  deriving DecidableEq

abbrev Route (α : Type) := Handler World HttpError α

end NeuralSoc.Api
