import NeuralSoc.Api.Auth
import Mathlib.Logic.Function.Basic

/-!
# Signups side by side

`signup` commits the tenant and its first user one after the other. Any number of signups take their stages in
any order, and the database may fail in each of them. Nothing deletes a tenant, so the queries of
`_unique_tenant_slug` are taken at the instant of the last one.
-/

namespace NeuralSoc.Signups

open Handler Api

variable (p : Platform) (env : Env)

/-! ## Stages -/

/-- A `SignupRequest`. -/
structure Body where
  tenantName : String
  email : String
  password : String

namespace Body

/-- The validated body, when nobody has its e-mail. -/
def check (body : Body) : Route Body := do
  let tenantName ← expect unprocessable (validateTenantName body.tenantName)
  let email ← expect unprocessable (validateEmail p body.email)
  let password ← expect unprocessable (validatePassword body.password)
  ensure (!env.limited) rateLimited
  let w ← get
  ensure (w.userByEmail email).isNone emailTaken
  return ⟨tenantName, email, password⟩

def chooseSlug (body : Body) : Route String := do
  let w ← get
  expect internalError (uniqueTenantSlug p env w body.tenantName)

/-- The first commit; `tenants.slug` is unique. -/
def commitTenant (body : Body) (slug : String) : Route ℕ := do
  let w ← get
  ensure (w.tenants.values.all fun t => t.slug ≠ slug) internalError
  modify (World.addTenant ⟨body.tenantName, slug⟩)
  return freshId w.tenants

/-- The second commit; `users.email` is unique. -/
def commitUser (body : Body) (tenantId : ℕ) : Route (ℕ × User) := do
  let w ← get
  ensure (w.userByEmail body.email).isNone internalError
  let user : User :=
    ⟨tenantId, body.email, p.hashPassword env.salt body.password, .admin, true, env.now, none, none, false⟩
  modify (World.addUser user)
  return (freshId w.users, user)

def finish (slug : String) (id : ℕ) (user : User) : Route Response := do
  recordAuditEvent env "signup"
    { tenantId := some user.tenantId, actorUserId := some id, actorLabel := some user.email,
      target := some slug }
  let token ← issueSessionToken p env id user
  return .token token user.tenantId user.role

/-- The stages of one signup without a break. -/
def signup (body : Body) : Route Response := do
  let body ← check p env body
  let slug ← chooseSlug p env body
  let tenantId ← commitTenant body slug
  let (id, user) ← commitUser p env body tenantId
  finish p env slug id user

end Body

/-! ## Interleavings -/

inductive Phase where
  | waiting
  | checked (body : Body)
  | named (body : Body) (slug : String)
  | opened (body : Body) (slug : String) (tenantId : ℕ)
  | joined (slug : String) (id : ℕ) (user : User)
  | succeeded (response : Response)
  | failed (e : HttpError)

structure State where
  world : World
  phase : ℕ → Phase

/-- The next stage of a signup. `answers` says whether the database does what it is asked in it. -/
structure Event where
  env : Env
  answers : Bool
  signup : ℕ

def settle {α : Type} (next : α → Phase) : Except HttpError α × World → Phase × World
  | (.ok a, w) => (next a, w)
  | (.error e, w) => (.failed e, w)

/-- A failure of the database ends the request and leaves what has been committed. -/
def Event.guard {α : Type} (event : Event) (m : Route α) : Route α :=
  if event.answers then m else throw internalError

def stage (event : Event) (body : Body) (w : World) : Phase → Phase × World
  | .waiting => settle .checked (event.guard (body.check p event.env) w)
  | .checked body => settle (.named body) (event.guard (body.chooseSlug p event.env) w)
  | .named body slug => settle (.opened body slug) (event.guard (body.commitTenant slug) w)
  | .opened body slug tenantId =>
      settle (fun found => .joined slug found.1 found.2) (event.guard (body.commitUser p event.env tenantId) w)
  | .joined slug id user => settle .succeeded (event.guard (Body.finish p event.env slug id user) w)
  | phase => (phase, w)

def advance (bodies : ℕ → Body) (s : State) (event : Event) : State :=
  let next := stage p event (bodies event.signup) s.world (s.phase event.signup)
  ⟨next.2, Function.update s.phase event.signup next.1⟩

def State.start (w : World) : State := ⟨w, fun _ => .waiting⟩

/-! ## Properties -/

def Phase.Settled : Phase → Prop
  | .waiting => True
  | .succeeded _ => True
  | .failed _ => True
  | _ => False

instance (phase : Phase) : Decidable phase.Settled :=
  match phase with
  | .waiting => .isTrue trivial
  | .succeeded _ => .isTrue trivial
  | .failed _ => .isTrue trivial
  | .checked _ => .isFalse id
  | .named _ _ => .isFalse id
  | .opened _ _ _ => .isFalse id
  | .joined _ _ _ => .isFalse id

/-- Every tenant has a user with the admin role. -/
def Administered (w : World) : Prop :=
  ∀ tenantId t, w.tenants.get? tenantId = some t →
    ∃ id u, w.users.get? id = some u ∧ u.tenantId = tenantId ∧ u.role = .admin

/-- When no signup is in progress. -/
def Atomic (s : State) : Prop := (∀ i, (s.phase i).Settled) → Administered s.world

/-- A signup that has committed its tenant commits its user: the database answers, and nobody has taken the
e-mail meanwhile. -/
def CommitsUser (s : State) (event : Event) : Prop :=
  ∀ body slug tenantId, s.phase event.signup = .opened body slug tenantId →
    event.answers = true ∧ s.world.userByEmail body.email = none

end NeuralSoc.Signups
