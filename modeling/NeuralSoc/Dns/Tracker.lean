import Mathlib.Data.Finset.Max
import NeuralSoc.Base.Expiring
import NeuralSoc.Base.Value

/-!
# The DNS behaviour of a host

`inference/dns_behavior.py`: the domains a host has queried and the responses it got, in Redis keys whose
time to live every write renews. Redis answers every command.
-/

namespace NeuralSoc.Dns

def maxTrackedDomains : ℕ := 200

def distinctDomainBurstThreshold : ℕ := 40

def nxdomainRateThreshold : ℚ := 1 / 2

def minResponsesForNxdomainRate : ℕ := 8

def validateSourceIp (rt : Runtime) (rawIp : String) : Option String := normalizeIp rt rawIp

/-- The keys named after one address. -/
structure HostKeys where
  /-- `{ip}:dns_domains` -/
  domains : Expiring (Finset String)
  /-- `{ip}:dns_responses` -/
  responses : Expiring ℕ
  /-- `{ip}:dns_nxdomain` -/
  nxdomain : Expiring ℕ

def HostKeys.absent : HostKeys := ⟨.absent, .absent, .absent⟩

abbrev Redis := String → HostKeys

structure DnsBehaviorTracker where
  windowSeconds : ℤ := 60

/-- The random member that SPOP takes. -/
structure Choice where
  pick : Finset String → String
  pick_mem : ∀ s : Finset String, s.Nonempty → pick s ∈ s

def spop (choice : Choice) (members : Finset String) : Finset String := members.erase (choice.pick members)

variable (rt : Runtime) (tracker : DnsBehaviorTracker) (now : ℚ)

/-- The commands of `record_query` on the key of one host: SADD, EXPIRE, SCARD and perhaps SPOP. -/
def recordDomain (choice : Choice) (domain : String) (key : Expiring (Finset String)) :
    Expiring (Finset String) :=
  let key := (key.modify now (insert domain)).expire now tracker.windowSeconds
  if (key.read now).card > maxTrackedDomains then key.modify now (spop choice) else key

def recordQuery (choice : Choice) (sourceIp domain : String) (redis : Redis) : Redis :=
  match validateSourceIp rt sourceIp with
  | none => redis
  | some safeIp =>
      if safeIp = "" || domain = "" then redis
      else Function.update redis safeIp
        { redis safeIp with domains := recordDomain tracker now choice domain (redis safeIp).domains }

/-- INCR and EXPIRE. -/
def count (key : Expiring ℕ) : Expiring ℕ := (key.modify now (· + 1)).expire now tracker.windowSeconds

/-- The pipeline of `record_response`, one MULTI. -/
def recordAnswer (isNxdomain : Bool) (keys : HostKeys) : HostKeys :=
  { keys with
    responses := count tracker now keys.responses
    nxdomain := if isNxdomain then count tracker now keys.nxdomain else keys.nxdomain }

def recordResponse (sourceIp : String) (isNxdomain : Bool) (redis : Redis) : Redis :=
  match validateSourceIp rt sourceIp with
  | none => redis
  | some safeIp =>
      if safeIp = "" then redis
      else Function.update redis safeIp (recordAnswer tracker now isNxdomain (redis safeIp))

structure Stats where
  distinctDomains : ℕ
  nxdomainRate : ℚ
  totalResponses : ℕ
  deriving DecidableEq, Repr

def HostKeys.stats (keys : HostKeys) : Stats :=
  let total := keys.responses.read now
  let nx := keys.nxdomain.read now
  ⟨(keys.domains.read now).card, if total > 0 then nx / total else 0, total⟩

def getStats (sourceIp : String) (redis : Redis) : Stats :=
  match validateSourceIp rt sourceIp with
  | none => ⟨0, 0, 0⟩
  | some safeIp => if safeIp = "" then ⟨0, 0, 0⟩ else (redis safeIp).stats now

/-- `is_burst`, its reason and the statistics. -/
def isBurst (sourceIp : String) (redis : Redis) : Bool × Option String × Stats :=
  let stats := getStats rt now sourceIp redis
  if stats.distinctDomains ≥ distinctDomainBurstThreshold then (true, some "distinct_domain_burst", stats)
  else if stats.totalResponses ≥ minResponsesForNxdomainRate && stats.nxdomainRate ≥ nxdomainRateThreshold then
    (true, some "high_nxdomain_rate", stats)
  else (false, none, stats)

/-! ## Runs -/

structure Query where
  now : ℚ
  sourceIp : String
  domain : String
  choice : Choice

def serveQuery (redis : Redis) (q : Query) : Redis :=
  recordQuery rt tracker q.now q.choice q.sourceIp q.domain redis

/-- A call of `record_response`, or the removal of a key whose time to live has elapsed. -/
inductive Event where
  | response (sourceIp : String) (isNxdomain : Bool)
  | dropResponses (safeIp : String)
  | dropNxdomain (safeIp : String)

def serveEvent (redis : Redis) (e : ℚ × Event) : Redis :=
  match e.2 with
  | .response sourceIp isNxdomain => recordResponse rt tracker e.1 sourceIp isNxdomain redis
  | .dropResponses safeIp => Function.update redis safeIp
      { redis safeIp with responses := (redis safeIp).responses.purge e.1 }
  | .dropNxdomain safeIp => Function.update redis safeIp
      { redis safeIp with nxdomain := (redis safeIp).nxdomain.purge e.1 }

def noKeys : Redis := fun _ => .absent

end NeuralSoc.Dns
