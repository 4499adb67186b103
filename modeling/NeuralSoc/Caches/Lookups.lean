import NeuralSoc.Base.Ipv4
import NeuralSoc.Caches.TtlCache
import NeuralSoc.Dga.DomainAge
import NeuralSoc.Playbooks.Generate

/-!
# Lookups over the network

`lookup_age_days` of `inference/domain_age.py` and `_fetch_intel` of `inference/enrichment.py`. Both read the cache,
await a response where they find nothing, and store what they make of it. Any number of them run at a time, and one
that is awaiting a response can be cancelled. The client of `lookup_age_days` follows the redirects of rdap.org: the
requests here are the first ones of the lookups, and a response is the last one.
-/

namespace NeuralSoc.Caches

open Shell

/-- What comes of a request: the client raises, or there is a response. `none` is content that is not JSON. -/
inductive Reply where
  | raised
  | response (status length : ℕ) (json : Option Json)

structure Lookup (ι ο ν : Type*) where
  /-- what the cache answers for a key it does not have -/
  miss : ν
  /-- the answer where nothing is asked for -/
  nothing : ν
  cacheKey : ι → Option String
  requestKey : ι → Option String
  url : String → String
  /-- the answer to what came of a request, and whether it is stored -/
  answer : String → ο → Except Exc (ν × Bool)

/-! ## The age of a domain -/

/-- `isoparse(text)`: the time on the clock and the offset of its zone, in microseconds. -/
structure IsoDate where
  clock : ℤ
  offset : Option ℤ

structure AgeRuntime where
  /-- `text.lower()` -/
  lower : Text → Text
  /-- `dateutil.parser.isoparse(text)`; `none` is an exception -/
  isoparse : String → Option IsoDate

namespace AgeRuntime

variable (rt : AgeRuntime)

def dayMicroseconds : ℚ := 86400000000

/-- `_parse_age_days`. `isoparse` reads ASCII only, so it raises on an unpaired surrogate. -/
def parseAgeDays (eventDate : Json) (now : ℤ) : Json :=
  match eventDate with
  | .str text =>
      if text = "" then .null
      else
        match rt.isoparse text with
        | none => .null
        | some date =>
            .float (PyFloat.max (.fin 0) (.fin ((now - (date.clock - date.offset.getD 0) : ℤ) / dayMicroseconds)))
  | _ => .null

/-- An event of the registration, and the age it gives. -/
def registration (now : ℤ) : Json → Option Json
  | .obj event =>
      if Object.get event "eventAction" = .str "registration" then some (rt.parseAgeDays (Object.get event "eventDate") now)
      else none
  | _ => none

def maxResponseBytes : ℕ := 65536

/-- `_fetch_age_days`, from what came of the request; `now` is the clock while it is read. -/
def fetchAgeDays (reply : Reply) (now : ℤ) : Json :=
  match reply with
  | .raised => .null
  | .response status length json =>
      if status ≠ 200 then .null
      else if maxResponseBytes < length then .null
      else
        match json with
        | some (.obj data) =>
            match (Object.get data "events").or (.arr []) with
            | .arr events => (events.findSome? (rt.registration now)).getD .null
            -- What a text or a dict holds is no dict; other values raise.
            | _ => .null
        | _ => .null

def isUnreserved (c : Char) : Bool := c.isAlphanum || c == '_' || c == '.' || c == '-' || c == '~'

/-- A digit of a percent escape, `0` to `F`. -/
def upperHex (n : ℕ) : Char := if n < 10 then Char.ofNat (48 + n) else Char.ofNat (55 + n)

def escapeByte (byte : UInt8) : List Char := ['%', upperHex (byte.toNat / 16), upperHex (byte.toNat % 16)]

/-- `quote(text, safe="")` -/
def quote (text : String) : String :=
  String.ofList (text.toList.flatMap fun c =>
    if isUnreserved c then [c] else (String.utf8EncodeChar c).flatMap escapeByte)

def rdapUrl (domain : String) : String := "https://rdap.org/domain/" ++ quote domain

def registrable (query : Text) : Option String :=
  (Dga.extractRegistrableDomain rt.lower query).map fun domain => String.ofList (domain.map Char.ofNat)

/-- `lookup_age_days` -/
def lookupAgeDays : Lookup Text (Reply × ℤ) Json where
  miss := .str "MISS"
  nothing := .null
  cacheKey := rt.registrable
  requestKey := rt.registrable
  url := rdapUrl
  answer _ outcome := .ok (rt.fetchAgeDays outcome.1 outcome.2, true)

end AgeRuntime

/-! ## Threat intelligence -/

structure IntelRuntime extends Playbooks.PlaybookRuntime where
  /-- `addr.is_private`: the networks differ between releases of Python -/
  isPrivate : Ipv4 → Bool

namespace IntelRuntime

variable (rt : IntelRuntime)

/-- `100.64.0.0/10` -/
def isShared (x : Ipv4) : Bool := x.a == 100 && 64 ≤ x.b.val && x.b.val < 128

def isGlobal (x : Ipv4) : Bool := !isShared x && !rt.isPrivate x

def isLoopback (x : Ipv4) : Bool := x.a == 127

/-- `169.254.0.0/16` -/
def isLinkLocal (x : Ipv4) : Bool := x.a == 169 && x.b == 254

def isMulticast (x : Ipv4) : Bool := 224 ≤ x.a.val && x.a.val < 240

def isReserved (x : Ipv4) : Bool := 240 ≤ x.a.val

def isUnspecified (x : Ipv4) : Bool := x == ⟨0, 0, 0, 0⟩

def isRefused (x : Ipv4) : Bool :=
  !rt.isGlobal x || rt.isPrivate x || isLoopback x || isLinkLocal x || isMulticast x || isReserved x ||
    isUnspecified x || isShared x || isLinkLocal x

/-- The address as it is asked for. An address of version 6 is refused like a text that is no address. -/
def cleanIp (ip : String) : Option String :=
  match Ipv4.ofString (strip ip) with
  | some addr => if rt.isRefused addr then none else some addr.text
  | none => none

def adapt (fallbackIntel : Playbooks.IpIntel) : Object :=
  [("city", .str "Unknown"), ("country_name", .str fallbackIntel.country), ("org", .str fallbackIntel.asn),
    ("hosting", .bool (points "Bulletproof" <:+: points fallbackIntel.reputation))]

/-- The offline data for an address. -/
def adaptedData (cleanIp : String) : Except Exc Object := do
  return adapt (← Playbooks.enrichIpIntel rt.toPlaybookRuntime (points cleanIp))

/-- The data of a response that is about the address. -/
def accepted (cleanIp : String) (data : Object) : Bool :=
  !data.isEmpty && (data.get "success").truthy && data.get "ip" == .str cleanIp

def fetchIntelReply (cleanIp : String) (reply : Reply) : Except Exc (Object × Bool) :=
  let offline := do return (← rt.adaptedData cleanIp, true)
  match reply with
  | .raised => offline
  | .response status length json =>
      if status < 200 || 300 ≤ status then offline
      else if 65536 < length then .ok ([], false)
      else
        match json with
        | some (.obj data) => if accepted cleanIp data then .ok (data, true) else offline
        | _ => offline

/-- `_fetch_intel`. The cache is asked for the address as it came. -/
def fetchIntel : Lookup String Reply Object where
  miss := []
  nothing := []
  cacheKey := some
  requestKey := rt.cleanIp
  url cleanIp := "https://ipwho.is/" ++ cleanIp
  answer := rt.fetchIntelReply

end IntelRuntime

/-! ## Runs -/

variable {ι ο ν τ : Type*}

inductive Status (ν : Type*) where
  | waiting (key : String)
  | finished (answer : Except Exc ν)
  | cancelled

structure Task (ι ν τ : Type*) where
  query : ι
  asked : τ
  status : Status ν

/-- What a process knows of its lookups. The calls of the cache, the first URLs asked for and what came of them are
kept from its start. -/
structure Client (ι ο ν τ : Type*) where
  store : Watched ν τ
  tasks : List (Task ι ν τ)
  calls : List (Call ν τ)
  sent : List (String × τ)
  received : List (String × ο × τ)

inductive Event (ι ο τ : Type*) where
  | ask (query : ι) (now : τ)
  | reply (task : ℕ) (outcome : ο) (now : τ)
  | cancel (task : ℕ)

/-- The clock as the step reads it. -/
def Event.now? : Event ι ο τ → Option τ
  | .ask _ now => some now
  | .reply _ _ now => some now
  | .cancel _ => none

variable [LinearOrder τ] [Add τ]

/-- The clock never goes back. -/
def InOrder (events : List (Event ι ο τ)) : Prop := (events.filterMap Event.now?).Pairwise (· ≤ ·)

namespace Client

def start (cacheTtl : τ) (maxCacheSize : ℕ) : Client ι ο ν τ :=
  ⟨⟨.empty cacheTtl maxCacheSize, []⟩, [], [], [], []⟩

def use (c : Client ι ο ν τ) (miss : ν) (call : Call ν τ) : Client ι ο ν τ :=
  { c with store := (ttlMethods miss).call c.store call, calls := c.calls ++ [call] }

def enter (c : Client ι ο ν τ) (query : ι) (now : τ) (status : Status ν) : Client ι ο ν τ :=
  { c with tasks := c.tasks ++ [⟨query, now, status⟩] }

def settle (c : Client ι ο ν τ) (i : ℕ) (status : Status ν) : Client ι ο ν τ :=
  { c with tasks := c.tasks.modify i fun task => { task with status } }

end Client

namespace Lookup

variable [DecidableEq ν] (l : Lookup ι ο ν)

/-- A lookup up to its first await. -/
def ask (c : Client ι ο ν τ) (query : ι) (now : τ) : Client ι ο ν τ :=
  match l.cacheKey query with
  | none => c.enter query now (.finished (.ok l.nothing))
  | some key =>
      let cached := (c.store.cache.getCached l.miss key now).1
      let c := c.use l.miss (.get key now)
      if cached ≠ l.miss then c.enter query now (.finished (.ok cached))
      else
        match l.requestKey query with
        | none => c.enter query now (.finished (.ok l.nothing))
        | some key => { c.enter query now (.waiting key) with sent := c.sent ++ [(l.url key, now)] }

/-- The rest of a lookup, from the response on. -/
def resume (c : Client ι ο ν τ) (i : ℕ) (key : String) (outcome : ο) (now : τ) : Client ι ο ν τ :=
  let c := { c with received := c.received ++ [(key, outcome, now)] }
  match l.answer key outcome with
  | .ok (value, true) => (c.use l.miss (.set key value now)).settle i (.finished (.ok value))
  | .ok (value, false) => c.settle i (.finished (.ok value))
  | .error e => c.settle i (.finished (.error e))

def step (c : Client ι ο ν τ) : Event ι ο τ → Client ι ο ν τ
  | .ask query now => l.ask c query now
  | .reply i outcome now =>
      match c.tasks[i]? with
      | some ⟨_, _, .waiting key⟩ => l.resume c i key outcome now
      | _ => c
  | .cancel i =>
      match c.tasks[i]? with
      | some ⟨_, _, .waiting _⟩ => c.settle i .cancelled
      | _ => c

def run (cacheTtl : τ) (maxCacheSize : ℕ) (events : List (Event ι ο τ)) : Client ι ο ν τ :=
  events.foldl l.step (.start cacheTtl maxCacheSize)

end Lookup

end NeuralSoc.Caches
