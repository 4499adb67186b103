import NeuralSoc.Base.Arithmetic
import NeuralSoc.Base.SortedSet

/-!
# The connections of a pair of hosts

`inference/conn_behavior.py`: one sorted set for each (source, destination) pair, scored by the timestamps
that the events carry and queried by three checks. Redis answers every command; the time to live, which runs
by its own clock, is left out.
-/

namespace NeuralSoc.Conn

/-- What the trackers rely on in the texts of floats and addresses. -/
structure ConnRuntime extends Runtime where
  floatOfStr_str : ∀ x, floatOfStr (str (.float x)) = some x
  no_colon : ∀ x, ':' ∉ (str (.float x)).toList
  one_scope : ∀ s a, ipAddress s = some a → a.toList.count '%' ≤ 1
  /-- a brace can stand in the scope only -/
  brace_in_scope : ∀ s a before after, ipAddress s = some a → a.toList = before ++ '}' :: after →
    '%' ∈ before

def maxTrackedTimestampsPerPair : ℕ := 5000

/-- The parameters of the constructor, with the shipped values as defaults. -/
structure Settings where
  ddosWindowSeconds : ℚ := 10
  ddosConnectionCountThreshold : ℤ := 1000
  beaconWindowSeconds : ℚ := 21600
  beaconMinObservations : ℤ := 3
  beaconMaxCv : ℚ := 1 / 2
  beaconMinIntervalSeconds : ℚ := 5
  exfilWindowSeconds : ℚ := 600
  exfilBytesThreshold : ℚ := 1000000

def Settings.retentionSeconds (p : Settings) : ℚ :=
  max (max p.ddosWindowSeconds p.beaconWindowSeconds) p.exfilWindowSeconds

/-- An entry: its timestamp, and its member `{timestamp}:{counter}:{bytes}`. -/
abbrev Entry := ℚ ×ₗ String

abbrev Redis := String → SortedSet ℚ String

def noKeys : Redis := fun _ => .empty

def validateIp (rt : Runtime) (rawIp : String) : Option String := normalizeIp rt rawIp

/-- `safe_src` and `safe_dst`. -/
def safePair (rt : Runtime) (sourceIp destIp : String) : Option (String × String) :=
  match validateIp rt sourceIp, validateIp rt destIp with
  | some safeSrc, some safeDst => if safeSrc = "" || safeDst = "" then none else some (safeSrc, safeDst)
  | _, _ => none

def pairKey (pair : String × String) : String := "\x7b" ++ pair.1 ++ "\x7d:conn_pair:" ++ pair.2

/-- An `OverflowError` is not caught. -/
def safeBytes (rt : Runtime) (origBytes : Json) : Except Exc PyFloat :=
  match toFloat rt origBytes with
  | .ok x => .ok (PyFloat.max (.fin 0) x)
  | .error e =>
      match e.cls with
      | .typeError | .valueError => .ok (.fin 0)
      | _ => .error e

def member (rt : Runtime) (timestamp : ℚ) (count : ℕ) (bytes : PyFloat) : String :=
  rt.str (.float (.fin timestamp)) ++ ":" ++ toString count ++ ":" ++ rt.str (.float bytes)

variable (rt : Runtime) (p : Settings)

/-- The pipeline of `record_connection`, one MULTI. -/
def write (timestamp : ℚ) (member : String) (entries : SortedSet ℚ String) : SortedSet ℚ String :=
  ((entries.zadd timestamp member).removeUpTo (timestamp - p.retentionSeconds)).keepLast
    maxTrackedTimestampsPerPair

/-- `count` is what `next(_counter)` gives. -/
def recordConnection (count : ℕ) (sourceIp destIp : String) (timestamp : Option ℚ) (origBytes : Json)
    (redis : Redis) : Except Exc Redis :=
  match safePair rt sourceIp destIp, timestamp with
  | some pair, some timestamp =>
      match safeBytes rt origBytes with
      | .error e => .error e
      | .ok bytes => .ok (Function.update redis (pairKey pair)
          (write p timestamp (member rt timestamp count bytes) (redis (pairKey pair))))
  | _, _ => .ok redis

/-! ## The three checks -/

structure FloodStats where
  connectionCount : ℕ
  windowSeconds : Option ℚ
  deriving DecidableEq, Repr

def isDdosVolumetric (redis : Redis) (sourceIp destIp : String) (timestamp : ℚ) : Bool × FloodStats :=
  match safePair rt sourceIp destIp with
  | none => (false, ⟨0, none⟩)
  | some pair =>
      let count := (redis (pairKey pair)).zcount (timestamp - p.ddosWindowSeconds) timestamp
      (decide ((count : ℤ) ≥ p.ddosConnectionCountThreshold), ⟨count, some p.ddosWindowSeconds⟩)

/-- The quotient of the root of a variance by a mean, infinite when the mean is zero. -/
structure Coefficient where
  variance : ℚ
  mean : ℚ
  deriving DecidableEq, Repr

/-- `stdev / mean <= bound` without the root. -/
def Coefficient.atMost (c : Coefficient) (bound : ℚ) : Bool :=
  c.mean ≠ 0 && 0 ≤ bound * c.mean && c.variance ≤ (bound * c.mean) ^ 2

structure BeaconStats where
  observations : ℕ
  meanIntervalSeconds : Option ℚ
  coefficientOfVariation : Option Coefficient
  deriving DecidableEq, Repr

def zeroDivision : Exc := ⟨.other, "division by zero"⟩

/-- `b - a` for the neighbours `a`, `b`. -/
def intervals (timestamps : List ℚ) : List ℚ := List.zipWith (fun a b => b - a) timestamps timestamps.tail

/-- The statistics of `is_c2_beacon` over the sorted timestamps. -/
def judge (timestamps : List ℚ) : Except Exc (Bool × BeaconStats) :=
  let n := timestamps.length
  if (n : ℤ) < p.beaconMinObservations then .ok (false, ⟨n, none, none⟩)
  else
    let nIntervals := (intervals timestamps).length
    if nIntervals = 0 then .error zeroDivision
    else
      let meanInterval := (intervals timestamps).sum / nIntervals
      if meanInterval < p.beaconMinIntervalSeconds then .ok (false, ⟨n, some meanInterval, none⟩)
      else if nIntervals < 2 then .ok (false, ⟨n, some meanInterval, none⟩)
      else
        let variance : ℚ :=
          ((intervals timestamps).map fun x => (x - meanInterval) ^ 2).sum / (nIntervals - 1)
        let coefficient : Coefficient := ⟨variance, meanInterval⟩
        .ok (coefficient.atMost p.beaconMaxCv, ⟨n, some meanInterval, some coefficient⟩)

def isC2Beacon (redis : Redis) (sourceIp destIp : String) (timestamp : ℚ) :
    Except Exc (Bool × BeaconStats) :=
  match safePair rt sourceIp destIp with
  | none => .ok (false, ⟨0, none, none⟩)
  | some pair =>
      let entries := (redis (pairKey pair)).zrangebyscore (timestamp - p.beaconWindowSeconds) timestamp
      judge p ((entries.map fun e => (ofLex e).1).insertionSort (· ≤ ·))

structure ExfilStats where
  totalBytes : PyFloat
  windowSeconds : Option ℚ
  deriving DecidableEq, Repr

/-- `member.rsplit(":", 1)[1]`; `none` is an `IndexError`. -/
def afterLastColon (text : String) : Option String :=
  if ':' ∈ text.toList then
    some (String.ofList (text.toList.reverse.takeWhile (· ≠ ':')).reverse)
  else none

/-- The bytes of a member; one that cannot be read is skipped. -/
def memberBytes (text : String) : Option PyFloat := (afterLastColon text).bind rt.floatOfStr

def isBulkExfil (redis : Redis) (sourceIp destIp : String) (timestamp : ℚ) : Bool × ExfilStats :=
  match safePair rt sourceIp destIp with
  | none => (false, ⟨0, none⟩)
  | some pair =>
      let entries := (redis (pairKey pair)).zrangebyscore (timestamp - p.exfilWindowSeconds) timestamp
      let totalBytes := (entries.filterMap fun e => memberBytes rt (ofLex e).2).foldl (· + ·) 0
      (PyFloat.le (.fin p.exfilBytesThreshold) totalBytes, ⟨totalBytes, some p.exfilWindowSeconds⟩)

/-! ## Runs -/

/-- A call of `record_connection`, with what the counter of the process gives it. -/
structure Call where
  sourceIp : String
  destIp : String
  timestamp : ℚ
  origBytes : Json
  count : ℕ

def Call.record (c : Call) (redis : Redis) : Except Exc Redis :=
  recordConnection rt p c.count c.sourceIp c.destIp (some c.timestamp) c.origBytes redis

/-- A call that raises changes nothing. -/
def serve (redis : Redis) (c : Call) : Redis :=
  match c.record rt p redis with
  | .ok redis => redis
  | .error _ => redis

/-- What a call has recorded. -/
structure Connection where
  pair : String × String
  timestamp : ℚ
  count : ℕ
  bytes : PyFloat
  deriving DecidableEq, Repr

def connection (c : Call) : Option Connection :=
  match safePair rt c.sourceIp c.destIp, safeBytes rt c.origBytes with
  | some pair, .ok bytes => some ⟨pair, c.timestamp, c.count, bytes⟩
  | _, _ => none

/-- The connections recorded for a pair. -/
def connections (pair : String × String) (calls : List Call) : List Connection :=
  (calls.filterMap (connection rt)).filter (·.pair = pair)

/-- Those with a timestamp in `[t - w, t]`. -/
def within (w t : ℚ) (ks : List Connection) : List Connection :=
  ks.filter fun k => t - w ≤ k.timestamp && k.timestamp ≤ t

def Connection.entry (k : Connection) : Entry := toLex (k.timestamp, member rt k.timestamp k.count k.bytes)

/-- The last `n` in the order of the sorted set. -/
def latest (n : ℕ) (ks : List Connection) : List Connection :=
  (ks.insertionSort fun a b => a.entry rt ≤ b.entry rt).drop (ks.length - n)

/-- `max(0, orig_bytes)` summed up. -/
def totalBytes (ks : List Connection) : PyFloat := (ks.map Connection.bytes).sum

end NeuralSoc.Conn
