import NeuralSoc.Base.Sliding
import NeuralSoc.Conn.Tracker

/-!
# The tracker of the evaluators

`scripts/_fast_conn_behavior.py`: the three checks over state kept for each pair in memory, with running sums.
The checks do not look at the clock: they rely on the call of `record_connection` just before.
-/

namespace NeuralSoc.Conn

/-- `_PairState`; the deques are listed oldest first. -/
structure PairState where
  ddosTs : List ℚ
  beaconTs : List ℚ
  /-- (end, length) -/
  beaconIntervals : List (ℚ × ℚ)
  beaconSum : ℚ
  beaconSumsq : ℚ
  lastTs : Option ℚ
  /-- (timestamp, bytes) -/
  exfilEntries : List (ℚ × PyFloat)
  exfilSum : PyFloat

def PairState.init : PairState := ⟨[], [], [], 0, 0, none, [], 0⟩

/-- `_pairs` -/
abbrev Pairs := String × String → Option PairState

def noPairs : Pairs := fun _ => none

/-! The three loops that drop what is older than a cutoff. -/

def expireTs (cutoff : ℚ) (ts : List ℚ) : List ℚ := ts.dropWhile (· < cutoff)

/-- The interval is taken out of both sums. -/
def expireIntervals (cutoff : ℚ) (ivs : List (ℚ × ℚ)) (sum sumsq : ℚ) : List (ℚ × ℚ) × ℚ × ℚ :=
  expire (·.1 < cutoff) (fun sums iv => (sums.1 - iv.2, sums.2 - iv.2 * iv.2)) ivs (sum, sumsq)

def expireBytes (cutoff : ℚ) (entries : List (ℚ × PyFloat)) (sum : PyFloat) : List (ℚ × PyFloat) × PyFloat :=
  expire (·.1 < cutoff) (fun sum e => sum - e.2) entries sum

variable (rt : Runtime) (p : Settings)

/-- An interval of length zero is not counted. -/
def addInterval (timestamp : ℚ) (st : PairState) : List (ℚ × ℚ) × ℚ × ℚ :=
  match st.lastTs with
  | none => (st.beaconIntervals, st.beaconSum, st.beaconSumsq)
  | some lastTs =>
      let iv := timestamp - lastTs
      if iv > 0 then
        (st.beaconIntervals ++ [(timestamp, iv)], st.beaconSum + iv, st.beaconSumsq + iv * iv)
      else (st.beaconIntervals, st.beaconSum, st.beaconSumsq)

def PairState.record (timestamp : ℚ) (bytes : PyFloat) (st : PairState) : PairState :=
  let (added, addedSum, addedSumsq) := addInterval timestamp st
  let (beaconIntervals, beaconSum, beaconSumsq) :=
    expireIntervals (timestamp - p.beaconWindowSeconds) added addedSum addedSumsq
  let (exfilEntries, exfilSum) := expireBytes (timestamp - p.exfilWindowSeconds)
    (st.exfilEntries ++ [(timestamp, bytes)]) (st.exfilSum + bytes)
  { ddosTs := expireTs (timestamp - p.ddosWindowSeconds) (st.ddosTs ++ [timestamp])
    beaconTs := expireTs (timestamp - p.beaconWindowSeconds) (st.beaconTs ++ [timestamp])
    beaconIntervals, beaconSum, beaconSumsq
    lastTs := some timestamp
    exfilEntries, exfilSum }

/-- The statistics of `is_c2_beacon` from the running sums. -/
def PairState.judge (st : PairState) : Bool × BeaconStats :=
  let n := st.beaconTs.length
  if (n : ℤ) < p.beaconMinObservations then (false, ⟨n, none, none⟩)
  else
    let nIntervals := st.beaconIntervals.length
    if nIntervals = 0 then (false, ⟨n, none, none⟩)
    else
      let meanInterval := st.beaconSum / nIntervals
      if meanInterval < p.beaconMinIntervalSeconds then (false, ⟨n, some meanInterval, none⟩)
      else if nIntervals < 2 then (false, ⟨n, some meanInterval, none⟩)
      else
        let ss := st.beaconSumsq - nIntervals * meanInterval * meanInterval
        let variance : ℚ := max 0 ss / (nIntervals - 1)
        let coefficient : Coefficient := ⟨variance, meanInterval⟩
        (coefficient.atMost p.beaconMaxCv, ⟨n, some meanInterval, some coefficient⟩)

namespace Fast

def recordConnection (sourceIp destIp : String) (timestamp : Option ℚ) (origBytes : Json) (pairs : Pairs) :
    Except Exc Pairs :=
  match safePair rt sourceIp destIp, timestamp with
  | some pair, some timestamp =>
      match safeBytes rt origBytes with
      | .error e => .error e
      | .ok bytes =>
          .ok (Function.update pairs pair (some (((pairs pair).getD .init).record p timestamp bytes)))
  | _, _ => .ok pairs

def state? (sourceIp destIp : String) (pairs : Pairs) : Option PairState :=
  (safePair rt sourceIp destIp).bind pairs

def isDdosVolumetric (pairs : Pairs) (sourceIp destIp : String) : Bool × FloodStats :=
  match state? rt sourceIp destIp pairs with
  | none => (false, ⟨0, none⟩)
  | some st =>
      let count := st.ddosTs.length
      (decide ((count : ℤ) ≥ p.ddosConnectionCountThreshold), ⟨count, some p.ddosWindowSeconds⟩)

def isC2Beacon (pairs : Pairs) (sourceIp destIp : String) : Bool × BeaconStats :=
  match state? rt sourceIp destIp pairs with
  | none => (false, ⟨0, none, none⟩)
  | some st => st.judge p

def isBulkExfil (pairs : Pairs) (sourceIp destIp : String) : Bool × ExfilStats :=
  match state? rt sourceIp destIp pairs with
  | none => (false, ⟨0, none⟩)
  | some st =>
      (PyFloat.le (.fin p.exfilBytesThreshold) st.exfilSum, ⟨st.exfilSum, some p.exfilWindowSeconds⟩)

def record (c : Call) (pairs : Pairs) : Except Exc Pairs :=
  recordConnection rt p c.sourceIp c.destIp (some c.timestamp) c.origBytes pairs

def serve (pairs : Pairs) (c : Call) : Pairs :=
  match record rt p c pairs with
  | .ok pairs => pairs
  | .error _ => pairs

end Fast

/-! ## An event -/

/-- The flood and the exfiltration check after a call; there are none after a call that raises. -/
def checks (calls : List Call) (c : Call) : Except Exc ((Bool × FloodStats) × Bool × ExfilStats) :=
  match c.record rt p (calls.foldl (serve rt p) noKeys) with
  | .error e => .error e
  | .ok redis => .ok (isDdosVolumetric rt p redis c.sourceIp c.destIp c.timestamp,
      isBulkExfil rt p redis c.sourceIp c.destIp c.timestamp)

def Fast.checks (calls : List Call) (c : Call) : Except Exc ((Bool × FloodStats) × Bool × ExfilStats) :=
  match Fast.record rt p c (calls.foldl (Fast.serve rt p) noPairs) with
  | .error e => .error e
  | .ok pairs => .ok (Fast.isDdosVolumetric rt p pairs c.sourceIp c.destIp,
      Fast.isBulkExfil rt p pairs c.sourceIp c.destIp)

def beacon (calls : List Call) (c : Call) : Except Exc Bool :=
  match c.record rt p (calls.foldl (serve rt p) noKeys) with
  | .error e => .error e
  | .ok redis => (isC2Beacon rt p redis c.sourceIp c.destIp c.timestamp).map Prod.fst

def Fast.beacon (calls : List Call) (c : Call) : Except Exc Bool :=
  match Fast.record rt p c (calls.foldl (Fast.serve rt p) noPairs) with
  | .error e => .error e
  | .ok pairs => .ok (Fast.isC2Beacon rt p pairs c.sourceIp c.destIp).1

/-- A property of every call of a run, given the calls before it. -/
def AtEach (P : List Call → Call → Prop) (calls : List Call) : Prop :=
  ∀ before c, before ++ [c] <+: calls → P before c

end NeuralSoc.Conn
