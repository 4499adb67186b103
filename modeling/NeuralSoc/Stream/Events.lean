import Mathlib.Algebra.Order.Floor.Ring
import Mathlib.Data.Rat.Floor
import NeuralSoc.Base.Handler
import NeuralSoc.Stream.Features

/-!
# One event of the stream processor

The body of the `async for` loop of `process_traffic`. A local variable is bound in one event and still
bound in the next, so `is_dga` and `query` are part of the state; the outcomes of the awaits are inputs.
-/

namespace NeuralSoc.Stream

/-- What one coroutine of the agent holds between two events. -/
structure Coroutine where
  /-- the local `is_dga`, `none` while unbound -/
  isDga : Option Bool
  /-- the local `query`, `none` while unbound -/
  query : Option Json
  detections : List Object
  world : World

/-- The outcomes of the calls of one event; a `wait_for` that runs out raises a `timeoutError`. -/
structure EventEnv where
  /-- `JA4_MALICIOUS_FINGERPRINTS` as last loaded -/
  fingerprints : List String
  /-- `dl_engine.predict`, awaited: `is_dga` and `prob` -/
  predict : Object → Json → Except Exc (Bool × PyFloat)
  lookupAgeDays : Json → Except Exc (Option ℚ)
  recordQuery : Json → Json → Except Exc Unit
  /-- `is_burst`, its reason and the statistics -/
  isBurst : Json → Except Exc (Bool × Option String × Object)
  /-- `flow_engine.score`, awaited: `is_anomalous`, `mse` and `threshold` -/
  score : Json → Json → Json → ℤ → Except Exc (Bool × PyFloat × ℚ)
  now : ℚ
  recordConnection : Json → Json → ℚ → Json → Except Exc Unit
  isDdosVolumetric : Json → Json → ℚ → Except Exc (Bool × Object)
  isC2Beacon : Json → Json → ℚ → Except Exc (Bool × Object)
  isBulkExfil : Json → Json → ℚ → Except Exc (Bool × Object)
  recordResponse : Json → Bool → Except Exc Unit
  /-- the `traceparent` that `propagate.inject` writes, if any -/
  traceparent : Option String
  /-- `trc-` and the hexadecimal of a fresh `uuid4` -/
  freshTraceId : String
  /-- the outcomes of the `i`-th iteration over the detections -/
  detection : ℕ → DetectionEnv

/-- How the loop body is left without an exception. -/
inductive Outcome where
  /-- the `continue` after a failed feature extraction -/
  | skipped
  /-- the end of the detections loop -/
  | finished
  deriving DecidableEq, Repr

variable (rt : EventRuntime) (env : EventEnv)

abbrev Body := Handler Coroutine Exc

/-! ## Locals -/

def unbound (name : String) : Exc :=
  ⟨.other, s!"local variable '{name}' referenced before assignment"⟩

def readIsDga : Body Bool := do
  let s ← Handler.get
  Handler.expect (unbound "is_dga") s.isDga

def readQuery : Body Json := do
  let s ← Handler.get
  Handler.expect (unbound "query") s.query

/-- `detections.append(det)` -/
def detect (det : Object) : Body Unit :=
  Handler.modify fun s => { s with detections := s.detections ++ [det] }

def detectIf (b : Bool) (det : Object) : Body Unit := if b then detect det else pure ()

def onType (event : Object) (evtType : String) (m : Body Unit) : Body Unit :=
  if event.get "event_type" = .str evtType then m else pure ()

/-! ## Detections -/

/-- `{**d, **e}` -/
def merge (d e : Object) : Object := e.foldl (fun d f => d.set f.1 f.2) d

def detection (threatClass severity : String) (confidence : PyFloat) (ruleId : String)
    (evidence : Object) : Object :=
  [("threat_class", .str threatClass), ("severity", .str severity), ("confidence", .float confidence),
    ("rule_id", .str ruleId), ("evidence", .obj evidence)]

def dgaDetection (query : Json) (prob : PyFloat) : Object :=
  detection "DGA / DNS Tunnelling" "high" prob "DL_CNN_DGA" [("domain", query)]

def youngDomainDaysThreshold : ℚ := 180

/-- Linear in the age, between 0.55 and 0.95. -/
def confidenceForAge (ageDays : ℚ) : ℚ :=
  55 / 100 + 40 / 100 * max 0 (min 1 (1 - ageDays / youngDomainDaysThreshold))

/-- `round(x, 1)`: half to even. -/
def roundTenth (x : ℚ) : ℚ :=
  let below := ⌊x * 10⌋
  let rest := x * 10 - below
  let tenths := if rest < 1 / 2 then below else if 1 / 2 < rest then below + 1 else below + below % 2
  tenths / 10

def domainAgeDetection (query : Json) (ageDays : ℚ) : Object :=
  detection "DGA / DNS Tunnelling" "medium" (.fin (confidenceForAge ageDays)) "RULE_DOMAIN_AGE_YOUNG"
    [("domain", query), ("registration_age_days", .float (.fin (roundTenth ageDays)))]

def burstDetection (query : Json) (reason : Option String) (stats : Object) : Object :=
  detection "DGA / DNS Tunnelling" (if reason = some "distinct_domain_burst" then "high" else "medium")
    (.fin (9 / 10)) "RULE_DNS_QUERY_BURST"
    (merge [("domain", query), ("reason", (reason.map Json.str).getD .null)] stats)

/-- `mse / (threshold * 2)` for a threshold that is not 0. -/
def mseRatio (mse : PyFloat) (threshold : ℚ) : PyFloat :=
  match mse with
  | .nan => .nan
  | .inf neg => .inf (neg != decide (threshold < 0))
  | .fin q => .fin (q / (threshold * 2))

def flowDetection (mse : PyFloat) (threshold : ℚ) : Object :=
  detection "Anomalous Flow" "medium"
    (if threshold = 0 then .fin (5 / 10) else PyFloat.min (.fin (99 / 100)) (mseRatio mse threshold))
    "DL_AUTOENCODER_FLOW_ANOMALY"
    [("reconstruction_mse", .float mse), ("threshold", .float (.fin threshold))]

/-- The detections of the connection tracker. -/
def connDetection (threatClass severity : String) (confidence : ℚ) (ruleId : String) (destIp : Json)
    (stats : Object) : Object :=
  detection threatClass severity (.fin confidence) ruleId (merge [("destination_ip", destIp)] stats)

/-! ## The stages -/

/-- The text the event's `query` is read as. A JSON object holds no bytes. -/
def queryText (event : Object) : Json :=
  match event.get "query" with
  | .str s => stripText (.str s)
  | .lone units => stripText (.lone units)
  | .null => .str ""
  | x => stripText (toStr rt.toRuntime x)

/-- `query and len(query) <= 253` -/
def isQueryable (query : Json) : Bool := query.truthy && (points query).length ≤ 253

def inferDns (event features : Object) : Body Unit := do
  let query := queryText rt event
  Handler.modify fun s => { s with query := some query }
  if isQueryable query then do
    let (isDga, prob) ← Handler.lift (env.predict features query)
    Handler.modify fun s => { s with isDga := some isDga }
    detectIf isDga (dgaDetection query prob)
  else pure ()

def lookupDomainAge : Body Unit := do
  let query ← readQuery
  Handler.modify fun s => { s with world := s.world.emit (.ageLookup query) }
  match ← Handler.lift (env.lookupAgeDays query) with
  | some ageDays =>
      detectIf (ageDays ≤ youngDomainDaysThreshold) (domainAgeDetection query ageDays)
  | none => pure ()

/-- `str(event.get(key) or "")` -/
def address (event : Object) (key : String) : Json :=
  toStr rt.toRuntime ((event.get key).or (.str ""))

def trackDns (event : Object) : Body Unit := do
  let sourceIp := address rt event "id.orig_h"
  if sourceIp.truthy then do
    let query ← readQuery
    if isQueryable query then do
      Handler.lift (env.recordQuery sourceIp query)
      let (isBurst, reason, stats) ← Handler.lift (env.isBurst sourceIp)
      detectIf isBurst (burstDetection query reason stats)
    else pure ()
  else pure ()

/-- The test of `is_dga` stands outside the `try` that binds it. -/
def dnsStages (event features : Object) : Body Unit := do
  Handler.attempt (inferDns rt env event features)
  let isDga ← readIsDga
  if isDga then Handler.attempt (lookupDomainAge env) else pure ()
  Handler.attempt (trackDns rt env event)

def inferFlow (event features : Object) : Body Unit := do
  let origPkts ← Handler.lift (safeInt rt (event.getD "orig_pkts" (.int 0)))
  let (isAnomalous, mse, threshold) ← Handler.lift (env.score (features.getD "orig_bytes" (.int 0))
    (features.getD "resp_bytes" (.int 0)) (features.getD "duration" (.float (.fin 0))) origPkts)
  detectIf isAnomalous (flowDetection mse threshold)

def trackConnection (event features : Object) : Body Unit := do
  let sourceIp := address rt event "id.orig_h"
  let destIp := address rt event "id.resp_h"
  if sourceIp.truthy && destIp.truthy then do
    Handler.lift (env.recordConnection sourceIp destIp env.now (features.getD "orig_bytes" (.int 0)))
    let (isFlood, floodStats) ← Handler.lift (env.isDdosVolumetric sourceIp destIp env.now)
    detectIf isFlood
      (connDetection "DDoS" "critical" (95 / 100) "RULE_DDOS_CONN_RATE" destIp floodStats)
    let (isBeacon, beaconStats) ← Handler.lift (env.isC2Beacon sourceIp destIp env.now)
    detectIf isBeacon
      (connDetection "C2 Beaconing" "medium" (40 / 100) "RULE_C2_BEACON_PERIODIC" destIp beaconStats)
    let (isExfil, exfilStats) ← Handler.lift (env.isBulkExfil sourceIp destIp env.now)
    detectIf isExfil
      (connDetection "Data Exfiltration" "critical" (95 / 100) "RULE_EXFIL_BYTE_VOLUME" destIp exfilStats)
  else pure ()

def connStages (event features : Object) : Body Unit := do
  Handler.attempt (inferFlow rt env event features)
  Handler.attempt (trackConnection rt env event features)

def trackResponse (event : Object) : Body Unit := do
  let sourceIp := address rt event "id.orig_h"
  if sourceIp.truthy then do
    let rcode ← Handler.lift (safeInt rt (event.getD "rcode" (.int (-1))))
    Handler.lift (env.recordResponse sourceIp (rcode = 3))
  else pure ()

/-! ## The loop body -/

def eventTraceId (event : Object) : String :=
  match env.traceparent with
  | some traceparent => traceparent
  | none => rt.str (((event.get "trace_id").or (event.get "uid")).or (.str env.freshTraceId))

/-- `for det in detections` -/
def emitAlerts (event : Object) : Body Unit := Handler.modify fun s =>
  { s with world := s.detections.zipIdx.foldl (fun w (det, i) =>
      processDetection rt.toRuntime (env.detection i) event det (eventTraceId rt env event) w) s.world }

/-- The stages after the features are extracted. A failed rule evaluation leaves no detections. -/
def processFeatures (event features : Object) : Body Outcome := do
  let rules := (evaluateRules rt env.fingerprints event features).toOption.getD []
  Handler.modify fun s => { s with detections := rules }
  onType event "dns" (dnsStages rt env event features)
  onType event "conn" (connStages rt env event features)
  onType event "dns_response" (Handler.attempt (trackResponse rt env event))
  emitAlerts rt env event
  return .finished

/-- One iteration of the `async for` loop. -/
def processEvent (event : Object) : Body Outcome :=
  match extractFeatures rt event with
  | .error _ => pure .skipped
  | .ok features => processFeatures rt env event features

/-! ## The stream -/

/-- An event with the outcomes of its calls. -/
structure Delivery where
  event : Object
  env : EventEnv

/-- A coroutine and how far it has come; an exception ends its loop. -/
structure Agent where
  locals : Coroutine
  outcomes : List Outcome
  raised : Option Exc

def deliver (a : Agent) (d : Delivery) : Agent :=
  match a.raised with
  | some _ => a
  | none =>
      match processEvent rt d.env d.event a.locals with
      | (.ok outcome, s) => { a with locals := s, outcomes := a.outcomes ++ [outcome] }
      | (.error e, s) => { a with locals := s, raised := some e }

/-- `process_traffic` at its start: no local is bound. -/
def freshAgent (w : World) : Agent := ⟨⟨none, none, [], w⟩, [], none⟩

def processTraffic (w : World) (stream : List Delivery) : Agent :=
  stream.foldl (deliver rt) (freshAgent w)

end NeuralSoc.Stream
