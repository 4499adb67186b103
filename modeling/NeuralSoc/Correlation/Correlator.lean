import NeuralSoc.Correlation.Risk
import NeuralSoc.Correlation.Scripts

/-!
# The correlator

`IncidentCorrelator.check_redis_master`, `add_alert` and `rollback_alert_seen`. `json.loads` gives back
what `json.dumps` wrote, and different alerts are written differently, so the entries of the list are
the alerts themselves. The clock, the replies of Redis and the new incident's id are inputs.
-/

namespace NeuralSoc.Correlation

/-! ## What both scripts are called with -/

/-- The validated `source_ip`. A text with an unpaired surrogate counts as no address. -/
def sourceAddress (rt : Runtime) (alert : Object) : Option String :=
  match alert.getD "source_ip" (.str "127.0.0.1") with
  | .lone _ => none
  | raw => rt.ipAddress (strip (rt.str raw))

def threatClass (rt : Runtime) (alert : Object) : String :=
  rt.str (alert.getD "threat_class" (.str "unknown"))

/-- `[A-Za-z0-9_ ]`. -/
def isThreatChar (c : Char) : Bool := c.isAlphanum || c == '_' || c == ' '

def sanitizeThreat (threat : String) : String :=
  let safe := ((threat.toList.filter isThreatChar).map fun c => if c = ' ' then '_' else c).take 64
  if safe = [] then "unknown" else String.ofList safe

def safeThreat (rt : Runtime) (alert : Object) : String := sanitizeThreat (threatClass rt alert)

/-- `sev_weights`. -/
def sevWeights (severity : String) : Option ℕ :=
  if severity = "critical" then some 100
  else if severity = "high" then some 75
  else if severity = "medium" then some 50
  else if severity = "low" then some 25
  else none

def sevScore (rt : Runtime) (alert : Object) : ℕ :=
  (sevWeights (strip (rt.lower (rt.str (alert.getD "severity" (.str "low")))))).getD 25

/-- `str(alert.get("alert_id", ""))`. -/
def alertIdText (rt : Runtime) (alert : Object) : String :=
  rt.str (alert.getD "alert_id" (.str ""))

def correlateArgs (rt : Runtime) (alert : Object) : CorrelateArgs Object where
  alertJson := alert
  safeThreat := safeThreat rt alert
  severityScore := sevScore rt alert
  alertId := alertIdText rt alert
  isReplay := (alert.get "is_replay").truthy

-- Unlike `add_alert`, the rollback strips the id.
def rollbackArgs (rt : Runtime) (alert : Object) : RollbackArgs Object where
  alertJson := alert
  alertId := strip (alertIdText rt alert)
  safeThreat := safeThreat rt alert

/-! ## Redis -/

/-- What the connection does to one script call: `lostRequest` and `lostReply` raise a `RedisError`,
and after `lostReply` the script has run. -/
inductive Link where
  | ok
  | lostRequest (msg : String)
  | lostReply (msg : String)
  deriving DecidableEq, Repr

inductive Script where
  | correlate (alert : Object)
  | rollback (alert : Object)
  deriving DecidableEq

def Script.call (rt : Runtime) : Script → Call Object
  | .correlate alert => .correlate (correlateArgs rt alert)
  | .rollback alert => .rollback (rollbackArgs rt alert)

def runScripts (rt : Runtime) (k : Keys Object) (scripts : List Script) : Keys Object :=
  (scripts.map (Script.call rt)).foldl exec k

/-- The keys of every source address, and the scripts Redis has executed, in their order. -/
structure Store where
  keys : String → Keys Object
  executed : List Script

def Store.empty : Store := ⟨fun _ => .none, []⟩

def Store.correlate (rt : Runtime) (ip : String) (alert : Object) (s : Store) :
    Reply Object × Store :=
  let r := Correlation.correlate (correlateArgs rt alert) (s.keys ip)
  (r.1, ⟨fun i => if i = ip then r.2 else s.keys i, s.executed ++ [.correlate alert]⟩)

def Store.rollback (rt : Runtime) (ip : String) (alert : Object) (s : Store) : Store :=
  ⟨fun i => if i = ip then Correlation.rollback (rollbackArgs rt alert) (s.keys ip) else s.keys i,
    s.executed ++ [.rollback alert]⟩

structure Correlator where
  store : Store
  lastMasterCheck : ℚ

def masterCheckInterval : ℚ := 5

/-- `info` is the reply to INFO replication: its role or the exception. -/
def checkRedisMaster (now : ℚ) (info : Except Exc (Option String)) (c : Correlator) :
    Except Exc Bool × Correlator :=
  if now - c.lastMasterCheck < masterCheckInterval then (.ok true, c)
  else
    match info with
    | .ok role =>
        if role ≠ some "master" then (.ok false, c) else (.ok true, { c with lastMasterCheck := now })
    | .error e => if e.cls = .redisError then (.ok false, c) else (.error e, c)

/-! ## The incident -/

/-- What the loop over the snapshot collects. A set is listed in the order of insertion. -/
structure Window where
  threatClasses : List Json
  affectedEntities : List Json
  relatedAlertIds : List Json
  tactics : List Json
  parsedAlerts : List Object
  maxSev : Json
  deriving DecidableEq

def Window.start (ip : String) (alert : Object) : Window where
  threatClasses := []
  affectedEntities := [.str ip]
  relatedAlertIds := []
  tactics := []
  parsedAlerts := []
  maxSev := alert.getD "severity" (.str "high")

/-- `if x: s.add(x)`; adding a list or an object raises. -/
def addTruthy (x : Json) (s : List Json) : Option (List Json) :=
  if !x.truthy then some s
  else if !hashable x then none
  else if s.any (sameKey x) then some s
  else some (s ++ [x])

def appendNew (x : Json) (xs : List Json) : List Json :=
  if x.truthy && !xs.any (sameKey x) then xs ++ [x] else xs

/-- `sev_weights.get(severity, 25.0)`. -/
def displayWeight (severity : String) : ℕ := (sevWeights severity).getD 25

def raiseSev (rt : Runtime) (a : Object) (maxSev : Json) : Json :=
  let aSev := rt.lower (rt.str (a.getD "severity" (.str "low")))
  if displayWeight aSev ≥ displayWeight (rt.lower (rt.str maxSev)) then .str aSev else maxSev

/-- One alert of the snapshot. What was collected before an exception stays. -/
def Window.absorb (rt : Runtime) (w : Window) (a : Object) : Window :=
  let w := { w with parsedAlerts := w.parsedAlerts ++ [a] }
  match addTruthy (a.get "threat_class") w.threatClasses with
  | none => w
  | some tcs =>
      let w := { w with threatClasses := tcs }
      match addTruthy (a.get "destination_ip") w.affectedEntities with
      | none => w
      | some es =>
          let w := { w with
            affectedEntities := es
            relatedAlertIds := appendNew (a.get "alert_id") w.relatedAlertIds }
          match addTruthy ((a.get "mitre_tactic").or (a.get "tactic")) w.tactics with
          | none => w
          | some ts => { w with tactics := ts, maxSev := raiseSev rt a w.maxSev }

/-- The defaults after the loop. -/
def Window.finish (rt : Runtime) (alert : Object) (w : Window) : Window :=
  { w with
    parsedAlerts := if w.parsedAlerts = [] then [alert] else w.parsedAlerts
    threatClasses := if w.threatClasses = [] then [.str (threatClass rt alert)] else w.threatClasses
    relatedAlertIds := appendNew (alert.get "alert_id") w.relatedAlertIds }

def gather (rt : Runtime) (ip : String) (alert : Object) (snapshot : List Object) : Window :=
  (snapshot.foldl (Window.absorb rt) (Window.start ip alert)).finish rt alert

structure Incident where
  incidentId : String
  sourceIp : String
  affectedEntities : List Json
  threatClasses : List Json
  tactics : List Json
  highestRisk : PyFloat
  severity : Json
  riskScore : PyFloat
  createdTimestamp : Int
  timestamp : Int
  status : String
  evidenceSummary : String
  relatedAlertIds : List Json
  traceId : Json
  deriving DecidableEq

/-- What one call reads from outside: the clocks, `info`, the connection and `uuid4`. -/
structure CallEnv where
  now : ℚ
  info : Except Exc (Option String)
  link : Link
  incidentId : String
  createdTimestamp : Int
  timestamp : Int

/-- `', '.join(threat_list)`. -/
def joinThreats (rt : Runtime) (threats : List Json) : Except Exc String :=
  if threats.all Json.isStr then .ok (String.intercalate ", " (threats.map rt.str))
  else .error ⟨.typeError, "sequence item: expected str instance"⟩

def evidenceSummary (rt : Runtime) (ip : String) (w : Window) : Except Exc String := do
  let threats ← joinThreats rt w.threatClasses
  return s!"Correlated {w.threatClasses.length} threat vector(s) ({threats}) across " ++
    s!"{w.relatedAlertIds.length} alert(s) involving {ip}"

/-- The candidate of a set flag; a risk below the threshold suppresses it. -/
def buildIncident (rt : Runtime) (env : CallEnv) (ip : String) (alert : Object) (threshold : ℚ)
    (snapshot : List Object) : Except Exc (Option Incident) := do
  let w := gather rt ip alert snapshot
  let finalRisk ← calculateRiskScore rt w.parsedAlerts
  if finalRisk.lt (.fin threshold) then return none
  let summary ← evidenceSummary rt ip w
  return some
    { incidentId := env.incidentId
      sourceIp := ip
      affectedEntities := w.affectedEntities
      threatClasses := w.threatClasses
      tactics := w.tactics
      highestRisk := finalRisk
      severity := w.maxSev
      riskScore := finalRisk
      createdTimestamp := env.createdTimestamp
      timestamp := env.timestamp
      status := "active"
      evidenceSummary := summary
      relatedAlertIds := w.relatedAlertIds
      traceId := alert.get "trace_id" }

/-! ## add_alert and rollback_alert_seen -/

/-- The call of CORRELATE and what follows it in the same `try`. The id travels as it is, so one with
an unpaired surrogate cannot be encoded. -/
def runCorrelate (rt : Runtime) (env : CallEnv) (ip : String) (alert : Object) (threshold : ℚ)
    (s : Store) : Except Exc (Option Incident) × Store :=
  match alert.get "alert_id", env.link with
  | .lone _, _ => (.error ⟨.valueError, "surrogates not allowed"⟩, s)
  | _, .lostRequest msg => (.error ⟨.redisError, msg⟩, s)
  | _, .lostReply msg => (.error ⟨.redisError, msg⟩, (s.correlate rt ip alert).2)
  | _, .ok =>
      let (reply, s) := s.correlate rt ip alert
      if reply.incident = 1 then (buildIncident rt env ip alert threshold reply.alertsSnapshot, s)
      else (.ok none, s)

-- `threshold=50.0`
def defaultThreshold : ℚ := 50

def addAlert (rt : Runtime) (env : CallEnv) (alert : Object) (threshold : ℚ) (c : Correlator) :
    Except Exc (Option Incident) × Correlator :=
  match checkRedisMaster env.now env.info c with
  | (.error e, c) => (.error e, c)
  | (.ok false, c) => (.ok none, c)
  | (.ok true, c) =>
      match sourceAddress rt alert with
      | none => (.ok none, c)
      | some ip =>
          if ip.length > 45 then (.ok none, c)
          else
            let (r, s) := runCorrelate rt env ip alert threshold c.store
            (r, { c with store := s })

/-- A lost call is only logged. -/
def rollbackAlertSeen (rt : Runtime) (link : Link) (alert : Object) (c : Correlator) :
    Except Exc Unit × Correlator :=
  match sourceAddress rt alert with
  | none => (.ok (), c)
  | some ip =>
      match alert.get "alert_id", link with
      | .lone _, _ => (.error ⟨.valueError, "surrogates not allowed"⟩, c)
      | _, .lostRequest _ => (.ok (), c)
      | _, _ => (.ok (), { c with store := c.store.rollback rt ip alert })

end NeuralSoc.Correlation
