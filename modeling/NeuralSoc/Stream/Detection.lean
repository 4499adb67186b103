import NeuralSoc.Correlation.Correlator

/-!
# One detection of the stream processor

The body of the `for det in detections` loop of `process_traffic`, and `_send_dlq_safely`. The
outcomes of its awaits are inputs. A step returns the exception it raises next to the world it leaves.
-/

namespace NeuralSoc.Stream

open Correlation

/-- What leaves the process, and the calls of `add_alert`, `lookup_age_days` and `_send_dlq_safely`. -/
inductive Event where
  | ageLookup (query : Json)
  | alertPublished (alert : Object)
  | addAlert (alert : Object)
  | incidentPublished (incident : Incident)
  | dlqSafely (alert : Object) (error : String)
  | deadLetter (payload : Object)
  | localFile (payload : Object)
  deriving DecidableEq

structure World where
  correlator : Correlator
  log : List Event

def World.emit (e : Event) (w : World) : World := { w with log := w.log ++ [e] }

/-- When the executor thread of an `add_alert` that is no longer awaited gets to run. -/
inductive Straggler where
  | never
  | early
  | late
  deriving DecidableEq, Repr

/-- `run_in_executor` and the `wait_for` around it. -/
inductive Wait where
  | inTime
  | refused (e : Exc)
  | timedOut (s : Straggler)

/-- The outcomes of the calls of one iteration. A `wait_for` that runs out raises a `timeoutError`;
the executor may refuse a rollback. -/
structure DetectionEnv where
  alertId : String
  timestamp : String
  enrich : Object → Except Exc Object
  validateAlert : Object → Except Exc (Bool × String)
  alertSend : Except Exc Unit
  wait : Wait
  call : CallEnv
  incidentSend : Except Exc Unit
  sendRollback : Except Exc Link
  timeoutRollback : Except Exc Link
  dlqSend : Except Exc Unit
  dlqTimestamp : String

variable (rt : Runtime) (env : DetectionEnv)

/-! ## The alert -/

/-- `str(x)`; a text stays what it is. -/
def toStr : Json → Json
  | .lone units => .lone units
  | x => .str (rt.str x)

def rawAlert (event det : Object) (eventTraceId : String) : Except Exc Object := do
  let confidence ← toFloat rt ((det.get "confidence").or (.float (.fin (9 / 10))))
  return [("alert_id", .str env.alertId),
    ("timestamp", .str env.timestamp),
    ("source_ip", toStr rt ((event.get "id.orig_h").or (.str "127.0.0.1"))),
    ("destination_ip", toStr rt ((event.get "id.resp_h").or (.str "127.0.0.1"))),
    ("threat_class", det.get "threat_class"),
    ("severity", det.get "severity"),
    ("confidence_score", .float confidence),
    ("evidence", det.getD "evidence" (.obj [])),
    ("event_type", toStr rt ((event.get "event_type").or (.str "unknown"))),
    ("schema_version", .str "1.0"),
    ("model_name", toStr rt ((det.get "rule_id").or (.str "Unknown"))),
    ("model_version", .str "1.0"),
    ("mitre_tactic", det.get "mitre_tactic"),
    ("mitre_technique", det.get "mitre_technique"),
    ("trace_id", .str eventTraceId)]

/-! ## The dead-letter queue -/

def dlqPayload (event alert : Object) (error : String) : Object :=
  [("original_event", .obj event), ("alert", .obj (alert.set "is_replay" (.bool true))),
    ("error", .str error), ("timestamp", .str env.dlqTimestamp)]

/-- `_send_dlq_safely`: what Kafka does not take goes to the local file. -/
def sendDlqSafely (event alert : Object) (error : String) (w : World) : World :=
  let w := w.emit (.dlqSafely alert error)
  match env.dlqSend with
  | .ok _ => w.emit (.deadLetter (dlqPayload env event alert error))
  | .error _ => w.emit (.localFile (dlqPayload env event alert error))

/-! ## Correlation -/

/-- A rollback dispatched to the executor; its exceptions are logged only. -/
def dispatchRollback (outcome : Except Exc Link) (alert : Object) (w : World) : World :=
  match outcome with
  | .ok link => { w with correlator := (rollbackAlertSeen rt link alert w.correlator).2 }
  | .error _ => w

/-- The given-up thread still runs `add_alert`; nobody reads its result. -/
def runStraggler (alert : Object) (w : World) : World :=
  { w with correlator := (addAlert rt env.call alert defaultThreshold w.correlator).2 }

/-- A refused call is not made. -/
def awaitAddAlert (alert : Object) (w : World) : Except Exc (Option Incident) × World :=
  match env.wait with
  | .inTime =>
      let (r, c) := addAlert rt env.call alert defaultThreshold w.correlator
      (r, { w.emit (.addAlert alert) with correlator := c })
  | .refused e => (.error e, w)
  | .timedOut .early => (.error ⟨.timeoutError, ""⟩, runStraggler rt env alert (w.emit (.addAlert alert)))
  | .timedOut _ => (.error ⟨.timeoutError, ""⟩, w.emit (.addAlert alert))

def sendIncident (alert : Object) (incident : Incident) (w : World) : Except Exc Unit × World :=
  match env.incidentSend with
  | .ok _ => (.ok (), w.emit (.incidentPublished incident))
  | .error e => (.error e, dispatchRollback rt env.sendRollback alert w)

/-- The body of the `try` around correlation. -/
def correlateAlert (alert : Object) (w : World) : Except Exc Unit × World :=
  match awaitAddAlert rt env alert w with
  | (.error e, w) => (.error e, w)
  | (.ok none, w) => (.ok (), w)
  | (.ok (some incident), w) => sendIncident rt env alert incident w

/-- A thread that reaches Redis only after the rollback. -/
def runLate (alert : Object) (w : World) : World :=
  match env.wait with
  | .timedOut .late => runStraggler rt env alert w
  | _ => w

/-- Its `except asyncio.TimeoutError`. -/
def onTimeout (event alert : Object) (w : World) : World :=
  sendDlqSafely env event alert "Timeout during correlation or incident send"
    (runLate rt env alert (dispatchRollback rt env.timeoutRollback alert w))

def handleCorrelation (event alert : Object) (w : World) : World :=
  match correlateAlert rt env alert w with
  | (.ok _, w) => w
  | (.error e, w) =>
      match e.cls with
      | .timeoutError => onTimeout rt env event alert w
      | .redisError => sendDlqSafely env event alert s!"RedisUnavailable: {e.text}" w
      | _ => sendDlqSafely env event alert e.text w

/-! ## The loop body -/

def publishAlert (event alert : Object) (w : World) : World :=
  match env.alertSend with
  | .ok _ => handleCorrelation rt env event alert (w.emit (.alertPublished alert))
  | .error e =>
      if e.cls = .timeoutError then
        sendDlqSafely env event alert "Timeout during alert Kafka publish" w
      else sendDlqSafely env event alert s!"KafkaPublishError: {e.text}" w

/-- The `except` of the whole body. -/
def onLoopError (event det : Object) (e : Exc) (w : World) : World :=
  sendDlqSafely env event [("detection", .str (rt.str (.obj det)))]
    s!"DetectionLoopError: {e.text}" w

/-- One iteration over `detections`. What `enrich` has written into the alert before it raises is left
out. -/
def processDetection (event det : Object) (eventTraceId : String) (w : World) : World :=
  match rawAlert rt env event det eventTraceId with
  | .error e => onLoopError rt env event det e w
  | .ok raw =>
      let alert := match env.enrich raw with
        | .ok alert => alert
        | .error _ => raw
      match env.validateAlert alert with
      | .error e => onLoopError rt env event det e w
      | .ok (false, schemaErr) =>
          sendDlqSafely env event alert s!"SchemaValidationError: {schemaErr}" w
      | .ok (true, _) => publishAlert rt env event alert w

end NeuralSoc.Stream
