import NeuralSoc.Base.Dict
import NeuralSoc.Base.Value

/-!
# One batch of the Kafka sink

`AlertPayload`, `_ingest_via_api` and `process_batch`. The ingest endpoint is an input. A call of `write_to_file_dlq`
is an event, whatever its append comes to; the copy on the Kafka DLQ topic is best effort and left out.
-/

namespace NeuralSoc.Sink

structure TopicPartition where
  topic : String
  partition : ℕ
  deriving DecidableEq, Repr

/-! ## AlertPayload -/

abbrev Text := { j : Json // j.isStr = true }

structure AlertPayload where
  alertId : Text
  eventType : Text
  timestamp : Text
  threatClass : Text
  severity : Text
  confidenceScore : PyFloat
  sourceIp : Text
  destinationIp : Option Text
  evidence : Option Text
  traceId : Option Text
  flowId : Option Text
  spanId : Option Text
  mitreTactic : Option Text
  mitreTechnique : Option Text
  modelName : Option Text
  modelVersion : Option Text
  schemaVersion : Option Text

def text? (j : Json) : Option Text := if h : j.isStr = true then some ⟨j, h⟩ else none

def requiredText (raw : Object) (key : String) : Option Text := (raw.lookup key).bind text?

/-- `Optional[str] = None`. -/
def optionalText (raw : Object) (key : String) : Option (Option Text) :=
  match raw.lookup key with
  | none | some .null => some none
  | some j => (text? j).map some

/-- A float field also takes integers, booleans and the texts of numbers. -/
def floatField (rt : Runtime) : Json → Option PyFloat
  | .str s => rt.payloadFloat s
  | .lone _ => none
  | j => (toFloat rt j).toOption

/-- `AlertPayload(**raw_item)`; fields it does not know are ignored. -/
def validatePayload (rt : Runtime) (raw : Object) : Option AlertPayload := do
  let alertId ← requiredText raw "alert_id"
  let eventType ← requiredText raw "event_type"
  let timestamp ← requiredText raw "timestamp"
  let threatClass ← requiredText raw "threat_class"
  let severity ← requiredText raw "severity"
  let confidenceScore ← (raw.lookup "confidence_score").bind (floatField rt)
  let sourceIp ← requiredText raw "source_ip"
  let destinationIp ← optionalText raw "destination_ip"
  let evidence ← optionalText raw "evidence"
  let traceId ← optionalText raw "trace_id"
  let flowId ← optionalText raw "flow_id"
  let spanId ← optionalText raw "span_id"
  let mitreTactic ← optionalText raw "mitre_tactic"
  let mitreTechnique ← optionalText raw "mitre_technique"
  let modelName ← optionalText raw "model_name"
  let modelVersion ← optionalText raw "model_version"
  let schemaVersion ← optionalText raw "schema_version"
  return { alertId, eventType, timestamp, threatClass, severity, confidenceScore, sourceIp,
           destinationIp, evidence, traceId, flowId, spanId, mitreTactic, mitreTechnique, modelName,
           modelVersion, schemaVersion }

def dumpText : Option Text → Json
  | none => .null
  | some t => t.1

def AlertPayload.modelDump (p : AlertPayload) : Object :=
  [("alert_id", p.alertId.1), ("event_type", p.eventType.1), ("timestamp", p.timestamp.1),
    ("threat_class", p.threatClass.1), ("severity", p.severity.1),
    ("confidence_score", .float p.confidenceScore), ("source_ip", p.sourceIp.1),
    ("destination_ip", dumpText p.destinationIp), ("evidence", dumpText p.evidence),
    ("trace_id", dumpText p.traceId), ("flow_id", dumpText p.flowId),
    ("span_id", dumpText p.spanId), ("mitre_tactic", dumpText p.mitreTactic),
    ("mitre_technique", dumpText p.mitreTechnique), ("model_name", dumpText p.modelName),
    ("model_version", dumpText p.modelVersion), ("schema_version", dumpText p.schemaVersion)]

/-! ## Messages and events -/

/-- `(raw_item, tp, offset)` -/
structure Item where
  data : Object
  tp : TopicPartition
  offset : ℕ
  deriving DecidableEq

/-- `(alert_dict, tp, offset)` -/
structure Entry where
  alert : AlertPayload
  tp : TopicPartition
  offset : ℕ

/-- What the sink does that is seen outside. `attempted` marks a call of `process_batch`, `retained` the
warning that the batch is kept for a retry. -/
inductive Event where
  | polled (tp : TopicPartition) (offset : ℕ)
  | discarded (tp : TopicPartition) (offset : ℕ)
  | attempted (batch : List Item)
  | retained (batch : List Item)
  | accepted (tp : TopicPartition) (offset : ℕ)
  | dlq (tp : TopicPartition) (offset : ℕ) (alert : Object) (error : String)
  | committed (offsets : List (TopicPartition × ℕ))
  deriving DecidableEq

abbrev Offsets := Dict TopicPartition ℕ

/-- `m[tp] = max(m.get(tp, -1), offset + 1)` -/
def raiseOffset (m : Offsets) (tp : TopicPartition) (offset : ℕ) : Offsets :=
  m.set tp (max ((m.get? tp).getD 0) (offset + 1))

/-! ## The ingest call -/

/-- The `failed` list of a 2xx response: alert id and error. -/
abbrev Failed := List (Json × String)

abbrev IngestFn := List AlertPayload → Except Exc Failed

/-- The request body is encoded without NaN and infinities before it is sent. -/
def ingestViaApi (endpoint : IngestFn) : IngestFn := fun alerts =>
  if alerts.all fun a => a.confidenceScore.isFinite then endpoint alerts
  else .error ⟨.valueError, "Out of range float values are not JSON compliant"⟩

/-! ## process_batch -/

/-- The exception that the link to the trace of a message raises. -/
def linkFailure (rt : Runtime) (it : Item) : Option Exc :=
  let rawTraceId := it.data.get "trace_id"
  if rawTraceId.truthy then rt.extract rawTraceId else none

/-- An object or a list as evidence is replaced by its JSON text. -/
def serializeEvidence (rt : Runtime) (raw : Object) : Object :=
  match raw.get "evidence" with
  | .arr xs => raw.set "evidence" (.str (rt.dumps (.arr xs)))
  | .obj fields => raw.set "evidence" (.str (rt.dumps (.obj fields)))
  | _ => raw

structure Progress where
  validItems : List Entry
  offsetsMap : Offsets
  events : List Event

def checkItem (rt : Runtime) (p : Progress) (it : Item) : Progress :=
  let raw := serializeEvidence rt it.data
  match validatePayload rt raw with
  | some alert => { p with validItems := p.validItems ++ [⟨alert, it.tp, it.offset⟩] }
  | none =>
      { p with
        offsetsMap := raiseOffset p.offsetsMap it.tp it.offset
        events := p.events ++ [.dlq it.tp it.offset raw (rt.validationText raw)] }

def checkItems (rt : Runtime) (batch : List Item) : Progress :=
  batch.foldl (checkItem rt) ⟨[], .empty, []⟩

/-- One entry for each alert id, the last one of the batch. -/
def dedup (valid : List Entry) : List Entry :=
  (valid.foldl (fun byAid e => byAid.set e.alert.alertId.1 e) (.empty : Dict Json Entry)).values

def failedById (failed : Failed) : Dict Json String :=
  failed.foldl (fun d f => d.set f.1 f.2) .empty

/-- What a 2xx response makes of an entry. -/
def fate (failed : Failed) (e : Entry) : Event :=
  match (failedById failed).get? e.alert.alertId.1 with
  | some error => .dlq e.tp e.offset e.alert.modelDump error
  | none => .accepted e.tp e.offset

/-- The returned offsets, or the exception that leaves `process_batch`, and what it did. -/
def processBatch (rt : Runtime) (ingest : IngestFn) (batch : List Item) :
    Except Exc Offsets × List Event :=
  match batch.findSome? (linkFailure rt) with
  | some e => (.error e, [])
  | none =>
      let p := checkItems rt batch
      if p.validItems.isEmpty then (.ok p.offsetsMap, p.events)
      else
        let deduped := dedup p.validItems
        match ingest (deduped.map Entry.alert) with
        | .error _ => (.ok .empty, p.events)
        | .ok failed =>
            (.ok (deduped.foldl (fun m e => raiseOffset m e.tp e.offset) p.offsetsMap),
              p.events ++ deduped.map (fate failed))

end NeuralSoc.Sink
