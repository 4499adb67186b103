import NeuralSoc.Sink.Loop
import NeuralSoc.Tenants.Ingest

/-!
# From the alerts topic to the table

The topic, the broker's offsets, the Kafka sink and the ingest endpoint together. The sink is the only member of
its consumer group, and it can die between any two passes; a pass that is cut short is one whose remaining calls
fail. The broker keeps its records, and a commit stays after a restart.
-/

namespace NeuralSoc.Delivery

open Sink

/-! ## The topic -/

/-- The offset of a record is its place in its partition. -/
structure Record where
  size : ℕ
  parsed : Option Json

abbrev Topic := TopicPartition → List Record

def Record.message (record : Record) (tp : TopicPartition) (offset : ℕ) : Message :=
  ⟨tp, offset, record.size, record.parsed⟩

abbrev Positions := TopicPartition → ℕ

/-- A poll returns the next records of some partitions. -/
def fetch (topic : Topic) : Positions → List TopicPartition → List Message × Positions
  | position, [] => ([], position)
  | position, tp :: plan =>
      match (topic tp)[position tp]? with
      | some record =>
          let (messages, position') := fetch topic (Function.update position tp (position tp + 1)) plan
          (record.message tp (position tp) :: messages, position')
      | none => fetch topic position plan

/-- The offsets of the consumer group. -/
def committedOffsets (log : List Event) : Offsets :=
  log.foldl (fun d e =>
    match e with
    | .committed offsets => updateOffsets d offsets
    | _ => d) .empty

/-- `auto_offset_reset="earliest"` -/
def committedPosition (log : List Event) (tp : TopicPartition) : ℕ := ((committedOffsets log).get? tp).getD 0

/-! ## The endpoint -/

structure Site where
  runtime : Runtime
  tenantId : ℕ
  encodingError : AlertPayload → String

def plainText (t : Text) : Option String :=
  match t.1 with
  | .str s => some s
  | _ => none

def plainOptional : Option Text → Option (Option String)
  | none => some none
  | some t => (plainText t).map some

/-- The alert as the database driver encodes it: a lone surrogate has no encoding. -/
def received (p : AlertPayload) : Option Tenants.AlertPayload := do
  let alertId ← plainText p.alertId
  let eventType ← plainText p.eventType
  let timestamp ← plainText p.timestamp
  let threatClass ← plainText p.threatClass
  let severity ← plainText p.severity
  let sourceIp ← plainText p.sourceIp
  let destinationIp ← plainOptional p.destinationIp
  let evidence ← plainOptional p.evidence
  let traceId ← plainOptional p.traceId
  let flowId ← plainOptional p.flowId
  let spanId ← plainOptional p.spanId
  let mitreTactic ← plainOptional p.mitreTactic
  let mitreTechnique ← plainOptional p.mitreTechnique
  let modelName ← plainOptional p.modelName
  let modelVersion ← plainOptional p.modelVersion
  let schemaVersion ← plainOptional p.schemaVersion
  return { alertId, eventType, timestamp, threatClass, severity, confidenceScore := p.confidenceScore, sourceIp,
           destinationIp, evidence, traceId, flowId, spanId, mitreTactic, mitreTechnique, modelName,
           modelVersion, schemaVersion }

variable {db : Tenants.Database}

/-- The path item by item of `ingest_alerts`, for a batch that the bulk path cannot encode. -/
def ingestOne (site : Site) (state : Failed × Tenants.AlertTable db) (p : AlertPayload) :
    Failed × Tenants.AlertTable db :=
  match received p with
  | some d =>
      match Tenants.upsertItem site.tenantId d state.2 with
      | .ok table => (state.1, table)
      | .error e => (state.1 ++ [(p.alertId.1, e)], state.2)
  | none => (state.1 ++ [(p.alertId.1, site.encodingError p)], state.2)

def ingestBody (site : Site) (body : List AlertPayload) (table : Tenants.AlertTable db) :
    Failed × Tenants.AlertTable db :=
  match body.mapM received with
  | some batch =>
      let (response, table) := Tenants.ingestAlerts site.tenantId batch table
      (response.failed.map fun f => (.str f.1, f.2), table)
  | none => body.foldl (ingestOne site) ([], table)

/-- An id with a lone surrogate cannot be encoded in the response either. -/
def answer (failed : Failed) : Except Exc Failed :=
  if failed.all fun f => f.1 matches .str _ then .ok failed else .error ⟨.other, "500 Server Error"⟩

/-- What becomes of a request. A delayed one may still be carried out after the sink gave it up. -/
inductive Outcome where
  | lost
  | unanswered
  | answered
  | delayed
  deriving DecidableEq

def post (site : Site) (outcome : Outcome) (body : List AlertPayload) (table : Tenants.AlertTable db) :
    Except Exc Failed × Tenants.AlertTable db :=
  match outcome with
  | .lost | .delayed => (.error ⟨.other, "ConnectionError"⟩, table)
  | .unanswered => (.error ⟨.other, "ReadTimeout"⟩, (ingestBody site body table).2)
  | .answered =>
      let (failed, table) := ingestBody site body table
      (answer failed, table)

/-- What `process_batch` sends of a batch, when it sends something. -/
def requestBody (rt : Runtime) (batch : List Item) : Option (List AlertPayload) :=
  if (batch.findSome? (linkFailure rt)).isSome then none
  else
    let valid := (checkItems rt batch).validItems
    let body := (dedup valid).map Entry.alert
    if !valid.isEmpty && body.all fun a => a.confidenceScore.isFinite then some body else none

/-! ## The pipeline -/

/-- `past` is what the sink did before it was last started; `outstanding` are the delayed requests. -/
structure Pipeline (db : Tenants.Database) where
  topic : Topic
  position : Positions
  sink : SinkState
  past : List Event
  table : Tenants.AlertTable db
  outstanding : List (List AlertPayload)

def Pipeline.start (now : ℚ) : Pipeline db := ⟨fun _ => [], fun _ => 0, .start now, [], .empty, []⟩

def Pipeline.log (p : Pipeline db) : List Event := p.past ++ p.sink.log

def Pipeline.attempt (site : Site) (outcome : Outcome) (batch : List Item) (p : Pipeline db) : Pipeline db :=
  match requestBody site.runtime batch with
  | none => p
  | some body =>
      { p with
        table := (post site outcome body p.table).2
        outstanding := if outcome = .delayed then p.outstanding ++ [body] else p.outstanding }

/-- One pass of the loop. The poll raises when it has no plan. -/
structure Turn where
  plan : Option (List TopicPartition)
  now : ℚ
  later : ℚ
  outcome : Outcome
  commit : ℕ → Except Exc Unit
  evacuationCommit : Except Exc Unit
  staleCommit : Except Exc Unit
  panicCommit : Except Exc Unit

def Turn.env (site : Site) (turn : Turn) (p : Pipeline db) : CycleEnv where
  poll :=
    match turn.plan with
    | some plan => .ok (fetch p.topic p.position plan).1
    | none => .error ⟨.other, "KafkaError"⟩
  now := turn.now
  later := turn.later
  endpoint := fun body => (post site turn.outcome body p.table).1
  commit := turn.commit
  evacuationCommit := turn.evacuationCommit
  staleCommit := turn.staleCommit
  panicCommit := turn.panicCommit

def Pipeline.polledPosition (turn : Turn) (p : Pipeline db) : Positions :=
  match turn.plan with
  | some plan => if p.sink.batch.length < maxBatchSize then (fetch p.topic p.position plan).2 else p.position
  | none => p.position

def Pipeline.pass (site : Site) (turn : Turn) (p : Pipeline db) : Pipeline db :=
  let env := turn.env site p
  let polled := pollStage site.runtime env p.sink
  let q := if flushDue env polled then p.attempt site turn.outcome polled.batch else p
  { q with
    position := p.polledPosition turn
    sink := cycle site.runtime env p.sink }

def Pipeline.stop (site : Site) (outcome : Outcome) (commit : Except Exc Unit) (p : Pipeline db) : Pipeline db :=
  let endpoint := fun body => (post site outcome body p.table).1
  let q := if p.sink.batch.isEmpty then p else p.attempt site outcome p.sink.batch
  { q with sink := shutdown site.runtime endpoint commit p.sink }

/-- The batch is lost with the process, and the new one reads on from what is committed. -/
def Pipeline.restart (now : ℚ) (p : Pipeline db) : Pipeline db :=
  { p with
    position := committedPosition p.log
    sink := .start now
    past := p.log }

def Pipeline.carryOut (site : Site) (n : ℕ) (p : Pipeline db) : Pipeline db :=
  match p.outstanding[n]? with
  | some body => { p with table := (ingestBody site body p.table).2, outstanding := p.outstanding.eraseIdx n }
  | none => p

/-- `ingest` is a request of another sensor. -/
inductive Action where
  | produce (tp : TopicPartition) (record : Record)
  | pass (turn : Turn)
  | stop (outcome : Outcome) (commit : Except Exc Unit)
  | restart (now : ℚ)
  | carryOut (n : ℕ)
  | ingest (tenantId : ℕ) (batch : List Tenants.AlertPayload)

def step (site : Site) (p : Pipeline db) : Action → Pipeline db
  | .produce tp record => { p with topic := Function.update p.topic tp (p.topic tp ++ [record]) }
  | .pass turn => if p.sink.running then p.pass site turn else p
  | .stop outcome commit => if p.sink.running then p.stop site outcome commit else p
  | .restart now => p.restart now
  | .carryOut n => p.carryOut site n
  | .ingest tenantId batch => { p with table := (Tenants.ingestAlerts tenantId batch p.table).2 }

end NeuralSoc.Delivery
