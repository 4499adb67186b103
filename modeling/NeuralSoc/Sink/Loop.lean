import NeuralSoc.Sink.Batch
import Mathlib.Algebra.Order.Field.Rat

/-!
# The loop of the Kafka sink

One pass of the `while running` loop of `run_sink` in four stages, and the graceful shutdown after it.
The broker, the ingest endpoint and the clock are inputs. A commit that raises has not been applied.
An exception that leaves `process_batch` leaves `run_sink` too.
-/

namespace NeuralSoc.Sink

def maxMsgSize : ℕ := 5 * 1024 * 1024

def maxBatchSize : ℕ := 100

def maxCommitRetries : ℕ := 3

def maxConsecutiveFailures : ℕ := 5

def panicBatchSize : ℕ := 500

/-- A record of a poll; `parsed` is what decoding and `json.loads` make of its value. -/
structure Message where
  tp : TopicPartition
  offset : ℕ
  size : ℕ
  parsed : Option Json

structure SinkState where
  running : Bool
  batch : List Item
  lastCommit : ℚ
  consecutiveCommitFailures : ℕ
  highestObserved : Offsets
  lastCommitted : Offsets
  log : List Event

def SinkState.start (now : ℚ) : SinkState := ⟨true, [], now, 0, .empty, .empty, []⟩

/-- The outcomes of the calls of one pass; `commit` is asked once for each attempt. -/
structure CycleEnv where
  poll : Except Exc (List Message)
  now : ℚ
  later : ℚ
  endpoint : IngestFn
  commit : ℕ → Except Exc Unit
  evacuationCommit : Except Exc Unit
  staleCommit : Except Exc Unit
  panicCommit : Except Exc Unit

def SinkState.emit (s : SinkState) (events : List Event) : SinkState := { s with log := s.log ++ events }

/-- `d.update(offsets)` -/
def updateOffsets (d : Offsets) (offsets : List (TopicPartition × ℕ)) : Offsets :=
  offsets.foldl (fun d e => d.set e.1 e.2) d

/-! ## Polling -/

/-- The data of a message, unless it is too large, malformed or without an alert id. -/
def readMessage (rt : Runtime) (m : Message) : Option Object :=
  if m.size > maxMsgSize then none
  else
    match m.parsed with
    | some (.obj data) =>
        if (Object.get data "alert_id").truthy then some (serializeEvidence rt data) else none
    | _ => none

def collect (rt : Runtime) (s : SinkState) (m : Message) : SinkState :=
  let s : SinkState := { s with
    highestObserved := raiseOffset s.highestObserved m.tp m.offset
    log := s.log ++ [.polled m.tp m.offset] }
  match readMessage rt m with
  | some data => { s with batch := s.batch ++ [⟨data, m.tp, m.offset⟩] }
  | none => s.emit [.discarded m.tp m.offset]

def pollStage (rt : Runtime) (env : CycleEnv) (s : SinkState) : SinkState :=
  if s.batch.length < maxBatchSize then
    match env.poll with
    | .ok messages => messages.foldl (collect rt) s
    | .error _ => s
  else s

/-! ## Letting a batch go -/

def maxOffsets (batch : List Item) : Offsets :=
  batch.foldl (fun m it => raiseOffset m it.tp it.offset) .empty

/-- A commit without retry; `last_committed_offsets` follows it. -/
def tryCommit (outcome : Except Exc Unit) (offsets : List (TopicPartition × ℕ)) (s : SinkState) : SinkState :=
  match outcome with
  | .ok _ =>
      { s.emit [.committed offsets] with
        lastCommitted := updateOffsets s.lastCommitted offsets }
  | .error _ => s

def writeAll (reason : String) (batch : List Item) : List Event :=
  batch.map fun it => .dlq it.tp it.offset it.data reason

def clearBatch (later : ℚ) (s : SinkState) : SinkState :=
  { s with batch := [], lastCommit := later, consecutiveCommitFailures := 0 }

/-- The whole batch goes to the file DLQ, and its offsets are committed if that works. -/
def evacuate (env : CycleEnv) (reason : String) (s : SinkState) : SinkState :=
  clearBatch env.later
    (tryCommit env.evacuationCommit (maxOffsets s.batch).entries (s.emit (writeAll reason s.batch)))

/-- The batch is retained until the failures reach the threshold. -/
def retain (env : CycleEnv) (reason : String) (s : SinkState) : SinkState :=
  let s := { s.emit [.retained s.batch] with
    consecutiveCommitFailures := s.consecutiveCommitFailures + 1 }
  if s.consecutiveCommitFailures ≥ maxConsecutiveFailures then evacuate env reason s else s

/-! ## Flushing -/

def flushDue (env : CycleEnv) (s : SinkState) : Bool :=
  s.batch.length ≥ maxBatchSize || (s.batch.length > 0 && env.now - s.lastCommit ≥ 5)

def commitSucceeds (env : CycleEnv) : Bool :=
  (List.range maxCommitRetries).any fun attempt => (env.commit attempt).isOk

def flushStage (rt : Runtime) (env : CycleEnv) (s : SinkState) : SinkState :=
  if !flushDue env s then s
  else
    let (r, events) := processBatch rt (ingestViaApi env.endpoint) s.batch
    let s := s.emit (.attempted s.batch :: events)
    match r with
    | .error _ => { s with running := false }
    | .ok processedOffsets =>
        if processedOffsets.entries.isEmpty then
          retain env "DatabaseCommitFailureThresholdExceeded" s
        else if commitSucceeds env then
          clearBatch env.later (tryCommit (.ok ()) processedOffsets.entries s)
        else retain env "KafkaCommitFailureThresholdExceeded" s

/-! ## Stale offsets and the panic guard -/

/-- Watermarks no commit has reached yet. -/
def staleOffsets (s : SinkState) : List (TopicPartition × ℕ) :=
  s.highestObserved.entries.filter fun e => e.2 > (s.lastCommitted.get? e.1).getD 0

def staleStage (env : CycleEnv) (s : SinkState) : SinkState :=
  if s.batch.isEmpty && !(staleOffsets s).isEmpty then tryCommit env.staleCommit (staleOffsets s) s
  else s

-- Unlike the other evacuations, this one leaves `last_committed_offsets` alone.
def panicStage (env : CycleEnv) (s : SinkState) : SinkState :=
  if s.batch.length ≥ panicBatchSize then
    let t := s.emit (writeAll "BatchPanicThresholdExceeded" s.batch)
    clearBatch env.later
      { tryCommit env.panicCommit (maxOffsets s.batch).entries t with
        lastCommitted := s.lastCommitted }
  else s

/-! ## Runs -/

def cycle (rt : Runtime) (env : CycleEnv) (s : SinkState) : SinkState :=
  let s := flushStage rt env (pollStage rt env s)
  if s.running then panicStage env (staleStage env s) else s

/-- What follows the loop after a shutdown signal. -/
def shutdown (rt : Runtime) (endpoint : IngestFn) (commit : Except Exc Unit) (s : SinkState) : SinkState :=
  if s.batch.isEmpty then { s with running := false }
  else
    let (r, events) := processBatch rt (ingestViaApi endpoint) s.batch
    let s := { s.emit (.attempted s.batch :: events) with running := false }
    match r with
    | .ok processedOffsets =>
        if processedOffsets.entries.isEmpty then s else tryCommit commit processedOffsets.entries s
    | .error _ => s

inductive Input where
  | cycle (env : CycleEnv)
  | shutdown (endpoint : IngestFn) (commit : Except Exc Unit)

/-- A sink that has stopped does nothing any more. -/
def step (rt : Runtime) (s : SinkState) (i : Input) : SinkState :=
  if !s.running then s
  else
    match i with
    | .cycle env => cycle rt env s
    | .shutdown endpoint commit => shutdown rt endpoint commit s

end NeuralSoc.Sink
