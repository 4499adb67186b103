import NeuralSoc.Base.Handler
import NeuralSoc.Base.Value

/-!
# The loop over a log

`process_log` of `ingest/tail_to_redpanda.py`: one event of a line is sent to the broker, and a line that is
rejected goes to the dead letters. An exception is an `Exception`; what leaves the loop is printed and ends it.
-/

namespace NeuralSoc.Tailer

open Handler

structure Metrics where
  read : ℕ
  published : ℕ
  rejected : ℕ
  deadLettered : ℕ
  deriving DecidableEq, Repr

structure State where
  metrics : Metrics
  /-- topic and value of what the broker has accepted -/
  sent : List (String × Object)

namespace State

def start : State := ⟨⟨0, 0, 0, 0⟩, []⟩

variable (s : State)

def addRead : State := { s with metrics := { s.metrics with read := s.metrics.read + 1 } }

def addPublished : State := { s with metrics := { s.metrics with published := s.metrics.published + 1 } }

def addRejected : State := { s with metrics := { s.metrics with rejected := s.metrics.rejected + 1 } }

def addDeadLettered : State :=
  { s with metrics := { s.metrics with deadLettered := s.metrics.deadLettered + 1 } }

def addSent (topic : String) (value : Object) : State := { s with sent := s.sent ++ [(topic, value)] }

end State

structure Config where
  /-- `json.loads(text)` -/
  loads : String → Except Exc Json
  sensorId : String
  logType : String

/-- What `readline` returns, the clock while it is handled, and what the two calls of `producer.send` would do. -/
structure Line where
  text : String
  ingestedAt : PyFloat
  rejectedAt : PyFloat
  rawSend : Except Exc Unit
  deadLetterSend : Except Exc Unit

def validateZeekEvent : Json → Bool
  | .obj fields => fields.any (·.1 == "ts")
  | _ => false

/-- The fields of a dict. -/
def fieldsOf : Json → Object
  | .obj fields => fields
  | _ => []

variable (cfg : Config) (line : Line)

def enrich (event : Object) : Object :=
  ((event.set "ingestion_timestamp" (.float line.ingestedAt)).set "sensor_id" (.str cfg.sensorId)).set
    "event_type" (.str cfg.logType)

def deadLetter (e : Exc) : Object :=
  [("raw_payload", .str (strip line.text)), ("error", .str e.text), ("sensor_id", .str cfg.sensorId),
    ("timestamp", .float line.rejectedAt)]

def send (topic : String) (value : Object) (outcome : Except Exc Unit) : Handler State Exc Unit := do
  lift outcome
  modify (·.addSent topic value)

/-- The body of the inner `try`. -/
def publish : Handler State Exc Unit := do
  let event ← lift (cfg.loads (strip line.text))
  ensure (validateZeekEvent event) ⟨.valueError, "Missing required Zeek fields (ts)"⟩
  send "raw_traffic" (enrich cfg line (fieldsOf event)) line.rawSend
  modify State.addPublished

/-- The two `except` clauses; the second one prints. -/
def reject (e : Exc) : Handler State Exc Unit := do
  modify State.addRejected
  if e.cls = .valueError then
    send "dead_letter_events" (deadLetter cfg line e) line.deadLetterSend
    modify State.addDeadLettered
  else pure ()

/-- One pass of the loop. -/
def processLine : Handler State Exc Unit :=
  if line.text = "" then pure ()
  else do
    modify State.addRead
    if strip line.text = "" then pure () else recover (publish cfg line) (reject cfg line)

/-- The loop over everything that is read. An exception is what has left it. -/
def processLog : List Line → Handler State Exc Unit := forEach (processLine cfg)

end NeuralSoc.Tailer
