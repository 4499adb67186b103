import Mathlib.Logic.Function.Basic
import NeuralSoc.Base.Value

/-!
# The file DLQ and its replay

`write_to_file_dlq` of `api/kafka_sink.py` appends to the DLQ file under a lock that `scripts/replay_dlq.py`
does not take, so an append and a replay interleave step by step. Files are told apart from their names:
a handle or a rename follows the file, not the path.
-/

namespace NeuralSoc.Dlq

/-! ## Data -/

/-- A line of a DLQ file. `content` is what `json.loads` makes of it, `none` for a blank or malformed
line; the serial numbers tell lines apart and are not in the file. -/
structure Line where
  serial : ℕ
  content : Option Json
  deriving DecidableEq

/-- An entry the replay has loaded: the alert it sends, and the line it is from. -/
structure Entry where
  serial : ℕ
  alert : Json
  deriving DecidableEq

structure Config where
  /-- `DLQ_MAX_SIZE_MB` -/
  maxSizeMb : ℤ
  /-- `DLQ_ROTATE_COUNT` -/
  rotateCount : ℤ
  /-- `os.path.getsize` of a file with these lines -/
  size : List Line → ℕ
  /-- `--dry-run` -/
  dryRun : Bool
  /-- `--limit` -/
  limit : Option ℤ
  /-- `--archive-after` -/
  archiveAfter : Bool

/-- How far `write_to_file_dlq` has come. All phases but `idle` hold the lock. -/
inductive Writer where
  | idle
  /-- the file is over its size -/
  | rotating
  /-- the file has been renamed to `.1` and not recreated -/
  | replaced
  | rotated
  /-- the file is open for appending -/
  | opened (file : ℕ)
  deriving DecidableEq

/-- How far `replay_dlq.py` has come. `loaded` are the entries it read, `todo` those not yet sent. -/
inductive Replay where
  | ready
  | sending (loaded todo : List Entry)
  | flushed (loaded : List Entry)
  | exited
  deriving DecidableEq

structure State where
  /-- the lines of each file ever created -/
  files : ℕ → List Line
  created : ℕ
  /-- the file at `DLQ_PATH` -/
  live : Option ℕ
  /-- the file at `DLQ_PATH.i` -/
  rotated : ℕ → Option ℕ
  /-- the file at `DLQ_PATH.replayed-time` -/
  archived : ℕ → Option ℕ
  writer : Writer
  replay : Replay
  /-- sent and not yet reported on by Kafka -/
  inFlight : List Entry
  /-- serials of the entries written to the DLQ -/
  appended : List ℕ
  /-- serials of the entries acknowledged by Kafka -/
  acked : List ℕ
  nextSerial : ℕ

/-! ## The writer -/

/-- The line `write_to_file_dlq` appends. -/
def record (item : Json) (error : String) (timestamp : ℚ) : Json :=
  .obj [("error", .str error), ("alert", item), ("timestamp", .float (.fin timestamp))]

/-- `for i in range(DLQ_ROTATE_COUNT - 1, 0, -1)`: move `.i` to `.(i + 1)`. -/
def shiftRotated : ℕ → (ℕ → Option ℕ) → ℕ → Option ℕ
  | 0, names => names
  | i + 1, names =>
      match names (i + 1) with
      | some file =>
          shiftRotated i (Function.update (Function.update names (i + 1) none) (i + 2) (some file))
      | none => shiftRotated i names

variable (cfg : Config) (s : State)

/-- The test of `_rotate_dlq_if_needed`, with the lock just taken. -/
def State.lock : State :=
  match s.live with
  | none => { s with writer := .rotated }
  | some file =>
      if cfg.maxSizeMb * (1024 * 1024) < cfg.size (s.files file) then { s with writer := .rotating }
      else { s with writer := .rotated }

/-- The renames of `_rotate_dlq_if_needed`. A missing file raises and the rotation is given up. -/
def State.replace : State :=
  let names := shiftRotated (cfg.rotateCount - 1).toNat s.rotated
  match s.live with
  | none => { s with rotated := names, writer := .rotated }
  | some file =>
      { s with rotated := Function.update names 1 (some file), live := none, writer := .replaced }

/-- `open(DLQ_PATH, "a")`: the file at the path, or a new one. -/
def State.openFile : ℕ × State :=
  match s.live with
  | some file => (file, s)
  | none =>
      (s.created, { s with files := Function.update s.files s.created [], live := some s.created
                           created := s.created + 1 })

/-- `f.write(json.dumps(...) + "\n")`, then the lock is released. -/
def State.write (file : ℕ) (item : Json) (error : String) (timestamp : ℚ) : State :=
  let line : Line := ⟨s.nextSerial, some (record item error timestamp)⟩
  { s with files := Function.update s.files file (s.files file ++ [line]), writer := .idle
           appended := s.nextSerial :: s.appended, nextSerial := s.nextSerial + 1 }

/-! ## The replay -/

/-- A line that is an object with an `alert`; all others are skipped. -/
def loadEntry (line : Line) : Option Entry :=
  match line.content with
  | some (.obj entry) => (entry.lookup "alert").map (Entry.mk line.serial)
  | _ => none

def loadDlqEntries (lines : List Line) : List Entry := lines.filterMap loadEntry

/-- `entries[:limit]` -/
def limited (limit : Option ℤ) (entries : List Entry) : List Entry :=
  match limit with
  | none => entries
  | some (.ofNat n) => entries.take n
  | some (.negSucc n) => entries.take (entries.length - (n + 1))

/-- Whether `main` renames the file once `replay` has returned. -/
def Config.archives : Bool := cfg.archiveAfter && !cfg.dryRun && cfg.limit.isNone

/-- Read the file and connect. A missing file, a dry run or a refused connection is the end. -/
def State.load (connects : Bool) : State :=
  match s.live with
  | none => { s with replay := .exited }
  | some file =>
      let entries := limited cfg.limit (loadDlqEntries (s.files file))
      if cfg.dryRun || !connects then { s with replay := .exited }
      else { s with replay := .sending entries entries }

/-- `os.rename(args.dlq_file, archived_path)`: a missing file raises. -/
def State.rename (time : ℕ) : State :=
  match s.live with
  | none => { s with replay := .exited }
  | some file =>
      { s with archived := Function.update s.archived time (some file), live := none
               replay := .exited }

/-! ## Steps -/

inductive Event where
  /-- the writer takes the lock and looks at the size -/
  | lock
  | replace
  | recreate
  /-- the rotation raises, which is logged, and the append goes on -/
  | rotationFails
  | openFile
  | write (item : Json) (error : String) (timestamp : ℚ)
  /-- the writer raises, which is logged, and the lock is released -/
  | abandon
  | load (connects : Bool)
  /-- `producer.send` of the next entry, which may raise -/
  | send (accepted : Bool)
  /-- the future of the `i`-th entry in flight is resolved -/
  | report (i : ℕ) (acked : Bool)
  /-- `producer.flush` returns, or raises at its timeout -/
  | flush (completes : Bool)
  | rename (time : ℕ)
  deriving DecidableEq

/-- One step of the writer, the replay or Kafka; a step that is not due changes nothing. -/
def step : Event → State
  | .lock => if s.writer = .idle then s.lock cfg else s
  | .replace => if s.writer = .rotating then s.replace cfg else s
  | .recreate => if s.writer = .replaced then { s.openFile.2 with writer := .rotated } else s
  | .rotationFails =>
      if s.writer = .rotating ∨ s.writer = .replaced then { s with writer := .rotated } else s
  | .openFile =>
      if s.writer = .rotated then { s.openFile.2 with writer := .opened s.openFile.1 } else s
  | .write item error timestamp =>
      match s.writer with
      | .opened file => s.write file item error timestamp
      | _ => s
  | .abandon => { s with writer := .idle }
  | .load connects => if s.replay = .ready then s.load cfg connects else s
  | .send accepted =>
      match s.replay with
      | .sending loaded (e :: todo) =>
          if accepted then
            { s with replay := .sending loaded todo, inFlight := s.inFlight ++ [e] }
          else { s with replay := .exited }
      | _ => s
  | .report i acked =>
      match s.inFlight[i]? with
      | some e =>
          { s with inFlight := s.inFlight.eraseIdx i
                   acked := if acked then e.serial :: s.acked else s.acked }
      | none => s
  | .flush completes =>
      match s.replay with
      | .sending loaded [] =>
          if !completes then { s with replay := .exited }
          else if s.inFlight ≠ [] then s
          else if cfg.archives then { s with replay := .flushed loaded }
          else { s with replay := .exited }
      | _ => s
  | .rename time =>
      match s.replay with
      | .flushed _ => s.rename time
      | _ => s

/-- The lines of a DLQ file found at the start. -/
def numbered (file : List (Option Json)) : List Line :=
  file.zipIdx.map fun (content, i) => ⟨i, content⟩

/-- Nothing runs yet; the entries of a file that is there count as appended. -/
def start (file : Option (List (Option Json))) : State where
  files i := if i = 0 then numbered (file.getD []) else []
  created := 1
  live := file.map fun _ => 0
  rotated _ := none
  archived _ := none
  writer := .idle
  replay := .ready
  inFlight := []
  appended := (loadDlqEntries (numbered (file.getD []))).map Entry.serial
  acked := []
  nextSerial := (file.getD []).length

def run (file : Option (List (Option Json))) (events : List Event) : State :=
  events.foldl (step cfg) (start file)

end NeuralSoc.Dlq
