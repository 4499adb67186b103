import Mathlib.Algebra.BigOperators.Group.List.Basic
import Mathlib.Algebra.GroupWithZero.Nat
import Mathlib.Logic.Function.Basic

/-!
# The rotation of a DLQ file

`_rotate_dlq_if_needed` and the append after it, one file operation a step. `api/kafka_sink.py` and
`inference/stream_processor_faust.py` have the same code; they differ in the mode of the files they
create. Appends take turns under a lock, and one that is interrupted gives the lock back.
-/

namespace NeuralSoc.Dlq

structure RotationConfig where
  /-- `DLQ_MAX_SIZE_MB` -/
  maxSizeMb : ℕ
  /-- `DLQ_ROTATE_COUNT` -/
  rotateCount : ℕ

/-- The size in bytes above which the file is rotated. -/
def RotationConfig.limit (cfg : RotationConfig) : ℕ := cfg.maxSizeMb * (1024 * 1024)

/-- `os.path.getsize` of a file with these lines. -/
def sizeOfLines (lines : List String) : ℕ := (lines.map String.utf8ByteSize).sum

/-- The next file operation of an append. -/
inductive Appender where
  | idle
  /-- `os.path.exists(DLQ_PATH)` -/
  | looking (line : String)
  /-- `os.path.getsize(DLQ_PATH)` -/
  | measuring (line : String)
  /-- `os.path.exists` of `.i`, or the rename of the file itself when `i` is 0 -/
  | shifting (i : ℕ) (line : String)
  /-- `os.replace` of `.i` -/
  | moving (i : ℕ) (line : String)
  /-- `open(DLQ_PATH, 'a').close()` -/
  | recreating (line : String)
  /-- `open(DLQ_PATH, "a")` -/
  | opening (line : String)
  /-- `f.write(line)` -/
  | writing (line : String)
  deriving DecidableEq

structure Disk where
  /-- the lines of `DLQ_PATH` at 0 and of `DLQ_PATH.i` at `i` -/
  file : ℕ → Option (List String)
  appender : Appender
  /-- every line that has been written, the oldest first -/
  log : List String

def Disk.empty : Disk := ⟨fun _ => none, .idle, []⟩

/-- `os.replace` of `.i` with `.(i + 1)` as its new name -/
def moveUp (i : ℕ) (file : ℕ → Option (List String)) : ℕ → Option (List String) :=
  Function.update (Function.update file (i + 1) (file i)) i none

/-- `open(path, 'a')` creates a missing file. -/
def linesOf (file : Option (List String)) : List String := file.getD []

/-- The next file operation. -/
def Disk.advance (cfg : RotationConfig) (d : Disk) : Disk :=
  match d.appender with
  | .idle => d
  | .looking line =>
      match d.file 0 with
      | some _ => { d with appender := .measuring line }
      | none => { d with appender := .opening line }
  | .measuring line =>
      if cfg.limit < sizeOfLines (linesOf (d.file 0)) then
        { d with appender := .shifting (cfg.rotateCount - 1) line }
      else { d with appender := .opening line }
  | .shifting 0 line => { d with file := moveUp 0 d.file, appender := .recreating line }
  | .shifting (i + 1) line =>
      match d.file (i + 1) with
      | some _ => { d with appender := .moving (i + 1) line }
      | none => { d with appender := .shifting i line }
  | .moving i line => { d with file := moveUp i d.file, appender := .shifting (i - 1) line }
  | .recreating line =>
      { d with file := Function.update d.file 0 (some (linesOf (d.file 0))), appender := .opening line }
  | .opening line =>
      { d with file := Function.update d.file 0 (some (linesOf (d.file 0))), appender := .writing line }
  | .writing line =>
      { d with
        file := Function.update d.file 0 (some (linesOf (d.file 0) ++ [line]))
        appender := .idle
        log := d.log ++ [line] }

inductive DiskEvent where
  /-- an append takes the lock -/
  | append (line : String)
  | advance
  /-- the process dies; the lock is released -/
  | interrupt
  deriving DecidableEq

def Disk.step (cfg : RotationConfig) (d : Disk) : DiskEvent → Disk
  | .append line => if d.appender = .idle then { d with appender := .looking line } else d
  | .advance => d.advance cfg
  | .interrupt => { d with appender := .idle }

/-- The lines of the files `.n` to `.1` and of the file itself, one after the other. -/
def joined (file : ℕ → Option (List String)) : ℕ → List String
  | 0 => linesOf (file 0)
  | n + 1 => linesOf (file (n + 1)) ++ joined file n

def Disk.kept (cfg : RotationConfig) (d : Disk) : List String := joined d.file cfg.rotateCount

/-- The lines that have been written and are in no file any more. -/
def Disk.removed (cfg : RotationConfig) (d : Disk) : List String :=
  d.log.take (d.log.length - (d.kept cfg).length)

end NeuralSoc.Dlq
