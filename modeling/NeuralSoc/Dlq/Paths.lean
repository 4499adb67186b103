import NeuralSoc.Base.Paths
import NeuralSoc.Base.Shell

/-!
# Where a DLQ file is put

`_resolve_dlq_file_path` of `inference/stream_processor_faust.py` and the `DLQ_PATH` of `api/kafka_sink.py`: the
configured path, with the name of the pod in it or not, is resolved and compared with `/tmp/dlq`.
-/

namespace NeuralSoc.Dlq

open Shell

def slash : ℕ := 47

def dot : ℕ := 46

def hyphen : ℕ := 45

def IsName (name : Text) : Prop := name ≠ [] ∧ slash ∉ name ∧ name ≠ points "." ∧ name ≠ points ".."

/-- What `os.path.realpath` returns: an absolute path, as the names from the root on. -/
structure RealPath where
  names : List Text
  isName : ∀ name ∈ names, IsName name

def RealPath.text (path : RealPath) : Text := if path.names = [] then [slash] else spelled slash path.names

/-! ## `os.path` -/

/-- `os.path.split`: slashes at the end of the directory are dropped unless it has nothing else. -/
def splitPath (path : Text) : Text × Text :=
  let head := (path.reverse.dropWhile (· ≠ slash)).reverse
  let tail := (path.reverse.takeWhile (· ≠ slash)).reverse
  (if head.all (· = slash) then head else (head.reverse.dropWhile (· = slash)).reverse, tail)

/-- `os.path.splitext`: dots that the file name begins with do not begin an extension. -/
def splitExt (path : Text) : Text × Text :=
  let stem := ((path.reverse.dropWhile (· ≠ dot)).drop 1).reverse
  let ext := (path.reverse.takeWhile (· ≠ dot)).reverse
  let name := (stem.reverse.takeWhile (· ≠ slash)).reverse
  if dot ∈ path ∧ slash ∉ ext ∧ name.any (· ≠ dot) then (stem, dot :: ext) else (path, [])

/-- `os.path.join` -/
def joinPath (dir name : Text) : Text :=
  if name.head? = some slash then name
  else if dir = [] ∨ dir.getLast? = some slash then dir ++ name
  else dir ++ slash :: name

/-! ## The two paths -/

structure Host where
  /-- `raw.format(pod=pod)`, `none` for an exception -/
  format : Text → Text → Option Text
  realpath : Text → RealPath

variable (host : Host)

/-- `_DLQ_DEFAULT_PATH` -/
def defaultPath : Text := points "/tmp/dlq/alerts.jsonl"

/-- `_DLQ_ALLOWED_BASE_DIR` -/
def allowedBaseDir : RealPath := host.realpath (points "/tmp/dlq")

/-- The path with the pod in it. -/
def candidate (raw pod : Text) : Option Text :=
  if points "{pod}" <:+: raw then host.format raw pod
  else
    let (baseDir, filename) := splitPath raw
    let (name, ext) := splitExt filename
    some (if pod ≠ points "default" then joinPath baseDir (name ++ hyphen :: pod ++ ext) else raw)

/-- The check on the resolved path, the same in both files. -/
def allowedOrDefault (resolved : RealPath) : Text :=
  if (allowedBaseDir host).text <+: resolved.text then resolved.text else defaultPath

/-- `none` when the template raises. -/
def resolveDlqFilePath (raw pod : Text) : Option Text :=
  (candidate host raw pod).map fun c => allowedOrDefault host (host.realpath c)

/-- The `DLQ_PATH` of the sink. -/
def sinkDlqPath (raw : Text) : Text := allowedOrDefault host (host.realpath raw)

/-! ## A host without links -/

/-- The names after one more part of a path. -/
def follow (names : List Text) (part : Text) : List Text :=
  if part = [] ∨ part = points "." then names
  else if part = points ".." then names.dropLast
  else names ++ [part]

theorem isName_follow {names : List Text} (hnames : ∀ name ∈ names, IsName name) {part : Text}
    (hpart : slash ∉ part) : ∀ name ∈ follow names part, IsName name := by
  intro name hname
  unfold follow at hname
  split at hname
  · exact hnames name hname
  · next hne =>
      rw [not_or] at hne
      split at hname
      · exact hnames name (List.mem_of_mem_dropLast hname)
      · next hparent =>
          rcases List.mem_append.mp hname with hname | hname
          · exact hnames name hname
          · obtain rfl := List.mem_singleton.mp hname
            exact ⟨hne.1, hpart, hne.2, hparent⟩

/-- The path as it is written, from the root on. -/
def lexical (path : Text) : RealPath where
  names := (path.splitOn slash).foldl follow []
  isName := by
    have hrun : ∀ (parts names : List Text), (∀ part ∈ parts, slash ∉ part) →
        (∀ name ∈ names, IsName name) → ∀ name ∈ parts.foldl follow names, IsName name := by
      intro parts
      induction parts with
      | nil => exact fun names _ hnames => hnames
      | cons part parts ih =>
          intro names hparts hnames
          exact ih _ (fun p hp => hparts p (List.mem_cons_of_mem _ hp))
            (isName_follow hnames (hparts part (List.mem_cons_self ..)))
    exact hrun _ [] (fun part hpart => not_mem_of_mem_splitOn hpart) nofun

def plainHost : Host := ⟨fun raw pod => some (replaceAll (points "{pod}") pod raw), lexical⟩

example : resolveDlqFilePath plainHost (points "/tmp/dlq/alerts.jsonl") (points "stream-processor-1") =
    some (points "/tmp/dlq/alerts-stream-processor-1.jsonl") := by decide +kernel

example : resolveDlqFilePath plainHost (points "/tmp/dlq/../../etc/passwd") (points "default") =
    some defaultPath := by decide +kernel

end NeuralSoc.Dlq
