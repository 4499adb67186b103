import NeuralSoc.Dga.DomainAge
import Mathlib.Logic.Function.Basic

/-!
# Model files and their digests

Writers save a model and the text of its SHA-256 beside it: `save_traced_model` where the file is used, and
`continuous_train_loop` under temporary names that it moves over the others. `_load_verified_torchscript_model`
reads both files while they work. A step is one operation on the file system; a file that is open goes on under
its inode when its name is given to another one. Parsing the model is left out.
-/

namespace NeuralSoc.Artifacts

open Shell
open Dga (stripPoints)

/-- `hashlib.sha256(data).hexdigest()` -/
structure Digest where
  sha256 : Text → Text
  length_eq : ∀ data, (sha256 data).length = 64
  hex : ∀ data, ∀ c ∈ sha256 data, 48 ≤ c ∧ c ≤ 57 ∨ 97 ≤ c ∧ c ≤ 102

/-! ## Files -/

/-- The names: `models/cnn_dga.pt` and `models/cnn_dga_temp.pt`, each with its `.sha256`. -/
inductive Place where
  | live
  | temp
  deriving DecidableEq

/-- What is in the inodes, and which ones the names stand for. -/
structure Disk where
  models : ℕ → Text
  sidecars : ℕ → Text
  modelAt : Place → Option ℕ
  sidecarAt : Place → Option ℕ
  next : ℕ

namespace Disk

variable (d : Disk)

/-- The inode of `open(path, "wb")`. -/
def modelInode (place : Place) : ℕ := (d.modelAt place).getD d.next

/-- `open(path, "wb")` empties the file or creates it. -/
def openModel (place : Place) : Disk :=
  { d with
    models := Function.update d.models (d.modelInode place) []
    modelAt := Function.update d.modelAt place (some (d.modelInode place))
    next := d.next + 1 }

/-- The inode of `open(path + ".sha256", "w")`. -/
def sidecarInode (place : Place) : ℕ := (d.sidecarAt place).getD d.next

def openSidecar (place : Place) : Disk :=
  { d with
    sidecars := Function.update d.sidecars (d.sidecarInode place) []
    sidecarAt := Function.update d.sidecarAt place (some (d.sidecarInode place))
    next := d.next + 1 }

/-- A write at the beginning of the file leaves what is behind it. -/
def writeSidecar (inode : ℕ) (text : Text) : Disk :=
  { d with sidecars := Function.update d.sidecars inode (text ++ (d.sidecars inode).drop text.length) }

/-- `os.replace` of the model -/
def replaceModel : Disk :=
  { d with modelAt := Function.update (Function.update d.modelAt .live (d.modelAt .temp)) .temp none }

/-- `os.replace` of the digest -/
def replaceSidecar : Disk :=
  { d with sidecarAt := Function.update (Function.update d.sidecarAt .live (d.sidecarAt .temp)) .temp none }

end Disk

/-! ## Writers -/

inductive Program where
  /-- `continuous_train_loop` -/
  | trainer
  /-- `save_traced_model` -/
  | saver
  deriving DecidableEq

def Program.place : Program → Place
  | .trainer => .temp
  | .saver => .live

/-- What comes after the digest in its file. -/
def Program.ending : Program → Text
  | .trainer => []
  | .saver => [10]

inductive Stage where
  | ready
  /-- `traced_model.save` is under way -/
  | saving (inode : ℕ)
  | saved
  | digested (fileHash : Text)
  /-- the file of the digest is open -/
  | signing (inode : ℕ) (fileHash : Text)
  /-- the model has been replaced, and its digest has not -/
  | deploying
  deriving DecidableEq

inductive Move where
  | begin
  /-- a part of the file is written -/
  | flush (bytes : Text)
  | finish (artifact : Text)
  /-- the file is read back -/
  | digest
  | openSidecar
  | sign
  | replaceModel
  | replaceSidecar
  /-- an exception, or the end of the process -/
  | fail

/-! ## The loader -/

inductive Loader where
  | fresh
  | measured
  | opened (sidecar : ℕ)
  | expecting (expectedSha : Text)
  | reading (expectedSha : Text) (model : ℕ)
  | loaded (modelBytes computedSha : Text)
  | failed
  deriving DecidableEq

variable (dg : Digest) (maxModelSize : ℕ)

/-- The next operation of `_load_verified_torchscript_model`. -/
def Loader.advance (d : Disk) : Loader → Loader
  | .fresh =>
      match d.modelAt .live with
      | some inode => if maxModelSize < (d.models inode).length then .failed else .measured
      | none => .measured
  | .measured =>
      match d.sidecarAt .live with
      | some inode => .opened inode
      | none => .failed
  | .opened inode => .expecting (stripPoints ((d.sidecars inode).take 1024))
  | .expecting expectedSha =>
      match d.modelAt .live with
      | some inode => .reading expectedSha inode
      | none => .failed
  | .reading expectedSha inode =>
      let modelBytes := d.models inode
      let computedSha := dg.sha256 modelBytes
      if computedSha = expectedSha then .loaded modelBytes computedSha else .failed
  | .loaded modelBytes computedSha => .loaded modelBytes computedSha
  | .failed => .failed

/-! ## All together -/

structure World where
  disk : Disk
  stage : ℕ → Stage
  loader : Loader
  /-- every model that has been saved to its end -/
  artifacts : List Text
  /-- every model that has been read back for its digest -/
  read : List Text
  /-- the models that have been moved to their place, the latest first -/
  inUse : List Text

namespace World

variable (w : World)

def enter (i : ℕ) (stage : Stage) : World := { w with stage := Function.update w.stage i stage }

/-- A step of a writer; one that its program does not come to next does nothing. -/
def move (program : Program) (i : ℕ) (m : Move) : World :=
  match m, w.stage i with
  | .begin, .ready =>
      { w with disk := w.disk.openModel program.place }.enter i (.saving (w.disk.modelInode program.place))
  | .flush bytes, .saving inode =>
      { w with disk := { w.disk with models := Function.update w.disk.models inode bytes } }
  | .finish artifact, .saving inode =>
      { w with
        disk := { w.disk with models := Function.update w.disk.models inode artifact }
        artifacts := w.artifacts ++ [artifact] }.enter i .saved
  | .digest, .saved =>
      match w.disk.modelAt program.place with
      | some inode =>
          { w with read := w.read ++ [w.disk.models inode] }.enter i (.digested (dg.sha256 (w.disk.models inode)))
      | none => w.enter i .ready
  | .openSidecar, .digested fileHash =>
      { w with disk := w.disk.openSidecar program.place }.enter i (.signing (w.disk.sidecarInode program.place) fileHash)
  | .sign, .signing inode fileHash =>
      { w with disk := w.disk.writeSidecar inode (fileHash ++ program.ending) }.enter i .ready
  | .replaceModel, .ready =>
      if program = .trainer && (w.disk.modelAt .temp).isSome then
        { w with
          disk := w.disk.replaceModel
          inUse := ((w.disk.modelAt .temp).map w.disk.models).toList ++ w.inUse }.enter i .deploying
      else w
  | .replaceSidecar, .deploying =>
      if (w.disk.sidecarAt .temp).isSome then { w with disk := w.disk.replaceSidecar }.enter i .ready
      else w.enter i .ready
  | .fail, _ => w.enter i .ready
  | _, _ => w

end World

inductive Event where
  | write (writer : ℕ) (m : Move)
  | load

def step (program : ℕ → Program) (w : World) : Event → World
  | .write i m => w.move dg (program i) i m
  | .load => { w with loader := w.loader.advance dg maxModelSize w.disk }

/-- An artifact has been deployed with its digest, and nobody is writing. -/
def deployed (artifact : Text) : World where
  disk :=
    { models := fun _ => artifact
      sidecars := fun _ => dg.sha256 artifact ++ [10]
      modelAt := fun place => if place = .live then some 0 else none
      sidecarAt := fun place => if place = .live then some 0 else none
      next := 1 }
  stage _ := .ready
  loader := .fresh
  artifacts := [artifact]
  read := [artifact]
  inUse := [artifact]

end NeuralSoc.Artifacts
