import NeuralSoc.Dlq.Lemmas.Rotation
import NeuralSoc.Dlq.Lemmas.Moves

/-!
# The replay of the file DLQ

`replay_keeps_iff`: any number of appends interleaved with a replay lose an entry exactly when a step is
taken that `KeepsFile` forbids.
-/

namespace NeuralSoc.Dlq

/-- At the end every entry appended is in the live file or was acknowledged exactly when every step of the
run kept the entries. -/
theorem replay_keeps_iff (cfg : Config) (file : Option (List (Option Json))) (events : List Event)
    (hend : Ended (run cfg file events)) :
    Kept (run cfg file events) ↔ Each (step cfg) KeepsFile (start file) events := by
  have hinv : ∀ s e, Files s ∧ Taken s → Files (step cfg s e) ∧ Taken (step cfg s e) :=
    fun s e h => ⟨files_step h.1 e, taken_step h.2 h.1 e⟩
  have hmoves : ∀ s e, Files s ∧ Taken s → Moves s (step cfg s e) (KeepsFile s e) :=
    fun s e h => step_moves h.1 h.2 e
  have hrun : (custody (run cfg file events)).Kept ↔
      (custody (start file)).Kept ∧ Each (step cfg) KeepsFile (start file) events :=
    Custody.kept_run_iff hinv hmoves ⟨files_start file, taken_start file⟩
  rw [kept_iff_custody hend, hrun]
  exact and_iff_right (kept_start file)

/-! ## Three replays -/

/-- `replay_dlq.py --archive-after`, far from the size at which the file is rotated. -/
def archiving : Config where
  maxSizeMb := 100
  rotateCount := 5
  size lines := 200 * lines.length
  dryRun := false
  limit := none
  archiveAfter := true

def appendAlert (alertId : String) : List Event :=
  [.lock, .openFile, .write (.obj [("alert_id", .str alertId)]) "Bulk upsert failed" 0]

def replayOne (acked : Bool) : List Event :=
  [.load true, .send true, .report 0 acked, .flush true]

/-- The next append comes after the rename, and starts a new file. -/
def cleanRun : List Event :=
  appendAlert "A1" ++ replayOne true ++ [.rename 1700000000] ++ appendAlert "A2"

/-- Kafka refuses the entry: `flush` returns all the same, and the file is archived. -/
def failedSend : List Event := appendAlert "A1" ++ replayOne false ++ [.rename 1700000000]

/-- The sink appends between the read and the rename. -/
def lateAppend : List Event :=
  appendAlert "A1" ++ replayOne true ++ appendAlert "A2" ++ [.rename 1700000000]

theorem clean_run_keeps : Each (step archiving) KeepsFile (start none) cleanRun :=
  (replay_keeps_iff archiving none cleanRun (by decide)).mp (by decide)

theorem archive_loses_entries :
    archiving.archives = true ∧
      (Ended (run archiving none failedSend) ∧ ¬Kept (run archiving none failedSend)) ∧
      (Ended (run archiving none lateAppend) ∧ ¬Kept (run archiving none lateAppend)) := by
  decide

/-! ## The rotation -/

/-- At every point of every run of appends, interrupted ones among them: the files hold the newest lines
in their order, only the last file is ever given up and as a whole, and the disk is bounded. -/
theorem rotation_loses_oldest (cfg : RotationConfig) (hcount : 1 ≤ cfg.rotateCount)
    (events : List DiskEvent) :
    let d := events.foldl (Disk.step cfg) .empty
    d.kept cfg <:+ d.log ∧
      (∀ e, (d.step cfg e).removed cfg = d.removed cfg ∨
        (d.step cfg e).removed cfg = d.removed cfg ++ linesOf (d.file cfg.rotateCount)) ∧
      (∀ i xs, d.file i = some xs → i ≤ cfg.rotateCount ∧ sizeOfLines xs.dropLast ≤ cfg.limit) ∧
      ∀ bound, (∀ line ∈ d.log, line.utf8ByteSize ≤ bound) →
        sizeOfLines (d.kept cfg) ≤ (cfg.rotateCount + 1) * (cfg.limit + bound) := by
  intro d
  have h : Rotated cfg d := rotated_run hcount events
  refine ⟨h.suffix, fun e => (change_step h.placed e).removed h.suffix, h.sized, ?_⟩
  intro bound hbound
  apply sizeOfLines_joined_le h.sized
  intro line hline
  exact hbound line (h.suffix.subset hline)

def brokenRotation : List DiskEvent :=
  [.append "a", .advance, .advance, .advance, .append "b", .advance, .advance, .advance, .interrupt]

theorem rotation_loses_oldest_broken :
    (brokenRotation.foldl (Disk.step ⟨0, 1⟩) .empty).kept ⟨0, 1⟩ <:+
      (brokenRotation.foldl (Disk.step ⟨0, 1⟩) .empty).log :=
  (rotation_loses_oldest ⟨0, 1⟩ (by decide) brokenRotation).1

end NeuralSoc.Dlq
