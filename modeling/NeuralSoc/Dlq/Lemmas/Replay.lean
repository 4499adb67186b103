import Mathlib.Data.List.Nodup
import Mathlib.Data.List.Perm.Subperm
import NeuralSoc.Dlq.Replay

/-!
# Invariants of the file DLQ

`Files`: a serial is used once, and a file has it once. `Taken`: the replay takes an entry once, and what
it has sent is among what it read.
-/

namespace NeuralSoc.Dlq

variable {cfg : Config} {s : State}

/-! ## The lines and the queue -/

def State.lines (s : State) : List ℕ :=
  match s.live with
  | some file => (s.files file).map Line.serial
  | none => []

def Replay.todo : Replay → List Entry
  | .sending _ todo => todo
  | _ => []

/-- The serials the replay has loaded and Kafka has not reported on. -/
def State.queue (s : State) : List ℕ := (s.replay.todo ++ s.inFlight).map Entry.serial

/-! ## Invariants -/

structure Files (s : State) : Prop where
  appended_lt : ∀ n ∈ s.appended, n < s.nextSerial
  lines_lt : ∀ file, ∀ n ∈ (s.files file).map Line.serial, n < s.nextSerial
  nodup : ∀ file, ((s.files file).map Line.serial).Nodup

/-- What the entries taken have to do with those the replay has read. -/
def Replay.Reads (inFlight : List Entry) (acked : List ℕ) : Replay → Prop
  | .ready => inFlight = [] ∧ acked = []
  | .sending loaded todo => ∀ n ∈ (todo ++ inFlight).map Entry.serial ++ acked, n ∈ loaded.map Entry.serial
  | .flushed loaded => inFlight = [] ∧ ∀ n ∈ acked, n ∈ loaded.map Entry.serial
  | .exited => True

structure Taken (s : State) : Prop where
  nodup : (s.queue ++ s.acked).Nodup
  lt : ∀ n ∈ s.queue ++ s.acked, n < s.nextSerial
  reads : s.replay.Reads s.inFlight s.acked

/-! ### Opening the file -/

theorem lines_openFile (s : State) : s.openFile.2.lines = s.lines := by
  unfold State.openFile
  split
  · rfl
  · next h => simp [State.lines, h]

theorem openFile_frame (s : State) :
    s.openFile.2.replay = s.replay ∧ s.openFile.2.inFlight = s.inFlight ∧
      s.openFile.2.acked = s.acked ∧ s.openFile.2.appended = s.appended ∧
      s.openFile.2.nextSerial = s.nextSerial := by
  unfold State.openFile
  split <;> simp

/-! ### Loading -/

theorem serial_loadEntry {line : Line} {e : Entry} (h : loadEntry line = some e) :
    e.serial = line.serial := by
  unfold loadEntry at h
  split at h
  · obtain ⟨alert, -, rfl⟩ := Option.map_eq_some_iff.mp h
    rfl
  · cases h

theorem limited_sublist (limit : Option ℤ) (entries : List Entry) :
    (limited limit entries).Sublist entries := by
  unfold limited
  split
  · exact List.Sublist.refl entries
  · exact List.take_sublist ..
  · exact List.take_sublist ..

theorem loadDlqEntries_sublist (lines : List Line) :
    ((loadDlqEntries lines).map Entry.serial).Sublist (lines.map Line.serial) := by
  induction lines with
  | nil => exact List.Sublist.refl _
  | cons line lines ih =>
      unfold loadDlqEntries
      cases h : loadEntry line with
      | none =>
          rw [List.filterMap_cons_none h]
          exact ih.cons _
      | some e =>
          rw [List.filterMap_cons_some h, List.map_cons, List.map_cons, serial_loadEntry h]
          exact ih.cons_cons _

theorem entries_sublist (cfg : Config) (lines : List Line) :
    ((limited cfg.limit (loadDlqEntries lines)).map Entry.serial).Sublist (lines.map Line.serial) :=
  ((limited_sublist _ _).map _).trans (loadDlqEntries_sublist lines)

theorem lines_of_live {file : ℕ} (h : s.live = some file) :
    s.lines = (s.files file).map Line.serial := by simp [State.lines, h]

theorem lines_of_none (h : s.live = none) : s.lines = [] := by simp [State.lines, h]

/-! ### The files -/

theorem Files.of_update {s' : State} (h : Files s) {file : ℕ} {lines : List Line}
    (hfiles : s'.files = Function.update s.files file lines) (hnext : s.nextSerial ≤ s'.nextSerial)
    (happended : ∀ n ∈ s'.appended, n < s'.nextSerial)
    (hlt : ∀ n ∈ lines.map Line.serial, n < s'.nextSerial) (hnodup : (lines.map Line.serial).Nodup) :
    Files s' where
  appended_lt := happended
  lines_lt := by
    rw [hfiles]
    exact (Function.forall_update_iff s.files fun _ ls => ∀ n ∈ ls.map Line.serial, n < s'.nextSerial).mpr
      ⟨hlt, fun f _ n hn => lt_of_lt_of_le (h.lines_lt f n hn) hnext⟩
  nodup := by
    rw [hfiles]
    exact (Function.forall_update_iff s.files fun _ ls => (ls.map Line.serial).Nodup).mpr
      ⟨hnodup, fun f _ => h.nodup f⟩

theorem Files.of_eq {s' : State} (h : Files s) (hf : s'.files = s.files)
    (ha : s'.appended = s.appended) (hn : s'.nextSerial = s.nextSerial) : Files s' := by
  constructor
  · rw [ha, hn]
    exact h.appended_lt
  · rw [hf, hn]
    exact h.lines_lt
  · rw [hf]
    exact h.nodup

theorem files_openFile (h : Files s) : Files s.openFile.2 := by
  unfold State.openFile
  split
  · exact h
  · exact h.of_update rfl le_rfl h.appended_lt (by simp) List.nodup_nil

theorem files_write (h : Files s) (file : ℕ) (item : Json) (error : String) (timestamp : ℚ) :
    Files (s.write file item error timestamp) := by
  -- the new serial is above all those in the file
  have hfresh : s.nextSerial ∉ (s.files file).map Line.serial := fun hn =>
    Nat.lt_irrefl _ (h.lines_lt file _ hn)
  apply h.of_update rfl (Nat.le_succ _)
  · intro n hn
    rcases List.mem_cons.mp hn with rfl | hn
    · exact Nat.lt_succ_self _
    · exact Nat.lt_succ_of_lt (h.appended_lt n hn)
  · intro n hn
    rw [List.map_append, List.mem_append, List.map_singleton, List.mem_singleton] at hn
    rcases hn with hn | rfl
    · exact Nat.lt_succ_of_lt (h.lines_lt file n hn)
    · exact Nat.lt_succ_self _
  · rw [List.map_append, List.map_singleton, ← List.concat_eq_append]
    exact (h.nodup file).concat hfresh

theorem files_step (h : Files s) (e : Event) : Files (step cfg s e) := by
  cases e with
  | write item error timestamp =>
      simp only [step]
      split
      · exact files_write h ..
      · exact h
  | recreate | openFile =>
      simp only [step]
      split
      · exact (files_openFile h).of_eq rfl rfl rfl
      · exact h
  | lock | replace | load connects | rename time =>
      simp only [step, State.lock, State.replace, State.load, State.rename]
      repeat' split
      all_goals exact h.of_eq rfl rfl rfl
  | rotationFails | abandon | send accepted | report i acked | flush completes =>
      simp only [step]
      repeat' split
      all_goals exact h.of_eq rfl rfl rfl

/-! ### The entries taken -/

theorem Taken.of_subperm {s' : State} (h : Taken s)
    (hsub : (s'.queue ++ s'.acked).Subperm (s.queue ++ s.acked)) (hn : s.nextSerial ≤ s'.nextSerial)
    (hr : s'.replay.Reads s'.inFlight s'.acked) : Taken s' := by
  constructor
  · obtain ⟨l, hperm, hl⟩ := hsub
    exact hperm.nodup_iff.mp (h.nodup.sublist hl)
  · intro n hin
    exact lt_of_lt_of_le (h.lt n (hsub.subset hin)) hn
  · exact hr

theorem Taken.of_eq {s' : State} (h : Taken s) (hr : s'.replay = s.replay)
    (hi : s'.inFlight = s.inFlight) (ha : s'.acked = s.acked) (hn : s.nextSerial ≤ s'.nextSerial) :
    Taken s' := by
  have hq : s'.queue = s.queue := by rw [State.queue, State.queue, hr, hi]
  apply h.of_subperm _ hn
  · rw [hr, hi, ha]
    exact h.reads
  · rw [hq, ha]

theorem Taken.exited {s' : State} (h : Taken s) (hr : s'.replay = .exited)
    (hi : s'.inFlight = s.inFlight) (ha : s'.acked = s.acked) (hn : s'.nextSerial = s.nextSerial) :
    Taken s' := by
  have hq : s'.queue = s.inFlight.map Entry.serial := by simp [State.queue, hr, hi, Replay.todo]
  apply h.of_subperm _ hn.ge
  · rw [hr]
    trivial
  · rw [hq, ha, State.queue, List.map_append]
    exact ((List.sublist_append_right _ _).append_right _).subperm

/-- The entry reported on leaves the queue. -/
theorem queue_perm {i : ℕ} {e : Entry} (h : s.inFlight[i]? = some e) :
    s.queue.Perm
      (e.serial :: (s.replay.todo ++ s.inFlight.eraseIdx i).map Entry.serial) := by
  obtain ⟨hi, rfl⟩ := List.getElem?_eq_some_iff.mp h
  have hperm := (List.getElem_cons_eraseIdx_perm hi).symm
  exact ((hperm.append_left s.replay.todo).trans List.perm_middle).map Entry.serial

/-- While an entry is in flight the replay is sending, and reports do not add to what it has read. -/
theorem Replay.Reads.of_subset {r : Replay} {xs ys : List Entry} {acked acked' : List ℕ}
    (h : r.Reads xs acked) (hne : xs ≠ [])
    (hsub : (r.todo ++ ys).map Entry.serial ++ acked' ⊆ (r.todo ++ xs).map Entry.serial ++ acked) :
    r.Reads ys acked' := by
  cases r with
  | ready => exact absurd h.1 hne
  | sending loaded todo => exact fun n hn => h n (hsub hn)
  | flushed loaded => exact absurd h.1 hne
  | exited => trivial

theorem taken_report (h : Taken s) (i : ℕ) (acked : Bool) : Taken (step cfg s (.report i acked)) := by
  simp only [step]
  split
  · next e he =>
      have hne : s.inFlight ≠ [] := by
        intro hnil
        simp [hnil] at he
      have hperm := (queue_perm he).append_right s.acked
      have hsub : (((s.replay.todo ++ s.inFlight.eraseIdx i).map Entry.serial) ++
          (if acked then e.serial :: s.acked else s.acked)).Subperm (s.queue ++ s.acked) := by
        cases acked with
        | true => exact (List.perm_middle.trans hperm.symm).subperm
        | false => exact (List.sublist_cons_self e.serial _).subperm.trans hperm.symm.subperm
      exact h.of_subperm hsub le_rfl (h.reads.of_subset hne hsub.subset)
  · exact h

theorem taken_load (h : Taken s) (hf : Files s) (connects : Bool) :
    Taken (step cfg s (.load connects)) := by
  simp only [step]
  split
  · next hready =>
      obtain ⟨hi, ha⟩ : s.inFlight = [] ∧ s.acked = [] := by
        have := h.reads
        rwa [hready] at this
      unfold State.load
      split
      · exact h.exited rfl rfl rfl rfl
      · next file hlive =>
          dsimp only
          split
          · exact h.exited rfl rfl rfl rfl
          · have hsub := entries_sublist cfg (s.files file)
            constructor
            · simpa [State.queue, Replay.todo, hi, ha] using (hf.nodup file).sublist hsub
            · intro n hn
              refine hf.lines_lt file n (hsub.subset ?_)
              simpa [State.queue, Replay.todo, hi, ha] using hn
            · intro n hn
              simpa [hi, ha] using hn
  · exact h

theorem taken_send (h : Taken s) (accepted : Bool) : Taken (step cfg s (.send accepted)) := by
  simp only [step]
  split
  · next loaded e todo hr =>
      cases accepted with
      | true =>
          have hperm : ((todo ++ (s.inFlight ++ [e])).map Entry.serial ++ s.acked).Perm
              (s.queue ++ s.acked) := by
            refine List.Perm.append_right _ ?_
            rw [State.queue, hr]
            refine List.Perm.map _ ?_
            rw [← List.append_assoc]
            exact List.perm_append_comm
          refine h.of_subperm hperm.subperm le_rfl fun n hn => ?_
          have hreads := h.reads
          rw [hr] at hreads
          refine hreads n ?_
          have := hperm.subset hn
          rwa [State.queue, hr] at this
      | false => exact h.exited rfl rfl rfl rfl
  · exact h

theorem taken_flush (h : Taken s) (completes : Bool) : Taken (step cfg s (.flush completes)) := by
  simp only [step]
  split
  · next loaded hr =>
      split
      · exact h.exited rfl rfl rfl rfl
      · split
        · exact h
        · next hi =>
            split
            · have hi : s.inFlight = [] := not_not.mp hi
              have hreads := h.reads
              rw [hr] at hreads
              refine h.of_subperm ?_ le_rfl ⟨hi, fun n hn => hreads n (List.mem_append_right _ hn)⟩
              rw [State.queue, State.queue, hr]
              exact List.Subperm.refl _
            · exact h.exited rfl rfl rfl rfl
  · exact h

theorem taken_step (h : Taken s) (hf : Files s) (e : Event) : Taken (step cfg s e) := by
  cases e with
  | load connects => exact taken_load h hf connects
  | send accepted => exact taken_send h accepted
  | report i acked => exact taken_report h i acked
  | flush completes => exact taken_flush h completes
  | rename time =>
      simp only [step, State.rename]
      repeat' split
      · exact h.exited rfl rfl rfl rfl
      · exact h.exited rfl rfl rfl rfl
      · exact h
  | recreate | openFile =>
      simp only [step]
      split
      · obtain ⟨hr, hi, ha, -, hn⟩ := openFile_frame s
        exact h.of_eq hr hi ha hn.ge
      · exact h
  | write item error timestamp =>
      simp only [step]
      split
      · exact h.of_eq rfl rfl rfl (Nat.le_succ _)
      · exact h
  | lock | replace | rotationFails | abandon =>
      simp only [step, State.lock, State.replace]
      repeat' split
      all_goals exact h.of_eq rfl rfl rfl le_rfl

end NeuralSoc.Dlq
