import NeuralSoc.Base.Custody
import NeuralSoc.Dlq.Lemmas.Replay

/-!
# Custody of the entries of the DLQ

The live DLQ file holds the entries and the replay takes copies of them: each step is a move of custody
(`step_moves`), and it loses nothing exactly when `KeepsFile` allows it.
-/

namespace NeuralSoc.Dlq

variable {cfg : Config} {s : State}

/-! ## What is kept -/

/-- Every entry appended is in the live file or was acknowledged. -/
def Kept (s : State) : Prop := ∀ n ∈ s.appended, n ∈ s.lines ∨ n ∈ s.acked

instance : Decidable (Kept s) := inferInstanceAs (Decidable (∀ n ∈ s.appended, _))

/-- No entry is waiting to be sent or for a report: the replay is over, or has not begun. -/
def Ended (s : State) : Prop := s.queue = []

instance : Decidable (Ended s) := inferInstanceAs (Decidable (s.queue = []))

/-- The steps that lose no entry: the file is rotated away or archived with no entry in it that is not
taken care of, an append reaches the file at the path, and what is given up is still in the file. -/
def KeepsFile (s : State) : Event → Prop
  | .replace =>
      s.writer = .rotating → ∀ n ∈ s.appended, n ∈ s.lines → n ∈ s.queue ∨ n ∈ s.acked
  | .write .. => ∀ file, s.writer = .opened file → s.live = some file
  | .send false => ∀ e ∈ s.replay.todo, e.serial ∈ s.appended → e.serial ∈ s.lines
  | .report i false => ∀ e, s.inFlight[i]? = some e → e.serial ∈ s.appended → e.serial ∈ s.lines
  | .rename _ => ∀ loaded, s.replay = .flushed loaded → ∀ n ∈ s.appended, n ∈ s.lines →
      n ∈ loaded.map Entry.serial ∧ n ∈ s.acked
  | _ => True

def custody (s : State) : Custody ℕ where
  given := {n | n ∈ s.appended}
  held := {n | n ∈ s.lines}
  pending := {n | n ∈ s.queue}
  acked := {n | n ∈ s.acked}

theorem kept_iff_custody (h : Ended s) : Kept s ↔ (custody s).Kept := by
  have hqueue : ∀ n, n ∉ s.queue := fun n hn => by
    rw [h] at hn
    exact List.not_mem_nil hn
  constructor
  · intro hk n hn
    exact (hk n hn).imp_right .inr
  · intro hk n hn
    exact (hk n hn).imp_right fun hin => hin.resolve_left (hqueue n)

/-! ## The moves -/

/-- The step is a move of custody that loses nothing exactly when `G` holds. -/
def Moves (s s' : State) (G : Prop) : Prop :=
  ∃ m, (custody s).Possible m ∧ custody s' = (custody s).apply m ∧ ((custody s).Allowed m ↔ G)

theorem Moves.stay {s' : State} {G : Prop} (h : custody s' = custody s) (hG : G) : Moves s s' G :=
  ⟨.stay, trivial, h, iff_of_true trivial hG⟩

theorem custody_congr {s' : State} (ha : s'.appended = s.appended) (hl : s'.lines = s.lines)
    (hq : ∀ n, n ∈ s'.queue ↔ n ∈ s.queue) (hk : s'.acked = s.acked) : custody s' = custody s := by
  simp only [custody, ha, hl, hq, hk]

theorem custody_openFile (s : State) (w : Writer) :
    custody { s.openFile.2 with writer := w } = custody s := by
  obtain ⟨hr, hi, hk, ha, -⟩ := openFile_frame s
  refine custody_congr ha (lines_openFile s) (fun n => ?_) hk
  simp only [State.queue, hr, hi]

theorem moves_clear {s' : State} {G : Prop} (ha : s'.appended = s.appended) (hl : s'.live = none)
    (hq : s'.queue = s.queue) (hk : s'.acked = s.acked)
    (hG : (∀ n ∈ s.appended, n ∈ s.lines → n ∈ s.queue ∨ n ∈ s.acked) ↔ G) : Moves s s' G := by
  refine ⟨.clear, trivial, ?_, hG⟩
  have hnil : s'.lines = [] := lines_of_none hl
  simp only [custody, Custody.apply, ha, hnil, hq, hk, List.not_mem_nil, Set.ofPred_false]

theorem not_mem_lines (hl : s.live = none) (n : ℕ) : n ∉ s.lines := by simp [lines_of_none hl]

theorem moves_replace (cfg : Config) (s : State) :
    Moves s (step cfg s .replace) (KeepsFile s .replace) := by
  simp only [step]
  split
  · next hw =>
      simp only [State.replace]
      split
      · next hl => exact .stay rfl fun _ n _ hn => absurd hn (not_mem_lines hl n)
      · exact moves_clear rfl rfl rfl rfl ⟨fun h _ => h, fun h => h hw⟩
  · next hw => exact .stay rfl fun h => absurd h hw

theorem moves_rename (ht : Taken s) (time : ℕ) :
    Moves s (step cfg s (.rename time)) (KeepsFile s (.rename time)) := by
  simp only [step]
  split
  · next loaded hr =>
      obtain ⟨hi, hreads⟩ : s.inFlight = [] ∧ ∀ n ∈ s.acked, n ∈ loaded.map Entry.serial := by
        have := ht.reads
        rwa [hr] at this
      have hq : s.queue = [] := by simp [State.queue, hr, hi, Replay.todo]
      simp only [State.rename]
      split
      · next hl =>
          refine .stay (custody_congr rfl rfl (fun n => ?_) rfl) fun _ _ n _ hn => ?_
          · simp [State.queue, hr, Replay.todo]
          · exact absurd hn (not_mem_lines hl n)
      · refine moves_clear rfl rfl ?_ rfl ?_
        · simp [State.queue, hr, Replay.todo]
        · simp only [hq, List.not_mem_nil, false_or, KeepsFile]
          constructor
          · intro h loaded' hr' n hn hin
            cases hr.symm.trans hr'
            exact ⟨hreads n (h n hn hin), h n hn hin⟩
          · intro h n hn hin
            exact (h loaded hr n hn hin).2
  · next hr => exact .stay rfl fun loaded h => absurd h (hr loaded)

theorem mem_lines_write (s : State) (file : ℕ) (item : Json) (error : String) (timestamp : ℚ)
    (n : ℕ) : n ∈ (s.write file item error timestamp).lines ↔
      n ∈ s.lines ∨ s.live = some file ∧ n = s.nextSerial := by
  cases hl : s.live with
  | none => simp [State.lines, State.write, hl]
  | some f =>
      by_cases hf : f = file
      · subst hf
        simp [State.lines, State.write, hl]
      · simp [State.lines, State.write, hl, hf]

theorem moves_write (hf : Files s) (ht : Taken s) (item : Json) (error : String) (timestamp : ℚ) :
    Moves s (step cfg s (.write item error timestamp)) (KeepsFile s (.write item error timestamp)) := by
  have hnew : s.nextSerial ∉ s.appended := fun h => Nat.lt_irrefl _ (hf.appended_lt _ h)
  have htaken : s.nextSerial ∉ s.queue ++ s.acked := fun h => Nat.lt_irrefl _ (ht.lt _ h)
  simp only [step]
  split
  · next file hw =>
      have hmem := mem_lines_write s file item error timestamp
      by_cases hl : s.live = some file
      · refine ⟨.enter s.nextSerial, hnew, ?_, iff_of_true trivial fun f h => ?_⟩
        · ext n
          · simp [custody, Custody.apply, State.write]
          · simp [custody, Custody.apply, hmem, hl, or_comm]
          · rfl
          · rfl
        · cases hw.symm.trans h
          exact hl
      · have hlines : s.nextSerial ∉ s.lines := by
          intro h
          unfold State.lines at h
          split at h
          · exact Nat.lt_irrefl _ (hf.lines_lt _ _ h)
          · exact List.not_mem_nil h
        obtain ⟨hqueue, hacked⟩ := not_or.mp (mt List.mem_append.mpr htaken)
        refine ⟨.stray s.nextSerial, ⟨hnew, hlines, hqueue, hacked⟩, ?_,
          iff_of_false not_false fun h => hl (h file hw)⟩
        ext n
        · simp [custody, Custody.apply, State.write]
        · simp [custody, Custody.apply, hmem, hl]
        · rfl
        · rfl
  · next hw => exact .stay rfl fun file h => absurd h (hw file)

theorem moves_load (cfg : Config) (s : State) (connects : Bool) :
    Moves s (step cfg s (.load connects)) True := by
  simp only [step]
  split
  · next hr =>
      have hexit : Moves s { s with replay := .exited } True := by
        refine .stay (custody_congr rfl rfl (fun n => ?_) rfl) trivial
        simp [State.queue, hr, Replay.todo]
      simp only [State.load]
      split
      · exact hexit
      · next file hl =>
          split
          · exact hexit
          · have hsub := entries_sublist cfg (s.files file)
            refine ⟨.take {n | n ∈ (limited cfg.limit (loadDlqEntries (s.files file))).map Entry.serial},
              fun n hn => ?_, ?_, Iff.rfl⟩
            · have hin := hsub.subset hn
              rwa [← lines_of_live hl] at hin
            · ext n
              · rfl
              · rfl
              · simp [custody, Custody.apply, State.queue, hr, Replay.todo, or_comm]
              · rfl
  · exact .stay rfl trivial

theorem queue_eq (s : State) :
    s.queue = s.replay.todo.map Entry.serial ++ s.inFlight.map Entry.serial := List.map_append

theorem Taken.todo_apart (ht : Taken s) :
    ∀ n ∈ s.replay.todo.map Entry.serial, n ∉ s.inFlight.map Entry.serial ∧ n ∉ s.acked := by
  intro n hn
  have hnodup := ht.nodup
  rw [queue_eq, List.append_assoc] at hnodup
  have hne := (List.nodup_append.mp hnodup).2.2 n hn
  exact ⟨fun h => hne n (List.mem_append_left _ h) rfl, fun h => hne n (List.mem_append_right _ h) rfl⟩

theorem Taken.mem_inFlight_iff (ht : Taken s) (n : ℕ) :
    n ∈ s.inFlight.map Entry.serial ↔ n ∈ s.queue ∧ n ∉ s.replay.todo.map Entry.serial := by
  rw [queue_eq, List.mem_append]
  constructor
  · intro hn
    exact ⟨.inr hn, fun h => (ht.todo_apart n h).1 hn⟩
  · rintro ⟨hn | hn, hout⟩
    · exact absurd hn hout
    · exact hn

theorem todo_eq_nil (h : ∀ loaded e todo, s.replay ≠ .sending loaded (e :: todo)) : s.replay.todo = [] := by
  cases hreplay : s.replay with
  | sending loaded todo =>
      cases todo with
      | nil => rfl
      | cons e todo => exact absurd hreplay (h loaded e todo)
  | _ => rfl

/-- An entry that is reported is pending, not acknowledged, and the only one that leaves the queue. -/
theorem Taken.reported (ht : Taken s) {i : ℕ} {e : Entry} (he : s.inFlight[i]? = some e) :
    e.serial ∈ s.queue ∧ e.serial ∉ s.acked ∧
      ∀ n, n ∈ (s.replay.todo ++ s.inFlight.eraseIdx i).map Entry.serial ↔ n ∈ s.queue ∧ n ≠ e.serial := by
  have hperm := queue_perm he
  have hnodup : (e.serial :: (s.replay.todo ++ s.inFlight.eraseIdx i).map Entry.serial ++
      s.acked).Nodup := (hperm.append_right s.acked).nodup_iff.mp ht.nodup
  have hout := not_or.mp (mt List.mem_append.mpr (List.nodup_cons.mp hnodup).1)
  refine ⟨hperm.mem_iff.mpr (List.mem_cons_self ..), hout.2, fun n => ?_⟩
  rw [hperm.mem_iff, List.mem_cons]
  constructor
  · intro hn
    exact ⟨.inr hn, fun h => hout.1 (h ▸ hn)⟩
  · rintro ⟨rfl | hn, hne⟩
    · exact absurd rfl hne
    · exact hn

theorem moves_send (ht : Taken s) (accepted : Bool) :
    Moves s (step cfg s (.send accepted)) (KeepsFile s (.send accepted)) := by
  simp only [step]
  split
  · next loaded e todo hr =>
      cases accepted with
      | true =>
          refine .stay (custody_congr rfl rfl (fun n => ?_) rfl) trivial
          simp only [State.queue, hr, Replay.todo, ↓reduceIte, List.map_append, List.map_cons,
            List.mem_append, List.mem_cons, List.map_nil, List.not_mem_nil]
          tauto
      | false =>
          refine ⟨.drop {n | n ∈ s.replay.todo.map Entry.serial}, ⟨fun n hn => ?_, ?_⟩, ?_, ?_⟩
          · show n ∈ s.queue
            rw [queue_eq]
            exact List.mem_append_left _ hn
          · exact Set.disjoint_left.mpr fun n hn => (ht.todo_apart n hn).2
          · ext n
            · rfl
            · rfl
            · exact ht.mem_inFlight_iff n
            · rfl
          · constructor
            · intro h e he ha
              exact h e.serial ha (List.mem_map_of_mem he)
            · intro h n ha hn
              obtain ⟨e, he, rfl⟩ := List.mem_map.mp hn
              exact h e he ha
  · next hr =>
      refine .stay rfl ?_
      cases accepted with
      | true => trivial
      | false => simp [KeepsFile, todo_eq_nil hr]

theorem moves_report (ht : Taken s) (i : ℕ) (acked : Bool) :
    Moves s (step cfg s (.report i acked)) (KeepsFile s (.report i acked)) := by
  simp only [step]
  split
  · next e he =>
      obtain ⟨hin, hout, hpending⟩ := ht.reported he
      cases acked with
      | true =>
          refine ⟨.ack e.serial, hin, ?_, Iff.rfl⟩
          ext n
          · rfl
          · rfl
          · exact hpending n
          · exact List.mem_cons
      | false =>
          refine ⟨.drop {e.serial}, ⟨Set.singleton_subset_iff.mpr hin, ?_⟩, ?_, ?_⟩
          · exact Set.disjoint_singleton_left.mpr hout
          · ext n
            · rfl
            · rfl
            · exact hpending n
            · rfl
          · constructor
            · intro h e' he' ha
              cases he.symm.trans he'
              exact h e.serial ha rfl
            · rintro h n ha rfl
              exact h e he ha
  · next he =>
      refine .stay rfl ?_
      cases acked with
      | true => trivial
      | false =>
          intro e h
          cases he.symm.trans h

theorem moves_flush (s : State) (completes : Bool) :
    Moves s (step cfg s (.flush completes)) True := by
  simp only [step]
  split
  · next loaded hr =>
      have hq : ∀ r : Replay, r.todo = [] → Moves s { s with replay := r } True := by
        intro r htodo
        refine .stay (custody_congr rfl rfl (fun n => ?_) rfl) trivial
        rw [State.queue, State.queue, hr, htodo]
        exact Iff.rfl
      repeat' split
      · exact hq .exited rfl
      · exact .stay rfl trivial
      · exact hq (.flushed loaded) rfl
      · exact hq .exited rfl
  · exact .stay rfl trivial

theorem step_moves (hf : Files s) (ht : Taken s) (e : Event) :
    Moves s (step cfg s e) (KeepsFile s e) := by
  cases e with
  | replace => exact moves_replace cfg s
  | write item error timestamp => exact moves_write hf ht item error timestamp
  | load connects => exact moves_load cfg s connects
  | send accepted => exact moves_send ht accepted
  | report i acked => exact moves_report ht i acked
  | flush completes => exact moves_flush s completes
  | rename time => exact moves_rename ht time
  | recreate | openFile =>
      simp only [step]
      split
      · exact .stay (custody_openFile s _) trivial
      · exact .stay rfl trivial
  | lock | rotationFails =>
      simp only [step, State.lock]
      repeat' split
      all_goals exact .stay rfl trivial
  | abandon => exact .stay rfl trivial

/-! ## The start -/

theorem serial_numbered (file : List (Option Json)) :
    (numbered file).map Line.serial = List.range file.length := by
  rw [numbered, List.map_map, List.range_eq_range']
  exact List.zipIdx_map_snd 0 file

theorem files_start (file : Option (List (Option Json))) : Files (start file) := by
  have hlines : ∀ f, ((start file).files f).map Line.serial =
      if f = 0 then List.range (file.getD []).length else [] := by
    intro f
    simp only [start]
    split
    · exact serial_numbered _
    · rfl
  constructor
  · intro n hn
    have hin := (loadDlqEntries_sublist _).subset hn
    rw [serial_numbered] at hin
    exact List.mem_range.mp hin
  · intro f n hn
    rw [hlines] at hn
    split at hn
    · exact List.mem_range.mp hn
    · exact absurd hn List.not_mem_nil
  · intro f
    rw [hlines]
    split
    · exact List.nodup_range
    · exact List.nodup_nil

theorem taken_start (file : Option (List (Option Json))) : Taken (start file) :=
  ⟨List.nodup_nil, fun _ h => absurd h List.not_mem_nil, rfl, rfl⟩

theorem kept_start (file : Option (List (Option Json))) : (custody (start file)).Kept := by
  intro n hn
  cases file with
  | none => exact absurd hn List.not_mem_nil
  | some contents => exact .inl ((loadDlqEntries_sublist _).subset hn)

end NeuralSoc.Dlq
