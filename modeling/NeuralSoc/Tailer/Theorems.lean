import NeuralSoc.Tailer.ProcessLog

/-! # Lines that stop the loop over a log -/

namespace NeuralSoc.Tailer

open Handler

variable (cfg : Config) (line : Line) {s : State}

/-! ## One line -/

theorem publish_run (s : State) :
    publish cfg line s =
      match cfg.loads (strip line.text) with
      | .error e => (.error e, s)
      | .ok event =>
          if validateZeekEvent event then
            match line.rawSend with
            | .error e => (.error e, s)
            | .ok _ => (.ok (), (s.addSent "raw_traffic" (enrich cfg line (fieldsOf event))).addPublished)
          else (.error ⟨.valueError, "Missing required Zeek fields (ts)"⟩, s) := by
  unfold publish
  cases cfg.loads (strip line.text) with
  | error e => rw [lift_error_bind_run]
  | ok event =>
      rw [lift_ok_bind_run, ensure_bind_run]
      dsimp only
      split
      · cases line.rawSend with
        | error e => rfl
        | ok u => rfl
      · rfl

theorem reject_run (e : Exc) (s : State) :
    reject cfg line e s =
      if e.cls = .valueError then
        match line.deadLetterSend with
        | .error e => (.error e, s.addRejected)
        | .ok _ =>
            (.ok (), (s.addRejected.addSent "dead_letter_events" (deadLetter cfg line e)).addDeadLettered)
      else (.ok (), s.addRejected) := by
  unfold reject
  rw [modify_bind_run]
  split
  · cases line.deadLetterSend with
    | error e => rfl
    | ok u => rfl
  · rfl

theorem publish_cases (s : State) :
    (∃ e, publish cfg line s = (.error e, s)) ∨
      ∃ value, publish cfg line s = (.ok (), (s.addSent "raw_traffic" value).addPublished) := by
  rw [publish_run]
  cases cfg.loads (strip line.text) with
  | error e => exact .inl ⟨e, rfl⟩
  | ok event =>
      dsimp only
      split
      · cases line.rawSend with
        | error e => exact .inl ⟨e, rfl⟩
        | ok u => exact .inr ⟨_, rfl⟩
      · exact .inl ⟨_, rfl⟩

theorem reject_cases (e : Exc) (s : State) :
    (∃ e', reject cfg line e s = (.error e', s.addRejected)) ∨
      reject cfg line e s = (.ok (), s.addRejected) ∨
      ∃ value, reject cfg line e s =
        (.ok (), (s.addRejected.addSent "dead_letter_events" value).addDeadLettered) := by
  rw [reject_run]
  split
  · cases line.deadLetterSend with
    | error e' => exact .inl ⟨e', rfl⟩
    | ok u => exact .inr (.inr ⟨_, rfl⟩)
  · exact .inr (.inl rfl)

variable {line}

theorem processLine_idle (h : line.text = "") (s : State) : processLine cfg line s = (.ok (), s) := by
  rw [processLine, if_pos h]
  rfl

theorem processLine_blank (hne : line.text ≠ "") (h : strip line.text = "") (s : State) :
    processLine cfg line s = (.ok (), s.addRead) := by
  rw [processLine, if_neg hne, if_pos h]
  rfl

theorem text_ne_empty (h : strip line.text ≠ "") : line.text ≠ "" := by
  intro hempty
  rw [hempty] at h
  exact h strip_empty

theorem processLine_event (h : strip line.text ≠ "") (s : State) :
    processLine cfg line s = recover (publish cfg line) (reject cfg line) s.addRead := by
  rw [processLine, if_neg (text_ne_empty h), if_neg h]
  rfl

variable (line)

/-- What the line raises while it is published is a `ValueError`. -/
def Rejected : Prop :=
  strip line.text ≠ "" ∧
    match cfg.loads (strip line.text) with
    | .error e => e.cls = .valueError
    | .ok event => validateZeekEvent event = true → ∃ e, line.rawSend = .error e ∧ e.cls = .valueError

theorem rejected_iff (s : State) :
    Rejected cfg line ↔
      strip line.text ≠ "" ∧ ∃ e, (publish cfg line s).1 = .error e ∧ e.cls = .valueError := by
  rw [Rejected, publish_run]
  refine and_congr_right fun _ => ?_
  cases cfg.loads (strip line.text) with
  | error e => simp
  | ok event =>
      dsimp only
      by_cases hts : validateZeekEvent event = true
      · rw [if_pos hts]
        cases line.rawSend with
        | error e => simp [hts]
        | ok u => simp [hts]
      · rw [if_neg hts]
        simp [hts]

/-- A line ends the loop exactly when it is rejected and its dead letter is refused. -/
theorem processLine_ok_iff (s : State) :
    (processLine cfg line s).1 = .ok () ↔ (Rejected cfg line → line.deadLetterSend = .ok ()) := by
  by_cases hblank : strip line.text = ""
  · have hanswer : (processLine cfg line s).1 = .ok () := by
      by_cases hne : line.text = ""
      · rw [processLine_idle cfg hne]
      · rw [processLine_blank cfg hne hblank]
    exact iff_of_true hanswer fun h => absurd hblank h.1
  · rw [processLine_event cfg hblank, rejected_iff cfg line s.addRead, recover]
    cases hrun : publish cfg line s.addRead with
    | mk r t =>
        cases r with
        | ok u => simp
        | error e =>
            dsimp only
            rw [reject_run]
            by_cases hvalue : e.cls = .valueError
            · rw [if_pos hvalue]
              cases line.deadLetterSend with
              | error e' => simp [hblank, hvalue]
              | ok u => simp
            · rw [if_neg hvalue]
              simp [hvalue]

variable {cfg line}

/-- A line that does not end the loop is counted as read, and as published or rejected unless it is blank. -/
theorem processLine_counts (h : (processLine cfg line s).1 = .ok ()) :
    (processLine cfg line s).2.metrics.read = s.metrics.read + (if line.text ≠ "" then 1 else 0) ∧
      (processLine cfg line s).2.metrics.published + (processLine cfg line s).2.metrics.rejected =
        s.metrics.published + s.metrics.rejected + (if strip line.text ≠ "" then 1 else 0) := by
  by_cases hblank : strip line.text = ""
  · by_cases hne : line.text = ""
    · simp [processLine_idle cfg hne, hne, strip_empty]
    · simp [processLine_blank cfg hne hblank, hne, hblank, State.addRead]
  · rw [processLine_event cfg hblank, recover] at h ⊢
    rw [if_pos (text_ne_empty hblank), if_pos hblank]
    obtain ⟨e, hpublish⟩ | ⟨value, hpublish⟩ := publish_cases cfg line s.addRead
    · rw [hpublish] at h ⊢
      dsimp only at h ⊢
      obtain ⟨e', hreject⟩ | hreject | ⟨value, hreject⟩ :=
        reject_cases cfg line e s.addRead
      · rw [hreject] at h
        cases h
      · rw [hreject]
        exact ⟨rfl, rfl⟩
      · rw [hreject]
        exact ⟨rfl, rfl⟩
    · rw [hpublish]
      exact ⟨rfl, Nat.add_right_comm ..⟩

/-! ## The loop -/

variable (cfg)

/-- Nothing has left the loop: every line has been read, and every one that is not blank published or rejected. -/
def ProcessesAll (lines : List Line) (s : State) : Prop :=
  (processLog cfg lines s).1 = .ok () ∧
    (processLog cfg lines s).2.metrics.read = s.metrics.read + lines.countP (·.text ≠ "") ∧
    (processLog cfg lines s).2.metrics.published + (processLog cfg lines s).2.metrics.rejected =
      s.metrics.published + s.metrics.rejected + lines.countP (strip ·.text ≠ "")

/-- The loop goes on exactly when no dead letter of a rejected line is refused. -/
theorem process_log_survives_iff (lines : List Line) (s : State) :
    ProcessesAll cfg lines s ↔ ∀ line ∈ lines, Rejected cfg line → line.deadLetterSend = .ok () := by
  have hok := forEach_ok_iff (processLine_ok_iff cfg) lines s
  rw [← hok]
  refine ⟨fun h => h.1, fun h => ⟨h, ?_, ?_⟩⟩
  · refine forEach_count (m := fun s => s.metrics.read) (p := fun line => line.text ≠ "") (fun line s hline => ?_) h
    rw [(processLine_counts hline).1]
    simp
  · refine forEach_count (m := fun s => s.metrics.published + s.metrics.rejected)
      (p := fun line => strip line.text ≠ "") (fun line s hline => ?_) h
    rw [(processLine_counts hline).2]
    simp

theorem process_log_stops :
    ¬ ∀ (cfg : Config) (lines : List Line) (s : State), ProcessesAll cfg lines s := by
  intro h
  have hloop := (h ⟨fun _ => .error ⟨.valueError, "Expecting value: line 1 column 1 (char 0)"⟩, "sensor-01", "conn"⟩
    [⟨"not-valid-json\n", .fin 0, .fin 0, .ok (), .error ⟨.other, "KafkaTimeoutError: Failed to update metadata"⟩⟩]
    .start).1
  revert hloop
  decide +kernel

end NeuralSoc.Tailer
