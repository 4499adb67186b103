import NeuralSoc.Sink.Lemmas.Loop

/-!
# How often an invalid message is dead-lettered

An attempt writes every invalid message of its batch once, and so does an evacuation. `Tallied` keeps the
count of the messages that have left the sink, `Even` that of the batch that is held.
-/

namespace NeuralSoc.Sink

variable {rt : Runtime} {log xs : List Event} {batch : List Item} {it : Item}

/-! ## Counting -/

def position (it : Item) : TopicPartition × ℕ := (it.tp, it.offset)

def isWrite (it : Item) : Event → Bool
  | .dlq tp offset _ _ => (tp, offset) = position it
  | _ => false

/-- How often a message was written to the file DLQ. -/
def writes (log : List Event) (it : Item) : ℕ := log.countP (isWrite it)

def isFailure (it : Item) : Event → Bool
  | .retained batch => it ∈ batch
  | _ => false

/-- How often a batch with the message failed and was kept for a retry. -/
def failedAttempts (log : List Event) (it : Item) : ℕ := log.countP (isFailure it)

theorem writes_append (log xs : List Event) (it : Item) :
    writes (log ++ xs) it = writes log it + writes xs it := List.countP_append

theorem failedAttempts_append (log xs : List Event) (it : Item) :
    failedAttempts (log ++ xs) it = failedAttempts log it + failedAttempts xs it := List.countP_append

theorem writes_eq_zero (h : ∀ tp o a e, .dlq tp o a e ∈ xs → (tp, o) ≠ position it) :
    writes xs it = 0 := by
  rw [writes, List.countP_eq_zero]
  intro e he
  cases e with
  | dlq tp o a err => simpa [isWrite] using h tp o a err he
  | _ => simp [isWrite]

theorem failedAttempts_eq_zero (h : ∀ b, .retained b ∈ xs → it ∉ b) : failedAttempts xs it = 0 := by
  rw [failedAttempts, List.countP_eq_zero]
  intro e he
  cases e with
  | retained b => simpa [isFailure] using h b he
  | _ => simp [isFailure]

theorem writes_map {write : Item → Event}
    (hwrite : ∀ it', ∃ a e, write it' = .dlq it'.tp it'.offset a e) (hd : (batch.map position).Nodup)
    (hit : it ∈ batch) : writes (batch.map write) it = 1 := by
  have hcount : writes (batch.map write) it = (batch.map position).count (position it) := by
    rw [writes, List.countP_map, List.count, List.countP_map]
    refine List.countP_congr fun it' _ => ?_
    obtain ⟨a, e, h⟩ := hwrite it'
    simp [h, isWrite, position]
  rw [hcount]
  exact List.count_eq_one_of_mem hd (List.mem_map.mpr ⟨it, hit, rfl⟩)

theorem eq_of_position (hd : (batch.map position).Nodup) {it' : Item} (hit : it ∈ batch)
    (hit' : it' ∈ batch) (h : position it = position it') : it = it' :=
  List.inj_on_of_nodup_map hd hit hit' h

theorem writes_writeAll (reason : String) (hd : (batch.map position).Nodup) (hit : it ∈ batch) :
    writes (writeAll reason batch) it = 1 :=
  writes_map (fun it' => ⟨it'.data, reason, rfl⟩) hd hit

theorem writes_rejections (hd : (batch.map position).Nodup) (hit : it ∈ batch)
    (hbad : invalid rt it = true) : writes (rejections rt batch) it = 1 := by
  have hsub : ((batch.filter (invalid rt)).map position).Sublist (batch.map position) :=
    List.filter_sublist.map position
  exact writes_map (fun it' => ⟨_, _, rfl⟩) (hd.sublist hsub) (List.mem_filter.mpr ⟨hit, hbad⟩)

/-- What is sent is valid, so its fate is no write of an invalid message. -/
theorem writes_fate (failed : Failed) (hd : (batch.map position).Nodup) (hit : it ∈ batch)
    (hbad : invalid rt it = true) : writes ((sent rt batch).map (fate failed)) it = 0 := by
  refine writes_eq_zero fun tp o a err hmem hpos => ?_
  obtain ⟨e, he, hfate⟩ := List.mem_map.mp hmem
  obtain ⟨it', hit', hent⟩ := mem_sent he
  obtain ⟨htp, hoff, -⟩ := entryOf_eq_some hent
  have hto : tp = e.tp ∧ o = e.offset := by
    unfold fate at hfate
    split at hfate
    · cases hfate
      exact ⟨rfl, rfl⟩
    · cases hfate
  have heq : it = it' := by
    refine eq_of_position hd hit hit' ?_
    rw [← hpos, hto.1, hto.2, htp, hoff]
    rfl
  subst heq
  simp [invalid, hent] at hbad

/-- An attempt that does not crash writes each invalid message of its batch once. -/
theorem writes_processBatch {ingest : IngestFn} {offsets : Offsets}
    (hr : (processBatch rt ingest batch).1 = .ok offsets) (hd : (batch.map position).Nodup)
    (hit : it ∈ batch) (hbad : invalid rt it = true) :
    writes (processBatch rt ingest batch).2 it = 1 := by
  rcases processBatch_cases rt ingest batch with ⟨_, h⟩ | h | ⟨failed, h⟩
  · rw [h] at hr
    cases hr
  · rw [h]
    exact writes_rejections hd hit hbad
  · rw [h]
    dsimp only
    rw [writes_append, writes_rejections hd hit hbad, writes_fate failed hd hit hbad]

/-! ## Invariants -/

structure Tallied (rt : Runtime) (log : List Event) (batch : List Item) : Prop where
  distinct : (batch.map position).Nodup
  attempted : ∀ b, .attempted b ∈ log → ∀ it ∈ b, .polled it.tp it.offset ∈ log
  retained : ∀ b, .retained b ∈ log → .attempted b ∈ log
  written : ∀ tp o a e, .dlq tp o a e ∈ log → .polled tp o ∈ log
  same : ∀ b, .attempted b ∈ log → ∀ it ∈ b, ∀ it' ∈ batch, position it = position it' → it = it'
  left : ∀ b, .attempted b ∈ log → ∀ it ∈ b, it ∉ batch → invalid rt it = true →
    writes log it = failedAttempts log it + 1

/-- Every failed attempt has written the invalid messages of the batch once. -/
def Even (rt : Runtime) (log : List Event) (batch : List Item) : Prop :=
  ∀ it ∈ batch, invalid rt it = true → writes log it = failedAttempts log it

/-- The attempt that ends the life of the batch has written them too. -/
def Final (rt : Runtime) (log : List Event) (batch : List Item) : Prop :=
  ∀ it ∈ batch, invalid rt it = true → writes log it = failedAttempts log it + 1

/-- Events that leave alone what is not held. -/
def Touches (batch : List Item) (log : List Event) : Event → Prop
  | .dlq tp o _ _ => ∃ it ∈ batch, (tp, o) = position it ∧ .polled tp o ∈ log
  | .attempted b => b = batch ∧ ∀ it ∈ batch, .polled it.tp it.offset ∈ log
  | .retained b => b = batch ∧ .attempted batch ∈ log
  | _ => True

theorem Tallied.append (h : Tallied rt log batch) (hxs : ∀ e ∈ xs, Touches batch log e) :
    Tallied rt (log ++ xs) batch where
  distinct := h.distinct
  attempted b hb it hit := by
    rcases List.mem_append.mp hb with hb | hb
    · exact List.mem_append_left _ (h.attempted b hb it hit)
    · obtain ⟨rfl, hpolled⟩ := hxs _ hb
      exact List.mem_append_left _ (hpolled it hit)
  retained b hb := by
    rcases List.mem_append.mp hb with hb | hb
    · exact List.mem_append_left _ (h.retained b hb)
    · obtain ⟨rfl, hatt⟩ := hxs _ hb
      exact List.mem_append_left _ hatt
  written tp o a e hmem := by
    rcases List.mem_append.mp hmem with hmem | hmem
    · exact List.mem_append_left _ (h.written tp o a e hmem)
    · obtain ⟨it, hit, -, hpolled⟩ := hxs _ hmem
      exact List.mem_append_left _ hpolled
  same b hb it hit it' hit' hpos := by
    rcases List.mem_append.mp hb with hb | hb
    · exact h.same b hb it hit it' hit' hpos
    · obtain ⟨rfl, -⟩ := hxs _ hb
      exact eq_of_position h.distinct hit hit' hpos
  left b hb it hit hout hbad := by
    rcases List.mem_append.mp hb with hb | hb
    · have hw : writes xs it = 0 := writes_eq_zero fun tp o a e hmem hpos => by
        obtain ⟨it', hit', heq, -⟩ := hxs _ hmem
        rw [hpos] at heq
        exact hout (h.same b hb it hit it' hit' heq ▸ hit')
      have hf : failedAttempts xs it = 0 := failedAttempts_eq_zero fun b' hb' hmem => by
        rw [(hxs _ hb').1] at hmem
        exact hout hmem
      rw [writes_append, failedAttempts_append, hw, hf]
      exact h.left b hb it hit hout hbad
    · rw [(hxs _ hb).1] at hit
      exact absurd hit hout

theorem Tallied.clear (h : Tallied rt log batch) (hf : Final rt log batch) : Tallied rt log [] where
  distinct := List.nodup_nil
  attempted := h.attempted
  retained := h.retained
  written := h.written
  same := fun _ _ _ _ => nofun
  left b hb it hit _ hbad := by
    by_cases hmem : it ∈ batch
    · exact hf it hmem hbad
    · exact h.left b hb it hit hmem hbad

theorem Even.final (h : Even rt log batch)
    (hw : ∀ it ∈ batch, invalid rt it = true → writes xs it = 1)
    (hf : ∀ it ∈ batch, failedAttempts xs it = 0) : Final rt (log ++ xs) batch := by
  intro it hit hbad
  rw [writes_append, failedAttempts_append, hw it hit hbad, hf it hit, h it hit hbad]

def Inert : Event → Prop
  | .dlq .. | .attempted _ | .retained _ => False
  | _ => True

theorem Inert.touches {e : Event} (h : Inert e) : Touches batch log e := by
  cases e with
  | dlq tp o a err => exact h.elim
  | attempted b => exact h.elim
  | retained b => exact h.elim
  | _ => trivial

theorem counts_of_inert (h : ∀ e ∈ xs, Inert e) (it : Item) :
    writes (log ++ xs) it = writes log it ∧ failedAttempts (log ++ xs) it = failedAttempts log it := by
  have hw : writes xs it = 0 := writes_eq_zero fun _ _ _ _ hmem => (h _ hmem).elim
  have hf : failedAttempts xs it = 0 := failedAttempts_eq_zero fun _ hmem => (h _ hmem).elim
  exact ⟨by rw [writes_append, hw, Nat.add_zero], by rw [failedAttempts_append, hf, Nat.add_zero]⟩

theorem Final.inert (h : Final rt log batch) (hxs : ∀ e ∈ xs, Inert e) :
    Final rt (log ++ xs) batch := by
  intro it hit hbad
  rw [(counts_of_inert hxs it).1, (counts_of_inert hxs it).2, h it hit hbad]

theorem Even.inert (h : Even rt log batch) (hxs : ∀ e ∈ xs, Inert e) : Even rt (log ++ xs) batch := by
  intro it hit hbad
  rw [(counts_of_inert hxs it).1, (counts_of_inert hxs it).2, h it hit hbad]

theorem Final.retained (h : Final rt log batch) : Even rt (log ++ [.retained batch]) batch := by
  intro it hit hbad
  have hf : failedAttempts [.retained batch] it = 1 := by simp [failedAttempts, isFailure, hit]
  rw [writes_append, failedAttempts_append, h it hit hbad, hf]
  rfl

/-! ## Polling -/

theorem Tallied.concat (h : Tallied rt log batch) (it : Item)
    (hpolled : ∀ it ∈ batch, .polled it.tp it.offset ∈ log) (hnew : .polled it.tp it.offset ∉ log) :
    Tallied rt log (batch ++ [it]) := by
  have hne : ∀ it', .polled it'.tp it'.offset ∈ log → position it' ≠ position it := by
    intro it' hmem hpos
    obtain ⟨htp, hoff⟩ := Prod.mk.inj hpos
    rw [htp, hoff] at hmem
    exact hnew hmem
  constructor
  case distinct =>
    rw [List.map_append, List.map_cons, List.map_nil]
    refine h.distinct.append (List.nodup_singleton _) fun p hp hp' => ?_
    obtain ⟨it', hit', rfl⟩ := List.mem_map.mp hp
    exact hne it' (hpolled it' hit') (List.mem_singleton.mp hp')
  case attempted => exact h.attempted
  case retained => exact h.retained
  case written => exact h.written
  case same =>
    intro b hb it₁ hit₁ it₂ hit₂ hpos
    rcases List.mem_append.mp hit₂ with hit₂ | hit₂
    · exact h.same b hb it₁ hit₁ it₂ hit₂ hpos
    · rw [List.mem_singleton.mp hit₂] at hpos
      exact absurd hpos (hne it₁ (h.attempted b hb it₁ hit₁))
  case left =>
    intro b hb it' hit' hout hbad
    exact h.left b hb it' hit' (fun hmem => hout (List.mem_append_left _ hmem)) hbad

theorem Even.concat (h : Even rt log batch) (it : Item) (ht : Tallied rt log batch)
    (hnew : .polled it.tp it.offset ∉ log) : Even rt log (batch ++ [it]) := by
  intro it' hit' hbad
  rcases List.mem_append.mp hit' with hit' | hit'
  · exact h it' hit' hbad
  · cases List.mem_singleton.mp hit'
    have hw : writes log it = 0 := writes_eq_zero fun tp o a e hmem hpos => by
      cases hpos
      exact hnew (ht.written _ _ a e hmem)
    have hf : failedAttempts log it = 0 := failedAttempts_eq_zero fun b hb hmem =>
      hnew (ht.attempted b (ht.retained b hb) it hmem)
    rw [hw, hf]

/-! ## One pass -/

section Pass

variable {env : CycleEnv} {s : SinkState} {reason : String}

def Counted (rt : Runtime) (s : SinkState) : Prop := Tallied rt s.log s.batch ∧ Even rt s.log s.batch

theorem collect_counted {m : Message} (h : Counted rt s)
    (hpolled : ∀ it ∈ s.batch, .polled it.tp it.offset ∈ s.log)
    (hnew : Increasing s.log (.polled m.tp m.offset)) : Counted rt (collect rt s m) := by
  have hfresh : .polled m.tp m.offset ∉ s.log := fun hmem => Nat.lt_irrefl _ (hnew _ hmem)
  unfold Counted collect
  cases readMessage rt m with
  | some data =>
      have hinert : ∀ e ∈ [Event.polled m.tp m.offset], Inert e := by simp [Inert]
      have ht := h.1.concat ⟨data, m.tp, m.offset⟩ hpolled hfresh
      have he := h.2.concat ⟨data, m.tp, m.offset⟩ h.1 hfresh
      exact ⟨ht.append fun e hmem => (hinert e hmem).touches, he.inert hinert⟩
  | none =>
      have hinert : ∀ e ∈ [Event.polled m.tp m.offset, .discarded m.tp m.offset], Inert e := by
        simp [Inert]
      dsimp only [SinkState.emit]
      rw [List.append_assoc]
      exact ⟨h.1.append fun e hmem => (hinert e hmem).touches, h.2.inert hinert⟩

theorem foldl_collect_counted (ms : List Message) {s : SinkState} (hs : Steady s) (h : Counted rt s)
    (hinc : AtEach Increasing (ms.foldl (collect rt) s).log) : Counted rt (ms.foldl (collect rt) s) := by
  induction ms generalizing s with
  | nil => exact h
  | cons m ms ih =>
      have hnew := increasing_of_foldl_collect hinc
      exact ih ⟨collect_consistent hs.1 hnew, collect_held hs.1 hs.2 hnew⟩
        (collect_counted h hs.2.polled hnew) hinc

theorem pollStage_counted (hs : Steady s) (h : Counted rt s)
    (hinc : AtEach Increasing (pollStage rt env s).log) : Counted rt (pollStage rt env s) := by
  unfold pollStage at hinc ⊢
  split
  · rename_i hlen
    rw [if_pos hlen] at hinc
    cases hp : env.poll with
    | ok messages =>
        rw [hp] at hinc
        exact foldl_collect_counted messages hs h hinc
    | error _ => exact h
  · exact h

theorem attempted_tallied (ingest : IngestFn) (hs : Steady s) (h : Counted rt s) :
    Tallied rt (s.log ++ .attempted s.batch :: (processBatch rt ingest s.batch).2) s.batch := by
  refine h.1.append fun e he => ?_
  rcases List.mem_cons.mp he with rfl | he
  · exact ⟨rfl, hs.2.polled⟩
  rcases mem_processBatch he with ⟨it, a, err, hit, rfl⟩ | ⟨tp, o, rfl⟩
  · exact ⟨it, hit, rfl, hs.2.polled it hit⟩
  · trivial

theorem attempted_final {ingest : IngestFn} {offsets : Offsets} (h : Counted rt s)
    (hr : (processBatch rt ingest s.batch).1 = .ok offsets) :
    Final rt (s.log ++ .attempted s.batch :: (processBatch rt ingest s.batch).2) s.batch := by
  refine h.2.final (fun it hit hbad => ?_) fun it _ => ?_
  · rw [← writes_processBatch hr h.1.distinct hit hbad]
    rfl
  · refine failedAttempts_eq_zero fun b hb => ?_
    rcases List.mem_cons.mp hb with hb | hb
    · cases hb
    · rcases mem_processBatch hb with ⟨_, _, _, _, hb⟩ | ⟨_, _, hb⟩ <;> cases hb

theorem inert_committed (offsets : List (TopicPartition × ℕ)) :
    ∀ e ∈ [Event.committed offsets], Inert e := by simp [Inert]

theorem Tallied.inert (h : Tallied rt log batch) (hxs : ∀ e ∈ xs, Inert e) :
    Tallied rt (log ++ xs) batch := h.append fun e he => (hxs e he).touches

theorem Tallied.tryCommit {outcome : Except Exc Unit} {offsets : List (TopicPartition × ℕ)}
    (h : Tallied rt s.log batch) : Tallied rt (tryCommit outcome offsets s).log batch := by
  rcases tryCommit_log outcome offsets s with hlog | hlog
  · exact hlog ▸ h
  · exact hlog ▸ h.inert (inert_committed offsets)

theorem Final.tryCommit {outcome : Except Exc Unit} {offsets : List (TopicPartition × ℕ)}
    (h : Final rt s.log batch) : Final rt (tryCommit outcome offsets s).log batch := by
  rcases tryCommit_log outcome offsets s with hlog | hlog
  · exact hlog ▸ h
  · exact hlog ▸ h.inert (inert_committed offsets)

theorem clearBatch_counted {later : ℚ} (h : Tallied rt s.log batch) (hf : Final rt s.log batch) :
    Counted rt (clearBatch later s) := ⟨h.clear hf, nofun⟩

theorem written_counted (hs : Steady s) (h : Counted rt s) (reason : String) :
    Tallied rt (s.emit (writeAll reason s.batch)).log s.batch ∧
      Final rt (s.emit (writeAll reason s.batch)).log s.batch := by
  constructor
  · refine h.1.append fun e he => ?_
    obtain ⟨it, hit, rfl⟩ := List.mem_map.mp he
    exact ⟨it, hit, rfl, hs.2.polled it hit⟩
  · refine h.2.final (fun it hit _ => writes_writeAll reason h.1.distinct hit) fun it _ => ?_
    refine failedAttempts_eq_zero fun b hb => ?_
    obtain ⟨_, _, hb⟩ := List.mem_map.mp hb
    cases hb

theorem evacuate_counted (hs : Steady s) (h : Counted rt s) : Counted rt (evacuate env reason s) := by
  obtain ⟨ht, hf⟩ := written_counted hs h reason
  exact clearBatch_counted ht.tryCommit hf.tryCommit

theorem panicStage_counted (hs : Steady s) (h : Counted rt s) : Counted rt (panicStage env s) := by
  unfold panicStage
  split
  · obtain ⟨ht, hf⟩ := written_counted hs h "BatchPanicThresholdExceeded"
    exact ⟨(ht.tryCommit).clear hf.tryCommit, nofun⟩
  · exact h

theorem staleStage_counted (h : Counted rt s) : Counted rt (staleStage env s) := by
  unfold staleStage
  split
  · have heven : Even rt (tryCommit env.staleCommit (staleOffsets s) s).log s.batch := by
      rcases tryCommit_log env.staleCommit (staleOffsets s) s with hlog | hlog
      · exact hlog ▸ h.2
      · exact hlog ▸ h.2.inert (inert_committed _)
    unfold Counted
    rw [tryCommit_batch]
    exact ⟨h.1.tryCommit, heven⟩
  · exact h

/-- An attempt that failed has written the invalid messages once more, and is counted. -/
theorem retain_counted (hs : Steady s) (ht : Tallied rt s.log s.batch) (hf : Final rt s.log s.batch)
    (hatt : .attempted s.batch ∈ s.log) : Counted rt (retain env reason s) := by
  have hwarned : Counted rt { s.emit [.retained s.batch] with
      consecutiveCommitFailures := s.consecutiveCommitFailures + 1 } := by
    refine ⟨ht.append fun e he => ?_, hf.retained⟩
    rw [List.mem_singleton.mp he]
    exact ⟨rfl, hatt⟩
  unfold retain
  dsimp only
  split
  · exact evacuate_counted (warned_steady hs) hwarned
  · exact hwarned

/-- The count of a sink that has stopped says nothing about its last batch. -/
def CountedWhileRunning (rt : Runtime) (s : SinkState) : Prop :=
  Tallied rt s.log s.batch ∧ (s.running = true → Even rt s.log s.batch)

theorem Counted.whileRunning (h : Counted rt s) : CountedWhileRunning rt s := ⟨h.1, fun _ => h.2⟩

theorem flushStage_counted (env : CycleEnv) (hs : Steady s) (h : Counted rt s) :
    CountedWhileRunning rt (flushStage rt env s) := by
  unfold flushStage
  split
  · exact h.whileRunning
  have hsteady := attempted_steady rt hs (ingestViaApi env.endpoint)
  have ht := attempted_tallied (ingestViaApi env.endpoint) hs h
  dsimp only
  split
  · exact ⟨ht, nofun⟩
  · rename_i offsets hr
    have hf := attempted_final h hr
    have hatt : .attempted s.batch ∈ (s.emit (.attempted s.batch ::
        (processBatch rt (ingestViaApi env.endpoint) s.batch).2)).log :=
      List.mem_append_right _ List.mem_cons_self
    split
    · exact (retain_counted hsteady ht hf hatt).whileRunning
    · split
      · exact ⟨(ht.inert (inert_committed _)).clear (hf.inert (inert_committed _)), fun _ => nofun⟩
      · exact (retain_counted hsteady ht hf hatt).whileRunning

theorem cycle_counted (hs : Steady s) (h : Counted rt s)
    (hinc : AtEach Increasing (pollStage rt env s).log) : CountedWhileRunning rt (cycle rt env s) := by
  have hpoll := pollStage_steady hs hinc
  have hflush := flushStage_counted env hpoll (pollStage_counted hs h hinc)
  unfold cycle
  dsimp only
  split
  · rename_i hrun
    have hsteady := (flushStage_invariant rt env hpoll).steady hrun
    exact (panicStage_counted (staleStage_steady hsteady)
      (staleStage_counted ⟨hflush.1, hflush.2 hrun⟩)).whileRunning
  · exact hflush

theorem shutdown_counted {endpoint : IngestFn} {commit : Except Exc Unit} (hs : Steady s)
    (h : Counted rt s) : CountedWhileRunning rt (shutdown rt endpoint commit s) := by
  unfold shutdown
  split
  · exact ⟨h.1, nofun⟩
  have ht := attempted_tallied (ingestViaApi endpoint) hs h
  dsimp only
  split
  · split
    · exact ⟨ht, nofun⟩
    · cases commit with
      | ok _ => exact ⟨ht.inert (inert_committed _), nofun⟩
      | error _ => exact ⟨ht, nofun⟩
  · exact ⟨ht, nofun⟩

theorem step_counted {i : Input} (hs : Invariant s) (h : CountedWhileRunning rt s)
    (hinc : AtEach Increasing (step rt s i).log) : CountedWhileRunning rt (step rt s i) := by
  unfold step at hinc ⊢
  split
  · exact h
  · rename_i hrun
    rw [if_neg hrun] at hinc
    have hrun : s.running = true := by simpa using hrun
    cases i with
    | cycle env =>
        exact cycle_counted (hs.steady hrun) ⟨h.1, h.2 hrun⟩ (hinc.of_prefix (cycle_log rt env s))
    | shutdown endpoint commit => exact shutdown_counted (hs.steady hrun) ⟨h.1, h.2 hrun⟩

theorem run_counted (inputs : List Input) {s : SinkState} (hs : Invariant s)
    (h : CountedWhileRunning rt s) (hinc : AtEach Increasing (inputs.foldl (step rt) s).log) :
    CountedWhileRunning rt (inputs.foldl (step rt) s) := by
  induction inputs generalizing s with
  | nil => exact h
  | cons i inputs ih =>
      have hstep := hinc.of_prefix (run_log rt inputs (step rt s i))
      exact ih (step_invariant hs hstep) (step_counted hs h hstep) hinc

theorem start_counted (rt : Runtime) (now : ℚ) : CountedWhileRunning rt (SinkState.start now) :=
  ⟨⟨List.nodup_nil, nofun, nofun, nofun, nofun, nofun⟩, fun _ => nofun⟩

end Pass

end NeuralSoc.Sink
