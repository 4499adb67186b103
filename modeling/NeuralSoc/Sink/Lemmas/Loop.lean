import NeuralSoc.Base.Log
import NeuralSoc.Sink.Lemmas.Batch
import NeuralSoc.Sink.Loop

/-!
# What the loop keeps

`Consistent` relates the log to the watermarks, `Held` to the batch that is held. A commit is safe because
every message that was polled is settled when it is made; only messages of the batch can be unsettled, and
no commit has reached them yet.
-/

namespace NeuralSoc.Sink

/-! ## What the log has to say -/

/-- A later item of a batch with the same alert id was handled in its place. -/
def Superseded (log : List Event) (tp : TopicPartition) (offset : ℕ) : Prop :=
  ∃ pre it post, .attempted (pre ++ it :: post) ∈ log ∧ it.tp = tp ∧ it.offset = offset ∧
    ∃ it' ∈ post, it'.data.get "alert_id" = it.data.get "alert_id" ∧ Handled log it'.tp it'.offset

def Settled (log : List Event) (tp : TopicPartition) (offset : ℕ) : Prop :=
  Handled log tp offset ∨ Superseded log tp offset ∨ .discarded tp offset ∈ log

/-- What is committed lies behind settled messages only. -/
def Covered (log : List Event) : Event → Prop
  | .committed offsets =>
      ∀ tp c, (tp, c) ∈ offsets → ∀ o < c, .polled tp o ∈ log → Settled log tp o
  | _ => True

/-- No commit is behind an earlier one. -/
def Forward (log : List Event) : Event → Prop
  | .committed offsets =>
      ∀ tp c, (tp, c) ∈ offsets → ∀ old b, .committed old ∈ log → (tp, b) ∈ old → b ≤ c
  | _ => True

/-- The offsets of a partition are polled in increasing order. -/
def Increasing (log : List Event) : Event → Prop
  | .polled tp o => ∀ b, .polled tp b ∈ log → b < o
  | _ => True

theorem Superseded.mono {log log' : List Event} {tp : TopicPartition} {o : ℕ} (hsub : log ⊆ log')
    (h : Superseded log tp o) : Superseded log' tp o := by
  obtain ⟨pre, it, post, hmem, htp, ho, it', hit', hid, hh⟩ := h
  exact ⟨pre, it, post, hsub hmem, htp, ho, it', hit', hid, hh.mono hsub⟩

theorem Settled.mono {log log' : List Event} {tp : TopicPartition} {o : ℕ} (hsub : log ⊆ log')
    (h : Settled log tp o) : Settled log' tp o :=
  h.imp (Handled.mono hsub) (Or.imp (Superseded.mono hsub) fun h => hsub h)

/-! ## Invariants -/

structure Consistent (log : List Event) (highest : Offsets) : Prop where
  observed : ∀ tp o, .polled tp o ∈ log → ∃ h, highest.get? tp = some h ∧ o < h
  top : ∀ tp h, highest.get? tp = some h → ∃ o, .polled tp o ∈ log ∧ h = o + 1
  reached : ∀ offsets tp c, .committed offsets ∈ log → (tp, c) ∈ offsets →
    ∃ h, highest.get? tp = some h ∧ c ≤ h
  covered : AtEach Covered log
  forward : AtEach Forward log

structure Held (log : List Event) (batch : List Item) : Prop where
  polled : ∀ it ∈ batch, .polled it.tp it.offset ∈ log
  settled : ∀ tp o, .polled tp o ∈ log → Settled log tp o ∨ ∃ it ∈ batch, it.tp = tp ∧ it.offset = o
  ahead : ∀ offsets tp c, .committed offsets ∈ log → (tp, c) ∈ offsets →
    ∀ it ∈ batch, it.tp = tp → c ≤ it.offset

def AllSettled (log : List Event) : Prop := ∀ tp o, .polled tp o ∈ log → Settled log tp o

def Quiet : Event → Prop
  | .polled .. | .committed .. => False
  | _ => True

section Quiet

variable {log xs : List Event} {highest : Offsets} {batch : List Item}

theorem polled_of_quiet (hq : ∀ e ∈ xs, Quiet e) {tp : TopicPartition} {o : ℕ}
    (h : .polled tp o ∈ log ++ xs) : .polled tp o ∈ log :=
  (List.mem_append.mp h).resolve_right (hq _)

theorem committed_of_quiet (hq : ∀ e ∈ xs, Quiet e) {offsets : List (TopicPartition × ℕ)}
    (h : .committed offsets ∈ log ++ xs) : .committed offsets ∈ log :=
  (List.mem_append.mp h).resolve_right (hq _)

theorem Consistent.quiet (h : Consistent log highest) (hq : ∀ e ∈ xs, Quiet e) :
    Consistent (log ++ xs) highest where
  observed tp o hp := h.observed tp o (polled_of_quiet hq hp)
  top tp c hc := by
    obtain ⟨o, ho, rfl⟩ := h.top tp c hc
    exact ⟨o, List.mem_append_left _ ho, rfl⟩
  reached offsets tp c hm hc := h.reached offsets tp c (committed_of_quiet hq hm) hc
  covered := h.covered.append fun e he pre => by
    cases e with
    | committed offsets => exact (hq _ he).elim
    | _ => trivial
  forward := h.forward.append fun e he pre => by
    cases e with
    | committed offsets => exact (hq _ he).elim
    | _ => trivial

theorem Held.quiet (h : Held log batch) (hq : ∀ e ∈ xs, Quiet e) : Held (log ++ xs) batch where
  polled it hit := List.mem_append_left _ (h.polled it hit)
  settled tp o hp := (h.settled tp o (polled_of_quiet hq hp)).imp
    (Settled.mono (List.subset_append_left _ _)) id
  ahead offsets tp c hm hc := h.ahead offsets tp c (committed_of_quiet hq hm) hc

end Quiet

section Commit

variable {log : List Event} {highest : Offsets} {batch : List Item}
  {offsets : List (TopicPartition × ℕ)}

theorem polled_of_commit {tp : TopicPartition} {o : ℕ}
    (h : .polled tp o ∈ log ++ [.committed offsets]) : .polled tp o ∈ log := by
  rcases List.mem_append.mp h with h | h
  · exact h
  · cases List.mem_singleton.mp h

theorem AllSettled.commit (h : AllSettled log) : AllSettled (log ++ [.committed offsets]) :=
  fun tp o hp => (h tp o (polled_of_commit hp)).mono (List.subset_append_left _ _)

theorem AllSettled.held (h : AllSettled log) : Held log [] where
  polled := nofun
  settled tp o hp := Or.inl (h tp o hp)
  ahead := nofun

theorem Held.allSettled (h : Held log []) : AllSettled log := by
  intro tp o hp
  rcases h.settled tp o hp with hs | ⟨it, hit, -⟩
  · exact hs
  · cases hit

/-- A commit between the earlier ones and the watermarks is safe when all is settled. -/
theorem Consistent.commit (h : Consistent log highest) (hall : AllSettled log)
    (hle : ∀ tp c, (tp, c) ∈ offsets → ∃ t, highest.get? tp = some t ∧ c ≤ t)
    (hge : ∀ tp c, (tp, c) ∈ offsets → ∀ old b, .committed old ∈ log → (tp, b) ∈ old → b ≤ c) :
    Consistent (log ++ [.committed offsets]) highest where
  observed tp o hp := h.observed tp o (polled_of_commit hp)
  top tp c hc := by
    obtain ⟨o, ho, rfl⟩ := h.top tp c hc
    exact ⟨o, List.mem_append_left _ ho, rfl⟩
  reached offsets' tp c hm hc := by
    rcases List.mem_append.mp hm with hm | hm
    · exact h.reached offsets' tp c hm hc
    · cases List.mem_singleton.mp hm
      exact hle tp c hc
  covered := atEach_concat.mpr ⟨h.covered, fun tp c _ o _ hp => hall tp o hp⟩
  forward := atEach_concat.mpr ⟨h.forward, hge⟩

theorem Consistent.commit_batch (h : Consistent log highest) (hh : Held log batch)
    (hall : AllSettled log)
    (hoff : ∀ tp c, (tp, c) ∈ offsets → ∃ it ∈ batch, it.tp = tp ∧ it.offset + 1 = c) :
    Consistent (log ++ [.committed offsets]) highest := by
  refine h.commit hall ?_ ?_
  · intro tp c hc
    obtain ⟨it, hit, rfl, rfl⟩ := hoff tp c hc
    obtain ⟨t, ht, hlt⟩ := h.observed _ _ (hh.polled it hit)
    exact ⟨t, ht, hlt⟩
  · intro tp c hc old b hold hb
    obtain ⟨it, hit, rfl, rfl⟩ := hoff tp c hc
    exact Nat.le_succ_of_le (hh.ahead old _ b hold hb it hit rfl)

theorem Consistent.commit_highest (h : Consistent log highest) (hall : AllSettled log)
    (hoff : offsets ⊆ highest.entries) : Consistent (log ++ [.committed offsets]) highest := by
  have hget : ∀ tp c, (tp, c) ∈ offsets → highest.get? tp = some c :=
    fun tp c hc => Dict.get?_eq_some.mpr (hoff hc)
  refine h.commit hall (fun tp c hc => ⟨c, hget tp c hc, Nat.le_refl c⟩) ?_
  intro tp c hc old b hold hb
  obtain ⟨t, ht, hle⟩ := h.reached old tp b hold hb
  rw [hget tp c hc] at ht
  cases ht
  exact hle

end Commit

/-! ## Polling -/

section Poll

variable {log : List Event} {highest : Offsets} {batch : List Item} {tp : TopicPartition} {o : ℕ}

theorem committed_of_poll {offsets : List (TopicPartition × ℕ)}
    (h : .committed offsets ∈ log ++ [.polled tp o]) : .committed offsets ∈ log := by
  rcases List.mem_append.mp h with h | h
  · exact h
  · cases List.mem_singleton.mp h

theorem polled_of_poll {q : TopicPartition} {b : ℕ} (h : .polled q b ∈ log ++ [.polled tp o]) :
    .polled q b ∈ log ∨ q = tp ∧ b = o := by
  rcases List.mem_append.mp h with h | h
  · exact Or.inl h
  · cases List.mem_singleton.mp h
    exact Or.inr ⟨rfl, rfl⟩

/-- A message that is new in its partition is the highest one. -/
theorem Consistent.raiseOffset_eq (h : Consistent log highest) (hnew : Increasing log (.polled tp o)) :
    raiseOffset highest tp o = highest.set tp (o + 1) := by
  rw [raiseOffset]
  cases ht : highest.get? tp with
  | none => simp
  | some t =>
      obtain ⟨b, hb, rfl⟩ := h.top _ _ ht
      have hlt := hnew b hb
      rw [Option.getD_some, Nat.max_eq_right (by omega)]

theorem Consistent.poll (h : Consistent log highest) (hnew : Increasing log (.polled tp o)) :
    Consistent (log ++ [.polled tp o]) (raiseOffset highest tp o) := by
  rw [h.raiseOffset_eq hnew]
  constructor
  case observed =>
    intro q b hp
    rw [Dict.get?_set]
    split
    · rename_i hq
      subst hq
      rcases polled_of_poll hp with hp | ⟨-, rfl⟩
      · exact ⟨_, rfl, Nat.lt_succ_of_lt (hnew b hp)⟩
      · exact ⟨_, rfl, Nat.lt_succ_self b⟩
    · rename_i hq
      exact h.observed q b ((polled_of_poll hp).resolve_right fun hnot => hq hnot.1)
  case top =>
    intro q t ht
    rw [Dict.get?_set] at ht
    split at ht
    · rename_i hq
      cases ht
      exact ⟨o, hq ▸ List.mem_append_right _ List.mem_cons_self, rfl⟩
    · obtain ⟨b, hb, rfl⟩ := h.top q t ht
      exact ⟨b, List.mem_append_left _ hb, rfl⟩
  case reached =>
    intro offsets q c hm hc
    obtain ⟨t, ht, hle⟩ := h.reached offsets q c (committed_of_poll hm) hc
    rw [Dict.get?_set]
    split
    · rename_i hq
      obtain ⟨b, hb, rfl⟩ := h.top q t ht
      rw [hq] at hb
      exact ⟨_, rfl, Nat.le_trans hle (Nat.succ_le_succ (Nat.le_of_lt (hnew b hb)))⟩
    · exact ⟨t, ht, hle⟩
  case covered => exact atEach_concat.mpr ⟨h.covered, trivial⟩
  case forward => exact atEach_concat.mpr ⟨h.forward, trivial⟩

/-- A committed offset lies behind a polled message, so a new one is not below it. -/
theorem Consistent.not_reached (h : Consistent log highest) (hnew : Increasing log (.polled tp o))
    (offsets : List (TopicPartition × ℕ)) (c : ℕ) (hm : .committed offsets ∈ log)
    (hc : (tp, c) ∈ offsets) : c ≤ o := by
  obtain ⟨t, ht, hle⟩ := h.reached offsets tp c hm hc
  obtain ⟨b, hb, rfl⟩ := h.top tp t ht
  exact Nat.le_trans hle (hnew b hb)

theorem Held.poll (h : Held log batch) (it : Item)
    (hahead : ∀ offsets c, .committed offsets ∈ log → (it.tp, c) ∈ offsets → c ≤ it.offset) :
    Held (log ++ [.polled it.tp it.offset]) (batch ++ [it]) := by
  constructor
  case polled =>
    intro it' hit'
    rcases List.mem_append.mp hit' with hit' | hit'
    · exact List.mem_append_left _ (h.polled it' hit')
    · cases List.mem_singleton.mp hit'
      exact List.mem_append_right _ List.mem_cons_self
  case settled =>
    intro q b hp
    rcases polled_of_poll hp with hp | ⟨rfl, rfl⟩
    · rcases h.settled q b hp with hs | ⟨it', hit', hq, hb⟩
      · exact Or.inl (hs.mono (List.subset_append_left _ _))
      · exact Or.inr ⟨it', List.mem_append_left _ hit', hq, hb⟩
    · exact Or.inr ⟨it, List.mem_append_right _ List.mem_cons_self, rfl, rfl⟩
  case ahead =>
    intro offsets q c hm hc it' hit' hq
    rcases List.mem_append.mp hit' with hit' | hit'
    · exact h.ahead offsets q c (committed_of_poll hm) hc it' hit' hq
    · cases List.mem_singleton.mp hit'
      subst hq
      exact hahead offsets c (committed_of_poll hm) hc

theorem Held.discard (h : Held log batch) :
    Held (log ++ ([.polled tp o] ++ [.discarded tp o])) batch := by
  constructor
  case polled => exact fun it hit => List.mem_append_left _ (h.polled it hit)
  case settled =>
    intro q b hp
    rw [← List.append_assoc] at hp
    rcases polled_of_poll ((List.mem_append.mp hp).resolve_right (by simp)) with hp | ⟨rfl, rfl⟩
    · exact (h.settled q b hp).imp (Settled.mono (List.subset_append_left _ _)) id
    · exact Or.inl (Or.inr (Or.inr (by simp)))
  case ahead =>
    intro offsets q c hm hc it hit hq
    rw [← List.append_assoc] at hm
    exact h.ahead offsets q c (committed_of_poll ((List.mem_append.mp hm).resolve_right (by simp))) hc it
      hit hq

end Poll

section Polling

variable {rt : Runtime} {s : SinkState}

theorem collect_log (rt : Runtime) (s : SinkState) (m : Message) :
    ∃ xs, (collect rt s m).log = s.log ++ [.polled m.tp m.offset] ++ xs := by
  unfold collect
  cases readMessage rt m with
  | some data => exact ⟨[], (List.append_nil _).symm⟩
  | none => exact ⟨[.discarded m.tp m.offset], rfl⟩

theorem foldl_collect_log (ms : List Message) (s : SinkState) :
    s.log <+: (ms.foldl (collect rt) s).log := by
  induction ms generalizing s with
  | nil => exact List.prefix_refl _
  | cons m ms ih =>
      obtain ⟨xs, hlog⟩ := collect_log rt s m
      refine List.IsPrefix.trans ?_ (ih (collect rt s m))
      rw [hlog, List.append_assoc]
      exact List.prefix_append _ _

theorem collect_consistent {m : Message} (h : Consistent s.log s.highestObserved)
    (hnew : Increasing s.log (.polled m.tp m.offset)) :
    Consistent (collect rt s m).log (collect rt s m).highestObserved := by
  have hpoll := h.poll hnew
  unfold collect
  cases readMessage rt m with
  | some data => exact hpoll
  | none =>
      refine hpoll.quiet fun e he => ?_
      rw [List.mem_singleton.mp he]
      trivial

theorem collect_held {m : Message} (hc : Consistent s.log s.highestObserved) (h : Held s.log s.batch)
    (hnew : Increasing s.log (.polled m.tp m.offset)) :
    Held (collect rt s m).log (collect rt s m).batch := by
  unfold collect
  cases readMessage rt m with
  | some data => exact h.poll ⟨data, m.tp, m.offset⟩ (hc.not_reached hnew)
  | none =>
      dsimp only [SinkState.emit]
      rw [List.append_assoc]
      exact h.discard

/-- What the loop keeps while it runs. -/
def Steady (s : SinkState) : Prop := Consistent s.log s.highestObserved ∧ Held s.log s.batch

/-- A message that is read out of a poll is new in its partition. -/
theorem increasing_of_foldl_collect {m : Message} {ms : List Message} {s : SinkState}
    (hinc : AtEach Increasing (ms.foldl (collect rt) (collect rt s m)).log) :
    Increasing s.log (.polled m.tp m.offset) := by
  obtain ⟨xs, hlog⟩ := collect_log rt s m
  refine hinc _ _ (List.IsPrefix.trans ?_ (foldl_collect_log ms (collect rt s m)))
  rw [hlog]
  exact List.prefix_append _ _

theorem foldl_collect_steady (ms : List Message) {s : SinkState} (h : Steady s)
    (hinc : AtEach Increasing (ms.foldl (collect rt) s).log) : Steady (ms.foldl (collect rt) s) := by
  induction ms generalizing s with
  | nil => exact h
  | cons m ms ih =>
      have hnew := increasing_of_foldl_collect hinc
      exact ih ⟨collect_consistent h.1 hnew, collect_held h.1 h.2 hnew⟩ hinc

theorem pollStage_log (rt : Runtime) (env : CycleEnv) (s : SinkState) :
    s.log <+: (pollStage rt env s).log := by
  unfold pollStage
  split
  · cases env.poll with
    | ok messages => exact foldl_collect_log messages s
    | error _ => exact List.prefix_refl _
  · exact List.prefix_refl _

theorem pollStage_steady {env : CycleEnv} (h : Steady s)
    (hinc : AtEach Increasing (pollStage rt env s).log) : Steady (pollStage rt env s) := by
  unfold pollStage at hinc ⊢
  split
  · rename_i hlen
    rw [if_pos hlen] at hinc
    cases hp : env.poll with
    | ok messages =>
        rw [hp] at hinc
        exact foldl_collect_steady messages h hinc
    | error _ => exact h
  · exact h

end Polling

/-! ## Letting a batch go -/

section LettingGo

variable {rt : Runtime} {env : CycleEnv} {s : SinkState} {reason : String}

theorem maxOffsets_mem {batch : List Item} {tp : TopicPartition} {c : ℕ}
    (h : (tp, c) ∈ (maxOffsets batch).entries) : ∃ it ∈ batch, it.tp = tp ∧ it.offset + 1 = c := by
  rcases get?_foldl_raiseOffset Item.tp Item.offset (Dict.get?_eq_some.mpr h) with h | h
  · cases h
  · exact h

theorem quiet_writeAll {batch : List Item} : ∀ e ∈ writeAll reason batch, Quiet e := by
  intro e he
  obtain ⟨it, -, rfl⟩ := List.mem_map.mp he
  trivial

theorem Held.writeAll {log : List Event} {batch : List Item} (h : Held log batch) :
    AllSettled (log ++ writeAll reason batch) := by
  intro tp o hp
  rcases h.settled tp o (polled_of_quiet quiet_writeAll hp) with hs | ⟨it, hit, rfl, rfl⟩
  · exact hs.mono (List.subset_append_left _ _)
  · exact Or.inl (Or.inr ⟨_, _, List.mem_append_right _ (List.mem_map.mpr ⟨it, hit, rfl⟩)⟩)

theorem tryCommit_log (outcome : Except Exc Unit) (offsets : List (TopicPartition × ℕ))
    (s : SinkState) : (tryCommit outcome offsets s).log = s.log ∨
      (tryCommit outcome offsets s).log = s.log ++ [.committed offsets] := by
  cases outcome with
  | ok _ => exact Or.inr rfl
  | error _ => exact Or.inl rfl

theorem tryCommit_highestObserved (outcome : Except Exc Unit) (offsets : List (TopicPartition × ℕ))
    (s : SinkState) : (tryCommit outcome offsets s).highestObserved = s.highestObserved := by
  cases outcome <;> rfl

theorem tryCommit_batch (outcome : Except Exc Unit) (offsets : List (TopicPartition × ℕ))
    (s : SinkState) : (tryCommit outcome offsets s).batch = s.batch := by
  cases outcome <;> rfl

/-- What a commit needs is left after it, whether it succeeds or not. -/
theorem tryCommit_steady (outcome : Except Exc Unit) {offsets : List (TopicPartition × ℕ)}
    (h : Consistent s.log s.highestObserved) (hall : AllSettled s.log)
    (hc : Consistent (s.log ++ [.committed offsets]) s.highestObserved) :
    Consistent (tryCommit outcome offsets s).log s.highestObserved ∧
      AllSettled (tryCommit outcome offsets s).log := by
  rcases tryCommit_log outcome offsets s with hlog | hlog
  · exact hlog ▸ ⟨h, hall⟩
  · exact hlog ▸ ⟨hc, hall.commit⟩

theorem written_steady (outcome : Except Exc Unit) (h : Steady s) (reason : String) :
    let t := s.emit (writeAll reason s.batch)
    Consistent (tryCommit outcome (maxOffsets s.batch).entries t).log s.highestObserved ∧
      AllSettled (tryCommit outcome (maxOffsets s.batch).entries t).log := by
  have hc : Consistent (s.emit (writeAll reason s.batch)).log s.highestObserved :=
    h.1.quiet quiet_writeAll
  have hall : AllSettled (s.emit (writeAll reason s.batch)).log := h.2.writeAll
  have hheld : Held (s.emit (writeAll reason s.batch)).log s.batch := h.2.quiet quiet_writeAll
  exact tryCommit_steady outcome hc hall
    (hc.commit_batch hheld hall fun tp c hmem => maxOffsets_mem hmem)

theorem clearBatch_steady {later : ℚ} (h : Consistent s.log s.highestObserved)
    (hall : AllSettled s.log) : Steady (clearBatch later s) := ⟨h, hall.held⟩

theorem evacuate_steady (h : Steady s) : Steady (evacuate env reason s) := by
  obtain ⟨hc, hall⟩ := written_steady env.evacuationCommit h reason
  refine clearBatch_steady ?_ hall
  rw [tryCommit_highestObserved]
  exact hc

theorem warned_steady (h : Steady s) : Steady { s.emit [.retained s.batch] with
    consecutiveCommitFailures := s.consecutiveCommitFailures + 1 } := by
  have hquiet : ∀ e ∈ [Event.retained s.batch], Quiet e := by
    intro e he
    rw [List.mem_singleton.mp he]
    trivial
  exact ⟨h.1.quiet hquiet, h.2.quiet hquiet⟩

theorem retain_steady (h : Steady s) : Steady (retain env reason s) := by
  unfold retain
  dsimp only
  split
  · exact evacuate_steady (warned_steady h)
  · exact warned_steady h

theorem panicStage_steady (h : Steady s) : Steady (panicStage env s) := by
  unfold panicStage
  split
  · obtain ⟨hc, hall⟩ := written_steady env.panicCommit h "BatchPanicThresholdExceeded"
    refine clearBatch_steady ?_ hall
    dsimp only
    rw [tryCommit_highestObserved]
    exact hc
  · exact h

theorem staleStage_steady (h : Steady s) : Steady (staleStage env s) := by
  unfold staleStage
  split
  · rename_i hstale
    rw [Bool.and_eq_true, List.isEmpty_iff] at hstale
    have hall : AllSettled s.log := Held.allSettled (hstale.1 ▸ h.2)
    obtain ⟨hc, hall⟩ := tryCommit_steady env.staleCommit h.1 hall
      (h.1.commit_highest hall fun e he => (List.mem_filter.mp he).1)
    refine ⟨?_, ?_⟩
    · rw [tryCommit_highestObserved]
      exact hc
    · rw [tryCommit_batch, hstale.1]
      exact hall.held
  · exact h

end LettingGo

/-! ## Flushing -/

section Flushing

variable {rt : Runtime} {ingest : IngestFn} {log : List Event} {batch : List Item}

theorem quiet_processBatch (rt : Runtime) (ingest : IngestFn) (batch : List Item) :
    ∀ e ∈ .attempted batch :: (processBatch rt ingest batch).2, Quiet e := by
  intro e he
  rcases List.mem_cons.mp he with rfl | he
  · trivial
  · rcases mem_processBatch he with ⟨_, _, _, _, rfl⟩ | ⟨_, _, rfl⟩ <;> trivial

theorem processBatch_offsets {offsets : Offsets} {tp : TopicPartition} {c : ℕ}
    (h : (processBatch rt ingest batch).1 = .ok offsets) (hc : (tp, c) ∈ offsets.entries) :
    ∃ it ∈ batch, it.tp = tp ∧ it.offset + 1 = c := by
  rcases processBatch_cases rt ingest batch with ⟨_, hr⟩ | hr | ⟨failed, hr⟩
  · rw [hr] at h
    cases h
  · rw [hr] at h
    cases h
    cases hc
  · rw [hr] at h
    cases h
    exact finalOffsets_mem (Dict.get?_eq_some.mpr hc)

/-- Offsets come back only when every item of the batch has been settled. -/
theorem Held.processBatch {offsets : Offsets} (h : Held log batch)
    (hr : (processBatch rt ingest batch).1 = .ok offsets) (hne : offsets.entries ≠ []) :
    AllSettled (log ++ .attempted batch :: (processBatch rt ingest batch).2) := by
  intro tp o hp
  rcases h.settled tp o (polled_of_quiet (quiet_processBatch rt ingest batch) hp) with
    hs | ⟨it, hit, rfl, rfl⟩
  · exact hs.mono (List.subset_append_left _ _)
  rcases processBatch_cases rt ingest batch with ⟨_, hcase⟩ | hcase | ⟨failed, hcase⟩
  · rw [hcase] at hr
    cases hr
  · rw [hcase] at hr
    cases hr
    exact absurd rfl hne
  · rw [hcase]
    obtain ⟨pre, post, hb⟩ := List.append_of_mem hit
    have hsub : rejections rt batch ++ (sent rt batch).map (fate failed) ⊆
        log ++ .attempted batch :: (rejections rt batch ++ (sent rt batch).map (fate failed)) :=
      fun e he => List.mem_append_right _ (List.mem_cons_of_mem _ he)
    rcases handled_or_superseded failed hb with hh | ⟨it', hit', hid, hh⟩
    · exact Or.inl (hh.mono hsub)
    · refine Or.inr (Or.inl ⟨pre, it, post, ?_, rfl, rfl, it', hit', hid, hh.mono hsub⟩)
      rw [← hb]
      exact List.mem_append_right _ List.mem_cons_self

theorem attempted_steady (rt : Runtime) {s : SinkState} (h : Steady s) (ingest : IngestFn) :
    Steady (s.emit (.attempted s.batch :: (processBatch rt ingest s.batch).2)) :=
  ⟨h.1.quiet (quiet_processBatch rt ingest s.batch), h.2.quiet (quiet_processBatch rt ingest s.batch)⟩

/-- A sink that has stopped need not hold its batch any more. -/
def Invariant (s : SinkState) : Prop :=
  Consistent s.log s.highestObserved ∧ (s.running = true → Held s.log s.batch)

theorem Steady.invariant {s : SinkState} (h : Steady s) : Invariant s := ⟨h.1, fun _ => h.2⟩

theorem Invariant.steady {s : SinkState} (h : Invariant s) (hrun : s.running = true) : Steady s :=
  ⟨h.1, h.2 hrun⟩

theorem flushStage_invariant (rt : Runtime) (env : CycleEnv) {s : SinkState} (h : Steady s) :
    Invariant (flushStage rt env s) := by
  unfold flushStage
  split
  · exact h.invariant
  have hsteady := attempted_steady rt h (ingestViaApi env.endpoint)
  dsimp only
  split
  · exact ⟨hsteady.1, nofun⟩
  · rename_i offsets hr
    split
    · exact (retain_steady hsteady).invariant
    · rename_i hne
      rw [List.isEmpty_iff] at hne
      split
      · have hall := Held.processBatch h.2 hr hne
        have hc := hsteady.1.commit_batch hsteady.2 hall fun tp c hmem => processBatch_offsets hr hmem
        obtain ⟨hc, hall⟩ := tryCommit_steady (.ok ()) hsteady.1 hall hc
        exact (clearBatch_steady hc hall).invariant
      · exact (retain_steady hsteady).invariant

theorem cycle_invariant {env : CycleEnv} {s : SinkState} (h : Steady s)
    (hinc : AtEach Increasing (pollStage rt env s).log) : Invariant (cycle rt env s) := by
  have hflush := flushStage_invariant rt env (pollStage_steady h hinc)
  unfold cycle
  dsimp only
  split
  · rename_i hrun
    exact (panicStage_steady (staleStage_steady (hflush.steady hrun))).invariant
  · exact hflush

theorem shutdown_invariant {endpoint : IngestFn} {commit : Except Exc Unit} {s : SinkState}
    (h : Steady s) : Invariant (shutdown rt endpoint commit s) := by
  unfold shutdown
  split
  · exact ⟨h.1, nofun⟩
  obtain ⟨hc, hheld⟩ := attempted_steady rt h (ingestViaApi endpoint)
  dsimp only
  split
  · rename_i offsets hr
    split
    · exact ⟨hc, nofun⟩
    · rename_i hne
      rw [List.isEmpty_iff] at hne
      have hall := Held.processBatch h.2 hr hne
      have hcommit := hc.commit_batch hheld hall
        fun tp c hmem => processBatch_offsets hr hmem
      cases commit with
      | ok _ => exact ⟨hcommit, nofun⟩
      | error _ => exact ⟨hc, nofun⟩
  · exact ⟨hc, nofun⟩

end Flushing

/-! ## Runs -/

section Runs

variable {rt : Runtime} {s : SinkState}

theorem emit_log (s : SinkState) (events : List Event) : s.log <+: (s.emit events).log :=
  List.prefix_append _ _

theorem tryCommit_extends (outcome : Except Exc Unit) (offsets : List (TopicPartition × ℕ))
    (s : SinkState) : s.log <+: (tryCommit outcome offsets s).log := by
  cases outcome with
  | ok _ => exact List.prefix_append _ _
  | error _ => exact List.prefix_refl _

theorem evacuate_log (env : CycleEnv) (reason : String) (s : SinkState) :
    s.log <+: (evacuate env reason s).log :=
  (emit_log _ _).trans (tryCommit_extends _ _ _)

theorem retain_log (env : CycleEnv) (reason : String) (s : SinkState) :
    s.log <+: (retain env reason s).log := by
  unfold retain
  dsimp only
  split
  · exact (emit_log _ _).trans (evacuate_log env reason { s.emit [.retained s.batch] with
      consecutiveCommitFailures := s.consecutiveCommitFailures + 1 })
  · exact emit_log _ _

theorem flushStage_log (rt : Runtime) (env : CycleEnv) (s : SinkState) :
    s.log <+: (flushStage rt env s).log := by
  unfold flushStage
  split
  · exact List.prefix_refl _
  · have hemit := emit_log s (.attempted s.batch ::
      (processBatch rt (ingestViaApi env.endpoint) s.batch).2)
    dsimp only
    split
    · exact hemit
    · split
      · exact hemit.trans (retain_log env _ _)
      · split
        · exact hemit.trans (tryCommit_extends (.ok ()) _ _)
        · exact hemit.trans (retain_log env _ _)

theorem staleStage_log (env : CycleEnv) (s : SinkState) : s.log <+: (staleStage env s).log := by
  unfold staleStage
  split
  · exact tryCommit_extends _ _ _
  · exact List.prefix_refl _

theorem panicStage_log (env : CycleEnv) (s : SinkState) : s.log <+: (panicStage env s).log := by
  unfold panicStage
  split
  · exact (emit_log _ _).trans (tryCommit_extends _ _ _)
  · exact List.prefix_refl _

theorem cycle_log (rt : Runtime) (env : CycleEnv) (s : SinkState) :
    (pollStage rt env s).log <+: (cycle rt env s).log := by
  unfold cycle
  dsimp only
  split
  · exact ((flushStage_log rt env _).trans (staleStage_log env _)).trans (panicStage_log env _)
  · exact flushStage_log rt env _

theorem shutdown_log (rt : Runtime) (endpoint : IngestFn) (commit : Except Exc Unit) (s : SinkState) :
    s.log <+: (shutdown rt endpoint commit s).log := by
  unfold shutdown
  split
  · exact List.prefix_refl _
  · have hemit := emit_log s (.attempted s.batch :: (processBatch rt (ingestViaApi endpoint) s.batch).2)
    dsimp only
    split
    · split
      · exact hemit
      · cases commit with
        | ok _ => exact hemit.trans (List.prefix_append _ _)
        | error _ => exact hemit
    · exact hemit

theorem step_log (rt : Runtime) (s : SinkState) (i : Input) : s.log <+: (step rt s i).log := by
  unfold step
  split
  · exact List.prefix_refl _
  · cases i with
    | cycle env => exact (pollStage_log rt env s).trans (cycle_log rt env s)
    | shutdown endpoint commit => exact shutdown_log rt endpoint commit s

theorem step_invariant {i : Input} (h : Invariant s) (hinc : AtEach Increasing (step rt s i).log) :
    Invariant (step rt s i) := by
  unfold step at hinc ⊢
  split
  · exact h
  · rename_i hrun
    rw [if_neg hrun] at hinc
    have hsteady := h.steady (by simpa using hrun)
    cases i with
    | cycle env => exact cycle_invariant hsteady (hinc.of_prefix (cycle_log rt env s))
    | shutdown endpoint commit => exact shutdown_invariant hsteady

theorem run_log (rt : Runtime) (inputs : List Input) (s : SinkState) :
    s.log <+: (inputs.foldl (step rt) s).log := by
  induction inputs generalizing s with
  | nil => exact List.prefix_refl _
  | cons i inputs ih => exact (step_log rt s i).trans (ih (step rt s i))

theorem run_invariant (inputs : List Input) {s : SinkState} (h : Invariant s)
    (hinc : AtEach Increasing (inputs.foldl (step rt) s).log) :
    Invariant (inputs.foldl (step rt) s) := by
  induction inputs generalizing s with
  | nil => exact h
  | cons i inputs ih =>
      exact ih (step_invariant h (hinc.of_prefix (run_log rt inputs (step rt s i)))) hinc

theorem start_invariant (now : ℚ) : Invariant (SinkState.start now) := by
  constructor
  · exact ⟨nofun, nofun, nofun, atEach_nil, atEach_nil⟩
  · exact fun _ => ⟨nofun, nofun, nofun⟩

end Runs

end NeuralSoc.Sink
