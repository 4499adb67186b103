import NeuralSoc.Delivery.Lemmas.Kept

/-!
# The stages of a pass

Each stage keeps what a running sink keeps: a poll moves the position and fills the batch, a flush either keeps the
batch or lets it go when its messages are settled, and a stale commit is made over an empty batch.
-/

namespace NeuralSoc.Delivery

open Sink

variable {db : Tenants.Database} {site : Site} {k : String} {tp : TopicPartition} {topic : Topic}
  {Good : ℕ → Option Tenants.Alert → Prop} {position : ℕ} {past : List Event} {shown shown' : Option Tenants.Alert}
  {s s' : SinkState} {env : CycleEnv} {reason : String}

/-! ## Polling -/

theorem collect_silent (rt : Runtime) (s : SinkState) (m : Message) :
    ∃ xs, (collect rt s m).log = s.log ++ xs ∧ ∀ e ∈ xs, ∀ offsets, e ≠ .committed offsets := by
  unfold collect
  cases readMessage rt m with
  | some data => exact ⟨[.polled m.tp m.offset], rfl, by simp⟩
  | none => exact ⟨[.polled m.tp m.offset, .discarded m.tp m.offset], by simp [SinkState.emit], by simp⟩

theorem collect_highestObserved (rt : Runtime) (s : SinkState) (m : Message) :
    (collect rt s m).highestObserved = raiseOffset s.highestObserved m.tp m.offset := by
  unfold collect
  cases readMessage rt m <;> rfl

theorem collect_batch (rt : Runtime) (s : SinkState) (m : Message) :
    (collect rt s m).batch =
      s.batch ++ ((readMessage rt m).map fun data => (⟨data, m.tp, m.offset⟩ : Item)).toList := by
  unfold collect
  cases readMessage rt m with
  | some data => rfl
  | none => exact (List.append_nil _).symm

theorem mem_collected {rt : Runtime} {m : Message} {it : Item}
    (h : it ∈ ((readMessage rt m).map fun data => (⟨data, m.tp, m.offset⟩ : Item)).toList) :
    it.tp = m.tp ∧ it.offset = m.offset ∧ readMessage rt m = some it.data := by
  obtain ⟨data, hdata, rfl⟩ := Option.map_eq_some_iff.mp (Option.mem_toList.mp h)
  exact ⟨rfl, rfl, hdata⟩

theorem collect_observed {rt : Runtime} {m : Message}
    (h : ∀ o, s.highestObserved.get? tp = some o → o ≤ position) (hposition : m.tp = tp → m.offset = position) :
    ∀ o, (collect rt s m).highestObserved.get? tp = some o → o ≤ if m.tp = tp then position + 1 else position := by
  intro o ho
  rw [collect_highestObserved, get?_raiseOffset] at ho
  by_cases htp : m.tp = tp
  · rw [if_pos htp.symm] at ho
    rw [if_pos htp]
    cases ho
    rw [htp, hposition htp]
    apply max_le
    · cases hold : s.highestObserved.get? tp with
      | none => exact Nat.zero_le _
      | some o => exact (h o hold).trans (Nat.le_succ _)
    · exact Nat.le_refl _
  · rw [if_neg (Ne.symm htp)] at ho
    rw [if_neg htp]
    exact h o ho

theorem collect_kept {m : Message} (h : Kept site k tp topic Good position s past shown)
    (hread : readMessage site.runtime m = dataAt site.runtime topic m.tp m.offset)
    (hposition : m.tp = tp → m.offset = position) :
    Kept site k tp topic Good (if m.tp = tp then position + 1 else position) (collect site.runtime s m) past shown := by
  obtain ⟨xs, hlog, hxs⟩ := collect_silent site.runtime s m
  apply h.poll (collect_batch site.runtime s m) hlog hxs (collect_observed h.observed hposition)
  · split
    · exact Nat.le_succ _
    · exact Nat.le_refl _
  · intro it hit
    obtain ⟨htp, hoffset, hdata⟩ := mem_collected hit
    rw [htp, hoffset, ← hread, hdata]
  · cases readMessage site.runtime m with
    | none => exact List.Pairwise.nil
    | some data => exact List.pairwise_singleton _ _
  · intro it hit htp
    obtain ⟨hmtp, hoffset, -⟩ := mem_collected hit
    have hm : m.tp = tp := hmtp.symm.trans htp
    rw [hoffset, hposition hm, if_pos hm]
    exact ⟨Nat.le_refl _, Nat.lt_succ_self _⟩
  · intro i hle hlt hnames
    split at hlt
    · rename_i hm
      have hi : i = m.offset := by
        rw [hposition hm]
        omega
      obtain ⟨data, hdata, -⟩ := hnames
      rw [hi, ← hm, ← hread] at hdata
      refine ⟨⟨data, m.tp, m.offset⟩, ?_, hm, hi.symm⟩
      rw [hdata]
      exact List.mem_singleton.mpr rfl
    · omega

/-- The records of the topic at this time are among those at the end of the run. -/
theorem dataAt_of_grows {now : Topic} (hgrows : ∀ q, now q <+: topic q) {q : TopicPartition} {i : ℕ}
    {record : Record} (h : (now q)[i]? = some record) :
    dataAt site.runtime topic q i = readMessage site.runtime (record.message q i) := by
  obtain ⟨rest, hrest⟩ := hgrows q
  have hi : (topic q)[i]? = some record := by
    rw [← hrest, List.getElem?_append_left (List.getElem?_eq_some_iff.mp h).1, h]
  rw [dataAt, hi]
  rfl

theorem fetch_kept {now : Topic} (hgrows : ∀ q, now q <+: topic q) (plan : List TopicPartition) {positions : Positions}
    {s : SinkState} (h : Kept site k tp topic Good (positions tp) s past shown) :
    Kept site k tp topic Good ((fetch now positions plan).2 tp)
      ((fetch now positions plan).1.foldl (collect site.runtime) s) past shown := by
  induction plan generalizing positions s with
  | nil => exact h
  | cons q plan ih =>
      rw [fetch]
      cases hrecord : (now q)[positions q]? with
      | none => exact ih h
      | some record =>
          apply ih
          have hcollect := collect_kept (m := record.message q (positions q)) h
            (dataAt_of_grows hgrows hrecord).symm fun hq => congrArg positions hq
          by_cases hq : q = tp
          · rw [hq, Function.update_self]
            rw [hq] at hcollect
            exact (if_pos rfl : (if tp = tp then positions tp + 1 else positions tp) = _) ▸ hcollect
          · rw [Function.update_of_ne (Ne.symm hq)]
            exact (if_neg hq : (if q = tp then positions tp + 1 else positions tp) = _) ▸ hcollect

/-! ## Letting a batch go -/

theorem tryCommit_committed_le (outcome : Except Exc Unit) {offsets : List (TopicPartition × ℕ)} {b : ℕ}
    (h : committedPosition (past ++ s.log) tp ≤ b) (hle : ∀ c, (tp, c) ∈ offsets → c ≤ b) :
    committedPosition (past ++ (tryCommit outcome offsets s).log) tp ≤ b := by
  cases tryCommit_log outcome offsets s with
  | inl hlog => rwa [hlog]
  | inr hlog =>
      rw [hlog, ← List.append_assoc]
      exact committedPosition_commit_le h hle

theorem silent_writeAll (reason : String) (batch : List Item) :
    ∀ e ∈ writeAll reason batch, ∀ offsets, e ≠ .committed offsets := by
  intro e he offsets
  obtain ⟨it, -, rfl⟩ := List.mem_map.mp he
  nofun

/-- The whole batch is written to the dead-letter file, and nothing or its offsets are committed. -/
theorem written_kept (h : Kept site k tp topic Good position s past shown) (outcome : Except Exc Unit)
    (hbatch : s'.batch = []) (hobserved : s'.highestObserved = s.highestObserved)
    (hlog : s'.log =
      (tryCommit outcome (maxOffsets s.batch).entries (s.emit (writeAll reason s.batch))).log) :
    Kept site k tp topic Good position s' past shown := by
  have hwritten : s.log ++ writeAll reason s.batch <+: s'.log :=
    hlog ▸ tryCommit_extends outcome _ (s.emit (writeAll reason s.batch))
  apply h.clear hbatch ((List.prefix_append _ _).trans hwritten) hobserved
  · intro it hit htp hnames
    refine .inl ⟨it.offset, Nat.le_refl _, hnames, it.data, reason, ?_⟩
    rw [← htp]
    exact List.mem_append_right _ (hwritten.subset (List.mem_append_right _ (List.mem_map.mpr ⟨it, hit, rfl⟩)))
  · rw [hlog]
    apply tryCommit_committed_le
    · change committedPosition (past ++ (s.log ++ writeAll reason s.batch)) tp ≤ position
      rw [← List.append_assoc, committedPosition_of_silent (silent_writeAll reason s.batch)]
      exact h.committed_le
    · intro c hc
      obtain ⟨it, hit, htp, rfl⟩ := maxOffsets_mem hc
      obtain ⟨floor, hfloor⟩ := h.floor
      exact (hfloor.ahead it hit htp).2

theorem evacuate_kept (h : Kept site k tp topic Good position s past shown) :
    Kept site k tp topic Good position (evacuate env reason s) past shown :=
  written_kept h env.evacuationCommit rfl (tryCommit_highestObserved _ _ _) rfl

theorem panicStage_kept (h : Kept site k tp topic Good position s past shown) :
    Kept site k tp topic Good position (panicStage env s) past shown := by
  unfold panicStage
  split
  · exact written_kept h env.panicCommit rfl (tryCommit_highestObserved _ _ _) rfl
  · exact h

theorem retain_kept (h : Kept site k tp topic Good position s past shown) :
    Kept site k tp topic Good position (retain env reason s) past shown := by
  have hwarned : Kept site k tp topic Good position { s.emit [.retained s.batch] with
      consecutiveCommitFailures := s.consecutiveCommitFailures + 1 } past shown :=
    h.extend rfl rfl rfl (by simp) fun _ hgood => .inl hgood
  unfold retain
  dsimp only
  split
  · exact evacuate_kept hwarned
  · exact hwarned

/-- Over an empty batch every message below the position is settled. -/
theorem staleStage_kept (h : Kept site k tp topic Good position s past shown) :
    Kept site k tp topic Good position (staleStage env s) past shown := by
  unfold staleStage
  split
  · rename_i hstale
    rw [Bool.and_eq_true, List.isEmpty_iff] at hstale
    apply h.clear
    · rw [tryCommit_batch, hstale.1]
    · exact tryCommit_extends _ _ _
    · exact tryCommit_highestObserved _ _ _
    · simp [hstale.1]
    · apply tryCommit_committed_le _ h.committed_le
      intro c hc
      exact h.observed c (Dict.get?_eq_some.mpr (List.mem_filter.mp hc).1)
  · exact h

/-! ## Flushing -/

theorem silent_processBatch (rt : Runtime) (ingest : IngestFn) (batch : List Item) :
    ∀ e ∈ .attempted batch :: (processBatch rt ingest batch).2, ∀ offsets, e ≠ .committed offsets := by
  intro e he offsets heq
  have hquiet := quiet_processBatch rt ingest batch e he
  rw [heq] at hquiet
  exact hquiet

section Flushing

variable (hsingle : ∀ q i, Names site.runtime topic q k i → q = tp)
  (hwrite : ∀ i j a, i ≤ j → messageRow db site topic tp j = some a → Good i (some a))

include hsingle hwrite

theorem attempted_kept (p : Pipeline db) (outcome : Outcome) (s' : SinkState) {xs : List Event}
    (h : Kept site k tp topic Good position s past (p.table.view site.tenantId k))
    (hbatch : s'.batch = s.batch) (hlog : s'.log = s.log ++ xs)
    (hobserved : s'.highestObserved = s.highestObserved) (hxs : ∀ e ∈ xs, ∀ offsets, e ≠ .committed offsets) :
    Kept site k tp topic Good position s' past
      ((p.attempt site outcome s.batch).table.view site.tenantId k) := by
  apply h.extend hbatch hlog hobserved hxs
  intro i hgood
  cases attempt_view p outcome s.batch k with
  | inl hsame => exact .inl (hsame ▸ hgood)
  | inr hrow =>
      obtain ⟨it, hit, hid, a, ha, hview⟩ := hrow
      obtain ⟨htp, -⟩ := h.names hsingle hit hid
      refine .inr ⟨it, hit, htp, fun hle => ?_⟩
      rw [hview]
      exact hwrite i it.offset a hle ((h.row hit htp).trans ha)

/-- When the offsets come back every message of the batch is settled. -/
theorem Kept.done (p : Pipeline db) (outcome : Outcome)
    (h : Kept site k tp topic Good position s past (p.table.view site.tenantId k)) {offsets : Offsets}
    (hr : (processBatch site.runtime (ingestViaApi fun body => (post site outcome body p.table).1) s.batch).1 =
      .ok offsets)
    (hne : offsets.entries ≠ []) {log : List Event}
    (hsub : (processBatch site.runtime (ingestViaApi fun body => (post site outcome body p.table).1) s.batch).2 ⊆ log)
    {it : Item} (hit : it ∈ s.batch) (htp : it.tp = tp) (hnames : Names site.runtime topic tp k it.offset) :
    Settled site k tp topic Good log ((p.attempt site outcome s.batch).table.view site.tenantId k) it.offset := by
  obtain ⟨pre, post', hb⟩ := List.append_of_mem hit
  obtain ⟨it', hit', hid', hsettled⟩ := attempt_settled p outcome hr hne hb (h.named hit htp hnames)
  have hmem : it' ∈ s.batch := by
    rw [hb]
    cases hit' with
    | inl heq => simp [heq]
    | inr hpost => simp [hpost]
  obtain ⟨htp', hnames'⟩ := h.names hsingle hmem hid'
  have hle := h.offset_le hb hit' htp htp'
  cases hsettled with
  | inl hdead =>
      obtain ⟨alert, error, hdead⟩ := hdead
      exact .inl ⟨it'.offset, hle, hnames', alert, error, htp' ▸ hsub hdead⟩
  | inr hrow =>
      obtain ⟨a, ha, hview⟩ := hrow
      rw [hview]
      exact .inr (hwrite _ _ a hle ((h.row hmem htp').trans ha))

theorem flushStage_kept (env : CycleEnv) (p : Pipeline db) (outcome : Outcome)
    (hendpoint : env.endpoint = fun body => (post site outcome body p.table).1)
    (h : Kept site k tp topic Good position s past (p.table.view site.tenantId k)) :
    Kept site k tp topic Good position (flushStage site.runtime env s) past
      ((if flushDue env s then p.attempt site outcome s.batch else p).table.view site.tenantId k) := by
  unfold flushStage
  cases hdue : flushDue env s with
  | false => exact h
  | true =>
      rw [if_neg (by simp), if_pos rfl, hendpoint]
      have hatt := attempted_kept hsingle hwrite p outcome (s.emit (.attempted s.batch ::
        (processBatch site.runtime (ingestViaApi fun body => (post site outcome body p.table).1) s.batch).2))
        h rfl rfl rfl (silent_processBatch site.runtime _ s.batch)
      dsimp only
      split
      · exact ⟨hatt.floor, hatt.sourced, hatt.ordered, hatt.observed⟩
      · rename_i offsets hr
        split
        · exact retain_kept hatt
        · rename_i hne
          rw [List.isEmpty_iff] at hne
          split
          · apply hatt.clear
            · rfl
            · exact List.prefix_append _ _
            · rfl
            · intro it hit htp hnames
              apply h.done hsingle hwrite p outcome hr hne _ hit htp hnames
              intro e he
              simp [clearBatch, tryCommit, SinkState.emit, he]
            · apply tryCommit_committed_le (.ok ()) hatt.committed_le
              intro c hc
              obtain ⟨it, hit, htp, rfl⟩ := processBatch_offsets hr hc
              obtain ⟨floor, hfloor⟩ := h.floor
              exact (hfloor.ahead it hit htp).2
          · exact retain_kept hatt

/-- The last batch goes out, and its offsets may be committed while the sink still holds it. -/
theorem shutdown_sound (p : Pipeline db) (outcome : Outcome) (commit : Except Exc Unit)
    (h : Kept site k tp topic Good position s past (p.table.view site.tenantId k)) :
    Sound site k tp topic Good position
      (shutdown site.runtime (fun body => (post site outcome body p.table).1) commit s) past
      ((if s.batch.isEmpty then p else p.attempt site outcome s.batch).table.view site.tenantId k) := by
  unfold shutdown
  cases hempty : s.batch.isEmpty with
  | true => exact ⟨h.sound.resumable, h.sound.unheld⟩
  | false =>
      rw [if_neg Bool.false_ne_true, if_neg Bool.false_ne_true]
      have hatt := attempted_kept hsingle hwrite p outcome (s.emit (.attempted s.batch ::
        (processBatch site.runtime (ingestViaApi fun body => (post site outcome body p.table).1) s.batch).2))
        h rfl rfl rfl (silent_processBatch site.runtime _ s.batch)
      have hstopped := hatt.sound
      dsimp only
      split
      · rename_i offsets hr
        split
        · exact ⟨hstopped.resumable, hstopped.unheld⟩
        · rename_i hne
          rw [List.isEmpty_iff] at hne
          cases commit with
          | error _ => exact ⟨hstopped.resumable, hstopped.unheld⟩
          | ok _ =>
              apply hstopped.commit (List.prefix_append _ _)
              · intro it hit htp hnames
                apply h.done hsingle hwrite p outcome hr hne _ hit htp hnames
                intro e he
                simp [tryCommit, SinkState.emit, he]
              · apply tryCommit_committed_le (.ok ()) hatt.committed_le
                intro c hc
                obtain ⟨it, hit, htp, rfl⟩ := processBatch_offsets hr hc
                obtain ⟨floor, hfloor⟩ := h.floor
                exact (hfloor.ahead it hit htp).2
      · exact ⟨hstopped.resumable, hstopped.unheld⟩

end Flushing

theorem cycle_kept (h : Kept site k tp topic Good position
      (flushStage site.runtime env (pollStage site.runtime env s)) past shown) :
    Kept site k tp topic Good position (cycle site.runtime env s) past shown := by
  unfold cycle
  dsimp only
  split
  · exact panicStage_kept (staleStage_kept h)
  · exact h

end NeuralSoc.Delivery
