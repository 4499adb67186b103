import NeuralSoc.Sink.Batch

/-!
# What process_batch does to each message of its batch

Every item is invalid and dead-lettered, or valid; of the valid ones with one alert id the last one is
sent. `processBatch_cases` lists the three ways a call ends.
-/

namespace NeuralSoc.Sink

variable {rt : Runtime} {batch : List Item} {it : Item}

/-! ## Offsets -/

section RaiseOffset

variable {α : Type*} (tp : α → TopicPartition) (offset : α → ℕ)

theorem get?_raiseOffset (m : Offsets) (p q : TopicPartition) (o : ℕ) :
    (raiseOffset m p o).get? q =
      if q = p then some (max ((m.get? p).getD 0) (o + 1)) else m.get? q :=
  Dict.get?_set _ _ _ _

/-- A watermark is the one of before or lies just behind one of the offsets. -/
theorem get?_foldl_raiseOffset {xs : List α} {m : Offsets} {p : TopicPartition} {o : ℕ}
    (h : (xs.foldl (fun m x => raiseOffset m (tp x) (offset x)) m).get? p = some o) :
    m.get? p = some o ∨ ∃ x ∈ xs, tp x = p ∧ offset x + 1 = o := by
  induction xs generalizing m with
  | nil => exact Or.inl h
  | cons x xs ih =>
      rcases ih h with h | ⟨y, hy, hyp⟩
      · rw [get?_raiseOffset] at h
        split at h
        · rename_i hp
          rcases le_total ((m.get? (tp x)).getD 0) (offset x + 1) with hle | hle
          · rw [max_eq_right hle] at h
            exact Or.inr ⟨x, List.mem_cons_self, hp.symm, Option.some.inj h⟩
          · rw [max_eq_left hle] at h
            cases hm : m.get? (tp x) with
            | none => simp [hm] at hle
            | some n =>
                rw [hm, Option.getD_some] at h
                exact Or.inl (by rw [hp, hm, h])
        · exact Or.inl h
      · exact Or.inr ⟨y, List.mem_cons_of_mem _ hy, hyp⟩

/-- No watermark is lost or lowered, and every offset is behind its own. -/
theorem le_foldl_raiseOffset (xs : List α) (m : Offsets) :
    (∀ p o, m.get? p = some o → ∃ o', (xs.foldl (fun m x => raiseOffset m (tp x) (offset x)) m).get? p =
        some o' ∧ o ≤ o') ∧
      ∀ x ∈ xs, ∃ o', (xs.foldl (fun m x => raiseOffset m (tp x) (offset x)) m).get? (tp x) =
        some o' ∧ offset x < o' := by
  induction xs generalizing m with
  | nil => exact ⟨fun p o h => ⟨o, h, Nat.le_refl _⟩, nofun⟩
  | cons x xs ih =>
      obtain ⟨ih1, ih2⟩ := ih (raiseOffset m (tp x) (offset x))
      have hx := get?_raiseOffset m (tp x) (tp x) (offset x)
      rw [if_pos rfl] at hx
      constructor
      · intro p o h
        by_cases hp : p = tp x
        · subst hp
          rw [h, Option.getD_some] at hx
          obtain ⟨o', ho', hle⟩ := ih1 _ _ hx
          exact ⟨o', ho', Nat.le_trans (Nat.le_max_left _ _) hle⟩
        · refine ih1 p o ?_
          rw [get?_raiseOffset, if_neg hp, h]
      · intro y hy
        rcases List.mem_cons.mp hy with rfl | hy
        · obtain ⟨o', ho', hle⟩ := ih1 _ _ hx
          exact ⟨o', ho', Nat.lt_of_lt_of_le (Nat.lt_succ_self _)
            (Nat.le_trans (Nat.le_max_right _ _) hle)⟩
        · exact ih2 y hy

end RaiseOffset

/-! ## Validation -/

def entryOf (rt : Runtime) (it : Item) : Option Entry :=
  (validatePayload rt (serializeEvidence rt it.data)).map fun alert => ⟨alert, it.tp, it.offset⟩

def rejection (rt : Runtime) (it : Item) : Event :=
  .dlq it.tp it.offset (serializeEvidence rt it.data)
    (rt.validationText (serializeEvidence rt it.data))

def invalid (rt : Runtime) (it : Item) : Bool := (entryOf rt it).isNone

theorem checkItem_valid {e : Entry} (h : entryOf rt it = some e) (p : Progress) :
    checkItem rt p it = { p with validItems := p.validItems ++ [e] } := by
  obtain ⟨alert, ha, rfl⟩ := Option.map_eq_some_iff.mp h
  simp only [checkItem, ha]

theorem checkItem_invalid (h : entryOf rt it = none) (p : Progress) :
    checkItem rt p it =
      { p with
        offsetsMap := raiseOffset p.offsetsMap it.tp it.offset
        events := p.events ++ [rejection rt it] } := by
  have ha := Option.map_eq_none_iff.mp h
  simp only [checkItem, ha, rejection]

theorem foldl_checkItem (batch : List Item) (p : Progress) :
    batch.foldl (checkItem rt) p =
      { validItems := p.validItems ++ batch.filterMap (entryOf rt)
        offsetsMap := (batch.filter (invalid rt)).foldl (fun m it => raiseOffset m it.tp it.offset)
          p.offsetsMap
        events := p.events ++ (batch.filter (invalid rt)).map (rejection rt) } := by
  induction batch generalizing p with
  | nil => simp
  | cons it batch ih =>
      rw [List.foldl_cons, ih]
      cases h : entryOf rt it with
      | none => simp [checkItem_invalid h, invalid, h]
      | some e => simp [checkItem_valid h, invalid, h]

theorem checkItems_eq (rt : Runtime) (batch : List Item) :
    checkItems rt batch =
      { validItems := batch.filterMap (entryOf rt)
        offsetsMap := (batch.filter (invalid rt)).foldl (fun m it => raiseOffset m it.tp it.offset)
          .empty
        events := (batch.filter (invalid rt)).map (rejection rt) } := by
  rw [checkItems, foldl_checkItem]
  rfl

theorem lookup_serializeEvidence (raw : Object) {key : String} (h : key ≠ "evidence") :
    (serializeEvidence rt raw).lookup key = raw.lookup key := by
  unfold serializeEvidence
  split
  · exact Object.lookup_set_of_ne _ _ h
  · exact Object.lookup_set_of_ne _ _ h
  · rfl

theorem validatePayload_alertId {raw : Object} {alert : AlertPayload}
    (h : validatePayload rt raw = some alert) : requiredText raw "alert_id" = some alert.alertId := by
  obtain ⟨alertId, hid, h⟩ := Option.bind_eq_some_iff.mp h
  -- the sixteen fields after the first one
  iterate 16 obtain ⟨_, -, h⟩ := Option.bind_eq_some_iff.mp h
  cases h
  exact hid

theorem entryOf_eq_some {e : Entry} (h : entryOf rt it = some e) :
    e.tp = it.tp ∧ e.offset = it.offset ∧ e.alert.alertId.1 = it.data.get "alert_id" := by
  obtain ⟨alert, ha, rfl⟩ := Option.map_eq_some_iff.mp h
  refine ⟨rfl, rfl, ?_⟩
  obtain ⟨j, hj, hjt⟩ := Option.bind_eq_some_iff.mp (validatePayload_alertId ha)
  rw [lookup_serializeEvidence _ (by decide)] at hj
  unfold text? at hjt
  split at hjt
  · rw [Object.get, hj, ← Option.some.inj hjt]
    rfl
  · cases hjt

/-! ## De-duplication -/

def sameAlert (k : Json) (e : Entry) : Bool := e.alert.alertId.1 = k

theorem get?_foldl_byAid (vs : List Entry) (d : Dict Json Entry) (k : Json) :
    (vs.foldl (fun byAid e => byAid.set e.alert.alertId.1 e) d).get? k =
      (vs.filter (sameAlert k)).getLast?.or (d.get? k) := by
  induction vs generalizing d with
  | nil => rfl
  | cons v vs ih =>
      rw [List.foldl_cons, ih, Dict.get?_set]
      by_cases hk : v.alert.alertId.1 = k
      · rw [List.filter_cons_of_pos (by simpa [sameAlert] using hk), List.getLast?_cons,
          if_pos hk.symm]
        cases (vs.filter (sameAlert k)).getLast? with
        | none => rfl
        | some w => rfl
      · rw [List.filter_cons_of_neg (by simpa [sameAlert] using hk), if_neg fun h => hk h.symm]

theorem mem_dedup {vs : List Entry} {e : Entry} :
    e ∈ dedup vs ↔ ∃ k, (vs.filter (sameAlert k)).getLast? = some e := by
  rw [dedup, Dict.mem_values]
  simp only [get?_foldl_byAid, Dict.get?_empty, Option.or_none]

theorem mem_of_mem_dedup {vs : List Entry} {e : Entry} (h : e ∈ dedup vs) : e ∈ vs := by
  obtain ⟨k, hk⟩ := mem_dedup.mp h
  exact (List.mem_filter.mp (List.mem_of_getLast? hk)).1

theorem exists_mem_dedup (pre post : List Entry) (v : Entry) :
    ∃ w ∈ v :: post, w.alert.alertId = v.alert.alertId ∧ w ∈ dedup (pre ++ v :: post) := by
  have hfilter : (pre ++ v :: post).filter (sameAlert v.alert.alertId.1) =
      pre.filter (sameAlert v.alert.alertId.1) ++
        (v :: post).filter (sameAlert v.alert.alertId.1) := List.filter_append ..
  have hne : (v :: post).filter (sameAlert v.alert.alertId.1) ≠ [] := by
    rw [List.filter_cons_of_pos (by simp [sameAlert])]
    exact List.cons_ne_nil _ _
  have hlast := List.getLast?_eq_some_getLast hne
  have hw := List.mem_filter.mp (List.mem_of_getLast? hlast)
  refine ⟨_, hw.1, Subtype.ext (by simpa [sameAlert] using hw.2),
    mem_dedup.mpr ⟨v.alert.alertId.1, ?_⟩⟩
  rw [hfilter, List.getLast?_append, hlast, Option.some_or]

/-! ## The result -/

def rejections (rt : Runtime) (batch : List Item) : List Event :=
  (batch.filter (invalid rt)).map (rejection rt)

def sent (rt : Runtime) (batch : List Item) : List Entry := dedup (batch.filterMap (entryOf rt))

def finalOffsets (rt : Runtime) (batch : List Item) : Offsets :=
  (sent rt batch).foldl (fun m e => raiseOffset m e.tp e.offset)
    ((batch.filter (invalid rt)).foldl (fun m it => raiseOffset m it.tp it.offset) .empty)

theorem sent_of_isEmpty (h : (batch.filterMap (entryOf rt)).isEmpty = true) : sent rt batch = [] := by
  rw [sent, List.isEmpty_iff.mp h]
  rfl

/-- A valid item is sent, or a later valid one with its alert id is. -/
theorem exists_sent {pre post : List Item} {e : Entry} (hb : batch = pre ++ it :: post)
    (hent : entryOf rt it = some e) :
    ∃ it' e', (it' = it ∨ it' ∈ post) ∧ it'.data.get "alert_id" = it.data.get "alert_id" ∧
      entryOf rt it' = some e' ∧ e' ∈ sent rt batch := by
  obtain ⟨w, hw, hwid, hmem⟩ :=
    exists_mem_dedup (pre.filterMap (entryOf rt)) (post.filterMap (entryOf rt)) e
  have hsent : w ∈ sent rt batch := by
    rw [sent, hb, List.filterMap_append, List.filterMap_cons_some hent]
    exact hmem
  rcases List.mem_cons.mp hw with rfl | hw
  · exact ⟨it, w, Or.inl rfl, rfl, hent, hsent⟩
  · obtain ⟨it', hit', hent'⟩ := List.mem_filterMap.mp hw
    refine ⟨it', w, Or.inr hit', ?_, hent', hsent⟩
    rw [← (entryOf_eq_some hent').2.2, ← (entryOf_eq_some hent).2.2, hwid]

theorem processBatch_crash (ingest : IngestFn) {e : Exc} (h : batch.findSome? (linkFailure rt) = some e) :
    processBatch rt ingest batch = (.error e, []) := by
  unfold processBatch
  rw [h]

theorem processBatch_linked (ingest : IngestFn) (h : batch.findSome? (linkFailure rt) = none) :
    processBatch rt ingest batch =
      if (batch.filterMap (entryOf rt)).isEmpty then (.ok (finalOffsets rt batch), rejections rt batch)
      else
        match ingest ((sent rt batch).map Entry.alert) with
        | .error _ => (.ok .empty, rejections rt batch)
        | .ok failed =>
            (.ok (finalOffsets rt batch), rejections rt batch ++ (sent rt batch).map (fate failed)) := by
  simp only [processBatch, h, checkItems_eq]
  split
  · rename_i hempty
    rw [finalOffsets, sent_of_isEmpty hempty]
    rfl
  · rfl

theorem processBatch_cases (rt : Runtime) (ingest : IngestFn) (batch : List Item) :
    (∃ e, processBatch rt ingest batch = (.error e, [])) ∨
    processBatch rt ingest batch = (.ok .empty, rejections rt batch) ∨
    ∃ failed, processBatch rt ingest batch =
      (.ok (finalOffsets rt batch), rejections rt batch ++ (sent rt batch).map (fate failed)) := by
  cases h : batch.findSome? (linkFailure rt) with
  | some e => exact Or.inl ⟨e, processBatch_crash ingest h⟩
  | none =>
      rw [processBatch_linked ingest h]
      split
      · rename_i hempty
        exact Or.inr (Or.inr ⟨[], by rw [sent_of_isEmpty hempty]; simp⟩)
      · cases ingest ((sent rt batch).map Entry.alert) with
        | error e => exact Or.inr (Or.inl rfl)
        | ok failed => exact Or.inr (Or.inr ⟨failed, rfl⟩)

/-! ## What the result says about each item -/

theorem mem_sent {e : Entry} (h : e ∈ sent rt batch) : ∃ it ∈ batch, entryOf rt it = some e :=
  List.mem_filterMap.mp (mem_of_mem_dedup h)

/-- A call writes messages of its batch to the DLQ, or has them accepted. -/
theorem mem_processBatch {ingest : IngestFn} {e : Event}
    (h : e ∈ (processBatch rt ingest batch).2) :
    (∃ it alert error, it ∈ batch ∧ e = .dlq it.tp it.offset alert error) ∨
      ∃ tp o, e = .accepted tp o := by
  have hreject : e ∈ rejections rt batch →
      ∃ it alert error, it ∈ batch ∧ e = .dlq it.tp it.offset alert error := by
    intro he
    obtain ⟨it, hit, rfl⟩ := List.mem_map.mp he
    exact ⟨it, _, _, (List.mem_filter.mp hit).1, rfl⟩
  rcases processBatch_cases rt ingest batch with ⟨_, hr⟩ | hr | ⟨failed, hr⟩
  · rw [hr] at h
    cases h
  · rw [hr] at h
    exact Or.inl (hreject h)
  · rw [hr] at h
    rcases List.mem_append.mp h with h | h
    · exact Or.inl (hreject h)
    · obtain ⟨w, hw, rfl⟩ := List.mem_map.mp h
      obtain ⟨it, hit, hent⟩ := mem_sent hw
      obtain ⟨htp, hoff, -⟩ := entryOf_eq_some hent
      unfold fate
      split
      · exact Or.inl ⟨it, _, _, hit, by rw [htp, hoff]⟩
      · exact Or.inr ⟨_, _, rfl⟩

/-- Accepted by the API or written to the DLQ. -/
def Handled (log : List Event) (tp : TopicPartition) (offset : ℕ) : Prop :=
  .accepted tp offset ∈ log ∨ ∃ alert error, .dlq tp offset alert error ∈ log

theorem Handled.mono {log log' : List Event} {tp : TopicPartition} {o : ℕ} (hsub : log ⊆ log')
    (h : Handled log tp o) : Handled log' tp o :=
  h.imp (fun h => hsub h) fun ⟨a, e, h⟩ => ⟨a, e, hsub h⟩

theorem handled_fate (failed : Failed) (e : Entry) : Handled [fate failed e] e.tp e.offset := by
  unfold fate
  split
  · exact Or.inr ⟨_, _, List.mem_cons_self⟩
  · exact Or.inl List.mem_cons_self

theorem finalOffsets_mem {p : TopicPartition} {o : ℕ} (h : (finalOffsets rt batch).get? p = some o) :
    ∃ it ∈ batch, it.tp = p ∧ it.offset + 1 = o := by
  rcases get?_foldl_raiseOffset Entry.tp Entry.offset h with h | ⟨e, he, hep, heo⟩
  · rcases get?_foldl_raiseOffset Item.tp Item.offset h with h | ⟨it, hit, hp, ho⟩
    · cases h
    · exact ⟨it, (List.mem_filter.mp hit).1, hp, ho⟩
  · obtain ⟨it, hit, hent⟩ := mem_sent he
    obtain ⟨htp, hoff, -⟩ := entryOf_eq_some hent
    exact ⟨it, hit, htp ▸ hep, hoff ▸ heo⟩

theorem lt_finalOffsets_of_invalid (hit : it ∈ batch) (h : invalid rt it = true) :
    ∃ o, (finalOffsets rt batch).get? it.tp = some o ∧ it.offset < o := by
  obtain ⟨o, ho, hlt⟩ := (le_foldl_raiseOffset Item.tp Item.offset (batch.filter (invalid rt))
    .empty).2 it (List.mem_filter.mpr ⟨hit, h⟩)
  obtain ⟨o', ho', hle⟩ := (le_foldl_raiseOffset Entry.tp Entry.offset (sent rt batch) _).1 _ _ ho
  exact ⟨o', ho', Nat.lt_of_lt_of_le hlt hle⟩

theorem lt_finalOffsets_of_sent {e : Entry} (h : e ∈ sent rt batch) :
    ∃ o, (finalOffsets rt batch).get? e.tp = some o ∧ e.offset < o :=
  (le_foldl_raiseOffset Entry.tp Entry.offset (sent rt batch) _).2 e h

/-- After a call that is done an item is handled, or superseded by a later one that is. -/
theorem handled_or_superseded (failed : Failed) {pre post : List Item}
    (hb : batch = pre ++ it :: post) :
    let events := rejections rt batch ++ (sent rt batch).map (fate failed)
    Handled events it.tp it.offset ∨
      ∃ it' ∈ post, it'.data.get "alert_id" = it.data.get "alert_id" ∧
        Handled events it'.tp it'.offset := by
  have hsent : ∀ w ∈ sent rt batch, Handled (rejections rt batch ++ (sent rt batch).map (fate failed))
      w.tp w.offset := by
    intro w hw
    refine (handled_fate failed w).mono fun e he => ?_
    rw [List.mem_singleton.mp he]
    exact List.mem_append_right _ (List.mem_map.mpr ⟨w, hw, rfl⟩)
  cases hent : entryOf rt it with
  | none =>
      refine Or.inl (Or.inr ⟨_, _, List.mem_append_left _ (List.mem_map.mpr ⟨it, ?_, rfl⟩)⟩)
      rw [List.mem_filter, hb]
      exact ⟨by simp, by simp [invalid, hent]⟩
  | some e =>
      obtain ⟨it', e', hit', hid, hent', hmem⟩ := exists_sent hb hent
      obtain ⟨htp, hoff, -⟩ := entryOf_eq_some hent'
      have hh := hsent e' hmem
      rw [htp, hoff] at hh
      rcases hit' with rfl | hit'
      · exact Or.inl hh
      · exact Or.inr ⟨it', hit', hid, hh⟩

end NeuralSoc.Sink
