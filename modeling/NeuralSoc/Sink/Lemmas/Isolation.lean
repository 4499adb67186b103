import NeuralSoc.Sink.Lemmas.Batch

/-!
# When a batch isolates its poison

The endpoint accepts what it receives. `Harmless` is what the fields of the messages have to be so that
none of them decides the fate of the others.
-/

namespace NeuralSoc.Sink

variable {rt : Runtime} {batch : List Item} {it : Item}

/-! ## Definitions -/

def acceptAll : IngestFn := fun _ => .ok []

/-- No valid item of `post` has the alert id of the item. -/
def Unreplaced (rt : Runtime) (it : Item) (post : List Item) : Prop :=
  ∀ it' ∈ post, invalid rt it' = false → it'.data.get "alert_id" ≠ it.data.get "alert_id"

structure Isolated (rt : Runtime) (batch : List Item) (offsets : Offsets) (events : List Event) :
    Prop where
  advanced : ∀ it ∈ batch, ∃ o, offsets.get? it.tp = some o
  ingested : ∀ pre it post, batch = pre ++ it :: post → invalid rt it = false →
    .accepted it.tp it.offset ∈ events ∨
      ∃ it' ∈ post, it'.data.get "alert_id" = it.data.get "alert_id" ∧
        .accepted it'.tp it'.offset ∈ events
  deadLettered : ∀ it ∈ batch, invalid rt it = true →
    ∃ alert error, .dlq it.tp it.offset alert error ∈ events

/-- `process_batch` returns and isolates what it cannot send. -/
def PoisonIsolated (rt : Runtime) (batch : List Item) : Prop :=
  ∃ offsets events, processBatch rt (ingestViaApi acceptAll) batch = (.ok offsets, events) ∧
    Isolated rt batch offsets events

/-- `propagate.extract` raises on what is no text, and reads every text. -/
def ExtractsTexts (rt : Runtime) : Prop := ∀ x : Json, rt.extract x = none ↔ x.isStr = true

structure Harmless (rt : Runtime) (batch : List Item) : Prop where
  traced : ∀ it ∈ batch, (it.data.get "trace_id").truthy = true → (it.data.get "trace_id").isStr = true
  finite : ∀ pre it post alert, batch = pre ++ it :: post →
    validatePayload rt (serializeEvidence rt it.data) = some alert → Unreplaced rt it post →
    alert.confidenceScore.isFinite = true
  advanced : ∀ it ∈ batch, ∃ pre it' post, batch = pre ++ it' :: post ∧ it'.tp = it.tp ∧
    (invalid rt it' = true ∨ Unreplaced rt it' post)

/-! ## What is sent -/

theorem invalid_eq_true : invalid rt it = true ↔ entryOf rt it = none := Option.isNone_iff_eq_none

theorem invalid_eq_false : invalid rt it = false ↔ ∃ e, entryOf rt it = some e := by
  rw [invalid, Option.isNone_eq_false_iff, Option.isSome_iff_exists]

theorem mem_dedup_iff {vs : List Entry} {e : Entry} :
    e ∈ dedup vs ↔ ∃ pre post, vs = pre ++ e :: post ∧
      ∀ e' ∈ post, e'.alert.alertId.1 ≠ e.alert.alertId.1 := by
  rw [mem_dedup]
  constructor
  · rintro ⟨k, hk⟩
    obtain ⟨ys, hys⟩ := List.getLast?_eq_some_iff.mp hk
    obtain ⟨l₁, l₂, rfl, -, h₂⟩ := List.filter_eq_append_iff.mp hys
    obtain ⟨l₃, l₄, rfl, -, hk, h₄⟩ := List.filter_eq_cons_iff.mp h₂
    refine ⟨l₁ ++ l₃, l₄, by rw [List.append_assoc], fun e' he' heq => ?_⟩
    refine List.filter_eq_nil_iff.mp h₄ e' he' ?_
    simp only [sameAlert, decide_eq_true_eq] at hk ⊢
    rw [heq, hk]
  · rintro ⟨pre, post, rfl, hpost⟩
    refine ⟨e.alert.alertId.1, ?_⟩
    have hnil : post.filter (sameAlert e.alert.alertId.1) = [] := by
      rw [List.filter_eq_nil_iff]
      intro e' he'
      simpa [sameAlert] using hpost e' he'
    have hcons : (e :: post).filter (sameAlert e.alert.alertId.1) = [e] := by
      rw [List.filter_cons_of_pos (by simp [sameAlert]), hnil]
    rw [List.filter_append, hcons, List.getLast?_concat]

theorem mem_sent_iff {e : Entry} :
    e ∈ sent rt batch ↔ ∃ pre it post, batch = pre ++ it :: post ∧ entryOf rt it = some e ∧
      Unreplaced rt it post := by
  rw [sent, mem_dedup_iff]
  constructor
  · rintro ⟨vpre, vpost, hvs, hlast⟩
    obtain ⟨l₁, l₂, rfl, -, h₂⟩ := List.filterMap_eq_append_iff.mp hvs
    obtain ⟨l₃, it, l₄, rfl, -, hent, rfl⟩ := List.filterMap_eq_cons_iff.mp h₂
    refine ⟨l₁ ++ l₃, it, l₄, by rw [List.append_assoc], hent, fun it' hit' hval => ?_⟩
    obtain ⟨e', hent'⟩ := invalid_eq_false.mp hval
    have hne := hlast e' (List.mem_filterMap.mpr ⟨it', hit', hent'⟩)
    rwa [(entryOf_eq_some hent').2.2, (entryOf_eq_some hent).2.2] at hne
  · rintro ⟨pre, it, post, rfl, hent, hlast⟩
    refine ⟨pre.filterMap (entryOf rt), post.filterMap (entryOf rt), ?_, ?_⟩
    · rw [List.filterMap_append, List.filterMap_cons_some hent]
    · intro e' he'
      obtain ⟨it', hit', hent'⟩ := List.mem_filterMap.mp he'
      rw [(entryOf_eq_some hent').2.2, (entryOf_eq_some hent).2.2]
      exact hlast it' hit' (invalid_eq_false.mpr ⟨e', hent'⟩)

theorem exists_finalOffsets_iff {tp : TopicPartition} :
    (∃ o, (finalOffsets rt batch).get? tp = some o) ↔
      ∃ pre it post, batch = pre ++ it :: post ∧ it.tp = tp ∧
        (invalid rt it = true ∨ Unreplaced rt it post) := by
  constructor
  · rintro ⟨o, ho⟩
    rcases get?_foldl_raiseOffset Entry.tp Entry.offset ho with ho | ⟨e, he, rfl, -⟩
    · rcases get?_foldl_raiseOffset Item.tp Item.offset ho with ho | ⟨it, hit, rfl, -⟩
      · cases ho
      · obtain ⟨hit, hbad⟩ := List.mem_filter.mp hit
        obtain ⟨pre, post, hb⟩ := List.append_of_mem hit
        exact ⟨pre, it, post, hb, rfl, Or.inl hbad⟩
    · obtain ⟨pre, it, post, hb, hent, hlast⟩ := mem_sent_iff.mp he
      exact ⟨pre, it, post, hb, (entryOf_eq_some hent).1.symm, Or.inr hlast⟩
  · rintro ⟨pre, it, post, hb, rfl, hcase⟩
    have hit : it ∈ batch := hb ▸ List.mem_append_right _ List.mem_cons_self
    cases hent : entryOf rt it with
    | none =>
        obtain ⟨o, ho, -⟩ := lt_finalOffsets_of_invalid hit (invalid_eq_true.mpr hent)
        exact ⟨o, ho⟩
    | some e =>
        have hval : invalid rt it = false := invalid_eq_false.mpr ⟨e, hent⟩
        have hlast := hcase.resolve_left (by simp [hval])
        obtain ⟨o, ho, -⟩ := lt_finalOffsets_of_sent (mem_sent_iff.mpr ⟨pre, it, post, hb, hent, hlast⟩)
        exact ⟨o, (entryOf_eq_some hent).1 ▸ ho⟩

/-! ## The three stages -/

/-- The body of the request can be encoded. -/
def encodable (rt : Runtime) (batch : List Item) : Bool :=
  (sent rt batch).all fun e => e.alert.confidenceScore.isFinite

theorem ingestViaApi_acceptAll (rt : Runtime) (batch : List Item) :
    ingestViaApi acceptAll ((sent rt batch).map Entry.alert) =
      if encodable rt batch then .ok []
      else .error ⟨.valueError, "Out of range float values are not JSON compliant"⟩ := by
  unfold ingestViaApi
  rw [List.all_map]
  rfl

theorem encodable_iff : encodable rt batch = true ↔
    ∀ pre it post alert, batch = pre ++ it :: post →
      validatePayload rt (serializeEvidence rt it.data) = some alert → Unreplaced rt it post →
      alert.confidenceScore.isFinite = true := by
  rw [encodable, List.all_eq_true]
  constructor
  · intro h pre it post alert hb hval hlast
    exact h ⟨alert, it.tp, it.offset⟩
      (mem_sent_iff.mpr ⟨pre, it, post, hb, by rw [entryOf, hval]; rfl, hlast⟩)
  · intro h e he
    obtain ⟨pre, it, post, hb, hent, hlast⟩ := mem_sent_iff.mp he
    obtain ⟨alert, hval, rfl⟩ := Option.map_eq_some_iff.mp hent
    exact h pre it post alert hb hval hlast

theorem exists_mem_of_not_encodable (h : encodable rt batch = false) : ∃ it, it ∈ batch := by
  cases batch with
  | nil => cases h
  | cons it rest => exact ⟨it, List.mem_cons_self⟩

theorem linked_iff (hextract : ExtractsTexts rt) : batch.findSome? (linkFailure rt) = none ↔
    ∀ it ∈ batch, (it.data.get "trace_id").truthy = true → (it.data.get "trace_id").isStr = true := by
  rw [List.findSome?_eq_none_iff]
  refine forall₂_congr fun it _ => ?_
  rw [← hextract (it.data.get "trace_id")]
  simp only [linkFailure, ite_eq_right_iff]

theorem processBatch_encodable (ht : batch.findSome? (linkFailure rt) = none) (he : encodable rt batch = true) :
    processBatch rt (ingestViaApi acceptAll) batch =
      (.ok (finalOffsets rt batch), rejections rt batch ++ (sent rt batch).map (fate [])) := by
  rw [processBatch_linked _ ht]
  split
  · rename_i hempty
    rw [sent_of_isEmpty hempty, List.map_nil, List.append_nil]
  · rw [ingestViaApi_acceptAll, if_pos he]

theorem processBatch_not_encodable (ht : batch.findSome? (linkFailure rt) = none)
    (he : encodable rt batch = false) :
    processBatch rt (ingestViaApi acceptAll) batch = (.ok .empty, rejections rt batch) := by
  rw [processBatch_linked _ ht]
  split
  · rename_i hempty
    rw [encodable, sent_of_isEmpty hempty] at he
    cases he
  · rw [ingestViaApi_acceptAll, he]
    rfl

/-- Everything but the offsets is as it should be once the request has been encoded. -/
theorem isolated_iff_advanced (rt : Runtime) (batch : List Item) :
    Isolated rt batch (finalOffsets rt batch) (rejections rt batch ++ (sent rt batch).map (fate [])) ↔
      ∀ it ∈ batch, ∃ o, (finalOffsets rt batch).get? it.tp = some o := by
  refine ⟨fun h => h.advanced, fun h => ⟨h, ?_, ?_⟩⟩
  · intro pre it post hb hval
    obtain ⟨e, hent⟩ := invalid_eq_false.mp hval
    obtain ⟨it', e', hit', hid, hent', hmem⟩ := exists_sent hb hent
    obtain ⟨htp, hoff, -⟩ := entryOf_eq_some hent'
    have hacc : .accepted it'.tp it'.offset ∈
        rejections rt batch ++ (sent rt batch).map (fate []) := by
      rw [← htp, ← hoff]
      exact List.mem_append_right _ (List.mem_map.mpr ⟨e', hmem, rfl⟩)
    rcases hit' with rfl | hit'
    · exact Or.inl hacc
    · exact Or.inr ⟨it', hit', hid, hacc⟩
  · intro it hit hbad
    refine ⟨_, _, List.mem_append_left _ (List.mem_map.mpr ⟨it, ?_, rfl⟩)⟩
    exact List.mem_filter.mpr ⟨hit, hbad⟩

end NeuralSoc.Sink
