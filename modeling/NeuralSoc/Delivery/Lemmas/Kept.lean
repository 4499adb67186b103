import NeuralSoc.Delivery.Lemmas.Attempt

/-!
# What a running sink keeps

For one alert id, whose messages are all in one partition, and for the topic as it is at the end of the run. Below
a floor every message of the id is settled, from there to the position of the consumer the batch has them all, and
what is committed is not above the floor. `Good` is what the table has to show for a message to count as delivered.
-/

namespace NeuralSoc.Delivery

open Sink

variable {db : Tenants.Database}

/-! ## Messages -/

/-- What the sink reads at an offset. -/
def dataAt (rt : Runtime) (topic : Topic) (tp : TopicPartition) (i : ℕ) : Option Object :=
  (topic tp)[i]?.bind fun record => readMessage rt (record.message tp i)

def Names (rt : Runtime) (topic : Topic) (tp : TopicPartition) (k : String) (i : ℕ) : Prop :=
  ∃ data, dataAt rt topic tp i = some data ∧ data.get "alert_id" = .str k

/-- The row of the message at an offset. -/
def messageRow (db : Tenants.Database) (site : Site) (topic : Topic) (tp : TopicPartition) (i : ℕ) :
    Option Tenants.Alert :=
  (dataAt site.runtime topic tp i).bind (rowOf db site)

def DeadLettered (log : List Event) (tp : TopicPartition) (i : ℕ) : Prop :=
  ∃ alert error, .dlq tp i alert error ∈ log

theorem DeadLettered.mono {log log' : List Event} {tp : TopicPartition} {i : ℕ} (hsub : log ⊆ log')
    (h : DeadLettered log tp i) : DeadLettered log' tp i := by
  obtain ⟨alert, error, hmem⟩ := h
  exact ⟨alert, error, hsub hmem⟩

/-! ## Committed offsets -/

section Committed

variable {log xs : List Event} {tp : TopicPartition} {offsets : List (TopicPartition × ℕ)}

theorem get?_updateOffsets {d : Offsets} {c : ℕ} (h : (updateOffsets d offsets).get? tp = some c) :
    d.get? tp = some c ∨ (tp, c) ∈ offsets := by
  induction offsets generalizing d with
  | nil => exact .inl h
  | cons e offsets ih =>
      cases ih h with
      | inl h =>
          rw [Dict.get?_set] at h
          split at h
          · rename_i heq
            cases h
            rw [heq]
            exact .inr List.mem_cons_self
          · exact .inl h
      | inr h => exact .inr (List.mem_cons_of_mem _ h)

theorem committedPosition_of_silent (h : ∀ e ∈ xs, ∀ offsets, e ≠ .committed offsets) :
    committedPosition (log ++ xs) tp = committedPosition log tp := by
  induction xs generalizing log with
  | nil => rw [List.append_nil]
  | cons e xs ih =>
      rw [List.append_cons, ih fun e he => h e (List.mem_cons_of_mem _ he)]
      rw [committedPosition, committedOffsets, List.foldl_append]
      cases e with
      | committed offsets => exact absurd rfl (h _ List.mem_cons_self offsets)
      | _ => rfl

theorem committedPosition_commit_le {b : ℕ} (h : committedPosition log tp ≤ b)
    (hle : ∀ c, (tp, c) ∈ offsets → c ≤ b) : committedPosition (log ++ [.committed offsets]) tp ≤ b := by
  rw [committedPosition, committedOffsets, List.foldl_append]
  change ((updateOffsets (committedOffsets log) offsets).get? tp).getD 0 ≤ b
  cases hc : (updateOffsets (committedOffsets log) offsets).get? tp with
  | none => exact Nat.zero_le b
  | some c =>
      cases get?_updateOffsets hc with
      | inl hold =>
          rw [committedPosition, hold] at h
          exact h
      | inr hnew => exact hle c hnew

end Committed

/-! ## The floor -/

section Kept

variable (site : Site) (k : String) (tp : TopicPartition) (topic : Topic) (Good : ℕ → Option Tenants.Alert → Prop)

/-- The message, or a later one of its id, is in the dead-letter file, or the table shows what it has to. -/
def Settled (log : List Event) (shown : Option Tenants.Alert) (i : ℕ) : Prop :=
  (∃ j, i ≤ j ∧ Names site.runtime topic tp k j ∧ DeadLettered log tp j) ∨ Good i shown

structure Floor (position : ℕ) (batch : List Item) (log : List Event) (shown : Option Tenants.Alert) (floor : ℕ) :
    Prop where
  settled : ∀ i < floor, Names site.runtime topic tp k i → Settled site k tp topic Good log shown i
  held : ∀ i, floor ≤ i → i < position → Names site.runtime topic tp k i → ∃ it ∈ batch, it.tp = tp ∧ it.offset = i
  ahead : ∀ it ∈ batch, it.tp = tp → floor ≤ it.offset ∧ it.offset < position
  reached : committedPosition log tp ≤ floor
  low : floor ≤ position

/-- `past` is the log of before the last start. -/
structure Kept (position : ℕ) (s : SinkState) (past : List Event) (shown : Option Tenants.Alert) : Prop where
  floor : ∃ floor, Floor site k tp topic Good position s.batch (past ++ s.log) shown floor
  sourced : ∀ it ∈ s.batch, dataAt site.runtime topic it.tp it.offset = some it.data
  ordered : s.batch.Pairwise fun a b => a.tp = tp → b.tp = tp → a.offset < b.offset
  observed : ∀ o, s.highestObserved.get? tp = some o → o ≤ position

/-- What a restart and a reader of the table rely on, also when the sink has stopped. -/
structure Sound (position : ℕ) (s : SinkState) (past : List Event) (shown : Option Tenants.Alert) : Prop where
  resumable : ∀ i < committedPosition (past ++ s.log) tp, Names site.runtime topic tp k i →
    Settled site k tp topic Good (past ++ s.log) shown i
  unheld : ∀ i < position, Names site.runtime topic tp k i →
    Settled site k tp topic Good (past ++ s.log) shown i ∨ ∃ it ∈ s.batch, it.tp = tp ∧ it.offset = i

variable {site k tp topic Good} {position : ℕ} {batch : List Item} {log xs past : List Event}
  {shown shown' : Option Tenants.Alert} {floor : ℕ} {s s' : SinkState}

theorem Settled.mono {i : ℕ} (hsub : log ⊆ xs) (h : Settled site k tp topic Good log shown i) :
    Settled site k tp topic Good xs shown i :=
  h.imp_left fun ⟨j, hij, hnames, hdead⟩ => ⟨j, hij, hnames, hdead.mono hsub⟩

/-- Events that commit nothing, and a row at or above the floor. -/
theorem Floor.extend (h : Floor site k tp topic Good position batch log shown floor)
    (hxs : ∀ e ∈ xs, ∀ offsets, e ≠ .committed offsets)
    (hshown : ∀ i < floor, Good i shown → Good i shown') :
    Floor site k tp topic Good position batch (log ++ xs) shown' floor where
  settled i hi hnames := by
    have hmono := (h.settled i hi hnames).mono (List.subset_append_left log xs)
    exact hmono.imp_right (hshown i hi)
  held := h.held
  ahead := h.ahead
  reached := by
    rw [committedPosition_of_silent hxs]
    exact h.reached
  low := h.low

/-- The batch grows by the messages of the id between the positions. -/
theorem Floor.poll {position' : ℕ} {new : List Item} (h : Floor site k tp topic Good position batch log shown floor)
    (hle : position ≤ position') (hnew : ∀ it ∈ new, it.tp = tp → position ≤ it.offset ∧ it.offset < position')
    (hall : ∀ i, position ≤ i → i < position' → Names site.runtime topic tp k i →
      ∃ it ∈ new, it.tp = tp ∧ it.offset = i) :
    Floor site k tp topic Good position' (batch ++ new) log shown floor where
  settled := h.settled
  held i hi hlt hnames := by
    by_cases hold : i < position
    · obtain ⟨it, hit, hat⟩ := h.held i hi hold hnames
      exact ⟨it, List.mem_append_left _ hit, hat⟩
    · obtain ⟨it, hit, hat⟩ := hall i (Nat.le_of_not_lt hold) hlt hnames
      exact ⟨it, List.mem_append_right _ hit, hat⟩
  ahead it hit htp := by
    cases List.mem_append.mp hit with
    | inl hit =>
        obtain ⟨hge, hlt⟩ := h.ahead it hit htp
        exact ⟨hge, hlt.trans_le hle⟩
    | inr hit =>
        obtain ⟨hge, hlt⟩ := hnew it hit htp
        exact ⟨h.low.trans hge, hlt⟩
  reached := h.reached
  low := h.low.trans hle

/-- Once every message of the batch is settled the floor is the position. -/
theorem Floor.clear (h : Floor site k tp topic Good position batch log shown floor) (hsub : log ⊆ xs)
    (hbatch : ∀ it ∈ batch, it.tp = tp → Names site.runtime topic tp k it.offset →
      Settled site k tp topic Good xs shown it.offset)
    (hreached : committedPosition xs tp ≤ position) :
    Floor site k tp topic Good position [] xs shown position where
  settled i hi hnames := by
    by_cases hlt : i < floor
    · exact (h.settled i hlt hnames).mono hsub
    · obtain ⟨it, hit, htp, rfl⟩ := h.held i (Nat.le_of_not_lt hlt) hi hnames
      exact hbatch it hit htp hnames
  held i hle hlt := absurd hlt (Nat.not_lt.mpr hle)
  ahead it hit := absurd hit List.not_mem_nil
  reached := hreached
  low := Nat.le_refl _

theorem Kept.committed_le (h : Kept site k tp topic Good position s past shown) :
    committedPosition (past ++ s.log) tp ≤ position := by
  obtain ⟨floor, hfloor⟩ := h.floor
  exact hfloor.reached.trans hfloor.low

theorem Kept.sound (h : Kept site k tp topic Good position s past shown) :
    Sound site k tp topic Good position s past shown := by
  obtain ⟨floor, hfloor⟩ := h.floor
  constructor
  case resumable => exact fun i hi hnames => hfloor.settled i (hi.trans_le hfloor.reached) hnames
  case unheld =>
    intro i hi hnames
    by_cases hlt : i < floor
    · exact .inl (hfloor.settled i hlt hnames)
    · exact .inr (hfloor.held i (Nat.le_of_not_lt hlt) hi hnames)

/-- A poll adds the messages of the id between the positions. -/
theorem Kept.poll {position' : ℕ} {new : List Item} (h : Kept site k tp topic Good position s past shown)
    (hbatch : s'.batch = s.batch ++ new) (hlog : s'.log = s.log ++ xs)
    (hxs : ∀ e ∈ xs, ∀ offsets, e ≠ .committed offsets)
    (hobserved : ∀ o, s'.highestObserved.get? tp = some o → o ≤ position') (hle : position ≤ position')
    (hsourced : ∀ it ∈ new, dataAt site.runtime topic it.tp it.offset = some it.data)
    (hordered : new.Pairwise fun a b => a.tp = tp → b.tp = tp → a.offset < b.offset)
    (hnew : ∀ it ∈ new, it.tp = tp → position ≤ it.offset ∧ it.offset < position')
    (hall : ∀ i, position ≤ i → i < position' → Names site.runtime topic tp k i →
      ∃ it ∈ new, it.tp = tp ∧ it.offset = i) :
    Kept site k tp topic Good position' s' past shown := by
  obtain ⟨floor, hfloor⟩ := h.floor
  constructor
  case floor =>
    refine ⟨floor, ?_⟩
    rw [hbatch, hlog, ← List.append_assoc]
    exact (hfloor.extend hxs fun _ _ hgood => hgood).poll hle hnew hall
  case sourced =>
    intro it hit
    rw [hbatch] at hit
    cases List.mem_append.mp hit with
    | inl hit => exact h.sourced it hit
    | inr hit => exact hsourced it hit
  case ordered =>
    rw [hbatch, List.pairwise_append]
    refine ⟨h.ordered, hordered, fun a ha b hb hatp hbtp => ?_⟩
    exact (hfloor.ahead a ha hatp).2.trans_le (hnew b hb hbtp).1
  case observed => exact hobserved

theorem Kept.clear (h : Kept site k tp topic Good position s past shown) (hbatch : s'.batch = [])
    (hlog : s.log <+: s'.log) (hobserved : s'.highestObserved = s.highestObserved)
    (hsettled : ∀ it ∈ s.batch, it.tp = tp → Names site.runtime topic tp k it.offset →
      Settled site k tp topic Good (past ++ s'.log) shown it.offset)
    (hreached : committedPosition (past ++ s'.log) tp ≤ position) :
    Kept site k tp topic Good position s' past shown := by
  obtain ⟨floor, hfloor⟩ := h.floor
  have hsub : past ++ s.log ⊆ past ++ s'.log := ((List.prefix_append_right_inj past).mpr hlog).subset
  constructor
  case floor => exact ⟨position, hbatch ▸ hfloor.clear hsub hsettled hreached⟩
  case sourced => simp [hbatch]
  case ordered => simp [hbatch]
  case observed => exact hobserved ▸ h.observed

/-- The log goes on without a commit, and the row that may have been written is one of the batch. -/
theorem Kept.extend (h : Kept site k tp topic Good position s past shown) (hbatch : s'.batch = s.batch)
    (hlog : s'.log = s.log ++ xs) (hobserved : s'.highestObserved = s.highestObserved)
    (hxs : ∀ e ∈ xs, ∀ offsets, e ≠ .committed offsets)
    (hshown : ∀ i, Good i shown → Good i shown' ∨ ∃ it ∈ s.batch, it.tp = tp ∧ (i ≤ it.offset → Good i shown')) :
    Kept site k tp topic Good position s' past shown' := by
  obtain ⟨floor, hfloor⟩ := h.floor
  refine ⟨⟨floor, ?_⟩, hbatch ▸ h.sourced, hbatch ▸ h.ordered, hobserved ▸ h.observed⟩
  rw [hbatch, hlog, ← List.append_assoc]
  apply hfloor.extend hxs
  intro i hi hgood
  cases hshown i hgood with
  | inl hgood => exact hgood
  | inr hrow =>
      obtain ⟨it, hit, htp, hwritten⟩ := hrow
      exact hwritten (hi.le.trans (hfloor.ahead it hit htp).1)

/-- A commit up to the position, once the messages of the batch are settled. -/
theorem Sound.commit (h : Sound site k tp topic Good position s past shown) (hlog : s.log <+: s'.log)
    (hsettled : ∀ it ∈ s.batch, it.tp = tp → Names site.runtime topic tp k it.offset →
      Settled site k tp topic Good (past ++ s'.log) shown it.offset)
    (hreached : committedPosition (past ++ s'.log) tp ≤ position) :
    Sound site k tp topic Good position s' past shown := by
  have hsub : past ++ s.log ⊆ past ++ s'.log := ((List.prefix_append_right_inj past).mpr hlog).subset
  have hall : ∀ i < position, Names site.runtime topic tp k i →
      Settled site k tp topic Good (past ++ s'.log) shown i := by
    intro i hi hnames
    cases h.unheld i hi hnames with
    | inl h => exact h.mono hsub
    | inr hheld =>
        obtain ⟨it, hit, htp, rfl⟩ := hheld
        exact hsettled it hit htp hnames
  exact ⟨fun i hi hnames => hall i (hi.trans_le hreached) hnames, fun i hi hnames => .inl (hall i hi hnames)⟩

/-! ## The items of the batch -/

theorem Kept.named (h : Kept site k tp topic Good position s past shown) {it : Item} (hit : it ∈ s.batch)
    (htp : it.tp = tp) (hnames : Names site.runtime topic tp k it.offset) : it.data.get "alert_id" = .str k := by
  obtain ⟨data, hdata, hid⟩ := hnames
  have hsame := h.sourced it hit
  rw [htp, hdata] at hsame
  cases hsame
  exact hid

theorem Kept.names (h : Kept site k tp topic Good position s past shown)
    (hsingle : ∀ q i, Names site.runtime topic q k i → q = tp) {it : Item} (hit : it ∈ s.batch)
    (hid : it.data.get "alert_id" = .str k) : it.tp = tp ∧ Names site.runtime topic tp k it.offset := by
  have hnames : Names site.runtime topic it.tp k it.offset := ⟨it.data, h.sourced it hit, hid⟩
  have htp := hsingle it.tp it.offset hnames
  exact ⟨htp, htp ▸ hnames⟩

theorem Kept.row (h : Kept site k tp topic Good position s past shown) {it : Item} (hit : it ∈ s.batch)
    (htp : it.tp = tp) : messageRow db site topic tp it.offset = rowOf db site it.data := by
  rw [messageRow, ← htp, h.sourced it hit]
  rfl

theorem Kept.offset_le (h : Kept site k tp topic Good position s past shown) {pre post : List Item} {it it' : Item}
    (hb : s.batch = pre ++ it :: post) (hit' : it' = it ∨ it' ∈ post) (htp : it.tp = tp) (htp' : it'.tp = tp) :
    it.offset ≤ it'.offset := by
  cases hit' with
  | inl heq => rw [heq]
  | inr hpost =>
      have hordered := hb ▸ h.ordered
      have htail := (List.pairwise_append.mp hordered).2.1
      exact (List.rel_of_pairwise_cons htail hpost htp htp').le

end Kept

end NeuralSoc.Delivery
