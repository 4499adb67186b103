import NeuralSoc.Base.Recent
import NeuralSoc.Base.Runs
import NeuralSoc.Correlation.Lemmas.Scripts

/-!
# The replay-defence set against its log

Beside the keys a run keeps the log of the admitted ids that were not rolled back, the oldest first.
The seen set is compared with the newest `maxSeen` entries of this log, and `Ordered` says exactly
which scripts keep the two equal.
-/

namespace NeuralSoc.Correlation

variable {τ : Type*}

structure Ledger (τ : Type*) where
  keys : Keys τ
  log : List String

def Ledger.start : Ledger τ := ⟨.none, []⟩

/-- The ids the window of the replay defence should hold. -/
abbrev Ledger.held (s : Ledger τ) : List String := recent maxSeen s.log

structure Ledger.Fifo (s : Ledger τ) : Prop where
  members : ∀ x, x ∈ s.keys.seen ↔ x ∈ s.held
  refuses : ∀ a : CorrelateArgs τ, a.isReplay = false → a.alertId ∈ s.held →
    correlate a s.keys = (⟨0, 0, []⟩, s.keys)

/-- The oldest held id comes first among the entries of the set and the entry of the new id. -/
def Ledger.OldestFirst (s : Ledger τ) (id : String) : Prop :=
  ∃ o l, s.held.head? = some o ∧ s.keys.seen.zscore o = some l ∧
    toLex (l, o) ≤ toLex (s.keys.seen.zcard, id) ∧
    ∀ b m, b ≠ id → s.keys.seen.zscore b = some m → toLex (l, o) ≤ toLex (m, b)

/-- An id enters a full set only when the oldest one has rank 0, and no held id is taken back once
older ones have been evicted. -/
def Ledger.Ordered (s : Ledger τ) : Call τ → Prop
  | .correlate a => refused a s.keys = true ∨ a.alertId = "" ∨ a.alertId ∈ s.keys.seen ∨
      s.keys.seen.zcard < maxSeen ∨ s.OldestFirst a.alertId
  | .rollback r => r.alertId ∉ s.keys.seen ∨ s.log.length ≤ maxSeen

structure Ledger.Wf (s : Ledger τ) : Prop where
  nodup : s.log.Nodup
  nonempty : "" ∉ s.log

variable {s : Ledger τ}

theorem Ledger.held_subset {x : String} (h : x ∈ s.held) : x ∈ s.log := List.mem_of_mem_drop h

theorem Ledger.Wf.nodup_held (hw : s.Wf) : s.held.Nodup := nodup_recent hw.nodup

theorem Ledger.Wf.fifo (hw : s.Wf) (h : ∀ x, x ∈ s.keys.seen ↔ x ∈ s.held) : s.Fifo := by
  refine ⟨h, fun a hreplay hid => correlate_of_refused (refused_iff.mpr ⟨?_, ?_, hreplay⟩)⟩
  · rintro he
    exact hw.nonempty (he ▸ held_subset hid)
  · exact (h _).mpr hid

theorem Ledger.Fifo.zcard_eq (hf : s.Fifo) (hw : s.Wf) :
    s.keys.seen.zcard = min maxSeen s.log.length := by
  rw [SortedSet.zcard_eq_length hw.nodup_held hf.members, held, length_recent]

theorem Ledger.start_wf : (start : Ledger τ).Wf := ⟨List.nodup_nil, List.not_mem_nil⟩

theorem Ledger.start_fifo : (start : Ledger τ).Fifo := by
  apply start_wf.fifo
  intro x
  simp [start, Keys.none, held, recent, SortedSet.not_mem_empty]

/-! ## Admission -/

/-- A full set drops the entry of rank 0, the window its oldest id. -/
theorem mem_admitSeen_full {id : String} {seen : SortedSet ℕ String} {held : List String}
    (hmem : ∀ x, x ∈ seen ↔ x ∈ held) (hn : held.Nodup) (hne : id ≠ "") (hid : id ∉ seen)
    (hfull : maxSeen ≤ seen.zcard) :
    (∀ x, x ∈ admitSeen id seen ↔ x ∈ held.tail ++ [id]) ↔
      ∃ o, held.head? = some o ∧ (seen.zadd seen.zcard id).first? = some o := by
  rw [admitSeen_of_full hne hid hfull]
  simp only [SortedSet.mem_popMin, SortedSet.mem_zadd, hmem]
  cases held with
  | nil =>
      have hlen := SortedSet.zcard_eq_length hn hmem
      simp [maxSeen] at hlen hfull
      omega
  | cons o rest =>
      obtain ⟨ho, -⟩ := List.nodup_cons.mp hn
      have hoid : o ≠ id := fun he => hid ((hmem id).mpr (he ▸ List.mem_cons_self))
      simp only [List.tail_cons, List.mem_append, List.mem_singleton, List.head?_cons,
        Option.some.injEq, exists_eq_left']
      constructor
      · intro h
        obtain ⟨p, hp⟩ := SortedSet.exists_first? (SortedSet.mem_zadd.mpr (Or.inl rfl) :
          id ∈ seen.zadd seen.zcard id)
        have hpm := SortedSet.mem_zadd.mp (SortedSet.first?_mem hp)
        rw [hmem, List.mem_cons] at hpm
        rcases hpm with rfl | rfl | hrest
        · exact absurd hp ((h p).mpr (Or.inr rfl)).2
        · exact hp
        · exact absurd hp ((h p).mpr (Or.inl hrest)).2
      · intro hfirst x
        have hx : x ∈ rest → x ≠ o := fun hx he => ho (he ▸ hx)
        have hxid : x = id → x ≠ o := fun hx he => hoid (he.symm.trans hx)
        simp only [hfirst, Option.some.injEq, ne_eq, eq_comm (a := o), List.mem_cons]
        tauto

theorem oldestFirst_iff {id : String} (hf : s.Fifo) (hid : id ∉ s.keys.seen) :
    (∃ o, s.held.head? = some o ∧
      (s.keys.seen.zadd s.keys.seen.zcard id).first? = some o) ↔ s.OldestFirst id := by
  unfold Ledger.OldestFirst
  apply exists_congr
  intro o
  simp only [exists_and_left]
  apply and_congr_right
  intro ho
  have hoid : o ≠ id := fun he => hid (he ▸ (hf.members o).mpr (List.mem_of_head? ho))
  exact SortedSet.first?_zadd_other hoid

/-! ## The recorded run -/

variable [DecidableEq τ]

def record (s : Ledger τ) : Call τ → Ledger τ
  | .correlate a =>
      { keys := (correlate a s.keys).2
        log := if refused a s.keys = true ∨ a.alertId = "" then s.log else touch a.alertId s.log }
  | .rollback r =>
      { keys := rollback r s.keys
        log := s.log.erase r.alertId }

theorem Ledger.Wf.record (s : Ledger τ) (c : Call τ) (hw : s.Wf) : (record s c).Wf := by
  cases c with
  | correlate a =>
      by_cases h : refused a s.keys = true ∨ a.alertId = ""
      · exact ⟨by simp only [Correlation.record, h, ↓reduceIte]; exact hw.nodup,
          by simp only [Correlation.record, h, ↓reduceIte]; exact hw.nonempty⟩
      · constructor
        · simp only [Correlation.record, h, ↓reduceIte]
          exact nodup_touch hw.nodup
        · simp only [Correlation.record, h, ↓reduceIte, mem_touch hw.nodup]
          intro hx
          exact hx.elim (fun he => h (Or.inr he.symm)) hw.nonempty
  | rollback r =>
      exact ⟨hw.nodup.erase _, fun hx => hw.nonempty (List.mem_of_mem_erase hx)⟩

theorem fifo_iff_members (s : Ledger τ) (c : Call τ) (hw : s.Wf) :
    (record s c).Fifo ↔ ∀ x, x ∈ (record s c).keys.seen ↔ x ∈ (record s c).held :=
  ⟨fun h => h.members, (hw.record s c).fifo⟩

theorem fifo_correlate (hw : s.Wf) (hf : s.Fifo) (a : CorrelateArgs τ) :
    (record s (.correlate a)).Fifo ↔ s.Ordered (.correlate a) := by
  rw [fifo_iff_members _ _ hw]
  unfold Ledger.Ordered
  cases hadm : refused a s.keys with
  | true =>
      simp only [record, hadm, true_or, ↓reduceIte, correlate_of_refused hadm, iff_true]
      exact hf.members
  | false =>
      have hcard := hf.zcard_eq hw
      simp only [record, hadm, Bool.false_eq_true, false_or, correlate_seen hadm, Ledger.held]
      by_cases hne : a.alertId = ""
      · simp only [hne, ↓reduceIte, admitSeen_empty, true_or, iff_true]
        exact hf.members
      by_cases hid : a.alertId ∈ s.keys.seen
      · -- A replay of a held id only becomes the newest one.
        have hheld := (hf.members _).mp hid
        simp only [hne, ↓reduceIte, hid, true_or, or_true, iff_true,
          recent_touch_of_mem hw.nodup hheld]
        intro x
        rw [mem_admitSeen_of_mem hid (by omega), mem_touch hw.nodup_held, hf.members]
        exact ⟨Or.inr, fun h => h.elim (fun he => he ▸ hheld) (fun h => h)⟩
      have hheld : a.alertId ∉ s.held := fun h => hid ((hf.members _).mpr h)
      rcases Nat.lt_or_ge s.keys.seen.zcard maxSeen with hlt | hge
      · have hlog : s.log.length < maxSeen := by omega
        have hmem := hf.members
        rw [Ledger.held, recent_of_length_le hlog.le] at hmem
        simp only [hne, ↓reduceIte, hlt, true_or, or_true, iff_true,
          recent_touch_of_length_lt hlog, admitSeen_of_room hne hid hlt]
        intro x
        rw [SortedSet.mem_zadd, mem_touch hw.nodup, hmem]
      · have hlog : maxSeen ≤ s.log.length := by omega
        have hfull := recent_touch_of_full (by decide) hlog hheld
        simp only [hne, ↓reduceIte, hid, not_lt.mpr hge, false_or, hfull, ← oldestFirst_iff hf hid]
        exact mem_admitSeen_full hf.members hw.nodup_held hne hid hge

theorem fifo_rollback (hw : s.Wf) (hf : s.Fifo) (r : RollbackArgs τ) :
    (record s (.rollback r)).Fifo ↔ s.Ordered (.rollback r) := by
  rw [fifo_iff_members _ _ hw]
  unfold Ledger.Ordered
  by_cases hid : r.alertId ∈ s.keys.seen
  · have hheld := (hf.members _).mp hid
    have hne : r.alertId ≠ "" := fun he => hw.nonempty (he ▸ Ledger.held_subset hheld)
    simp only [hid, not_true_eq_false, false_or, record, mem_rollback_seen hne, Ledger.held]
    rcases Nat.lt_or_ge maxSeen s.log.length with hlt | hle
    · -- The window reaches back to an id the set has already forgotten.
      simp only [not_le.mpr hlt, iff_false]
      intro h
      obtain ⟨y, hy, hold⟩ := exists_mem_recent_erase hw.nodup hlt hheld
      exact hold ((hf.members y).mp ((h y).mpr hy).1)
    · simp only [hle, iff_true, recent_erase_of_length_le hle]
      intro x
      rw [hw.nodup_held.mem_erase_iff, hf.members]
      exact And.comm
  · have hheld : r.alertId ∉ s.held := fun h => hid ((hf.members _).mpr h)
    have hseen : (rollback r s.keys).seen = s.keys.seen := by
      simp only [rollback, SortedSet.zrem_of_not_mem hid, ite_self]
    simp only [record, hseen, hid, not_false_eq_true, true_or, iff_true, Ledger.held,
      recent_erase_of_not_mem hheld]
    exact hf.members

theorem fifo_record (s : Ledger τ) (c : Call τ) (hw : s.Wf) (hf : s.Fifo) :
    (record s c).Fifo ↔ s.Ordered c := by
  cases c with
  | correlate a => exact fifo_correlate hw hf a
  | rollback r => exact fifo_rollback hw hf r

/-! ## An id that ties with an older one

Two ids with one score: the one that comes first as a text is evicted first, whichever is older. -/

/-- `x` has rank 0 in the set, and its score is below the next one given out. -/
structure Least (x : String) (l : ℕ) (seen : SortedSet ℕ String) : Prop where
  score : seen.zscore x = some l
  first : ∀ b m, seen.zscore b = some m → toLex (l, x) ≤ toLex (m, b)
  below : l < seen.zcard

omit [DecidableEq τ]

theorem Least.mem {x : String} {l : ℕ} {seen : SortedSet ℕ String} (h : Least x l seen) : x ∈ seen :=
  SortedSet.zscore_isSome.mp (by rw [h.score]; rfl)

theorem Least.admitSeen {x id : String} {l : ℕ} {seen : SortedSet ℕ String} (h : Least x l seen)
    (hne : id ≠ "") (hid : id ∉ seen) (hlt : seen.zcard < maxSeen) :
    Least x l (admitSeen id seen) := by
  have hxid : x ≠ id := fun he => hid (he ▸ h.mem)
  rw [admitSeen_of_room hne hid hlt]
  refine ⟨by simp only [SortedSet.zscore_zadd, hxid, ↓reduceIte, h.score], ?_, ?_⟩
  · intro b m hb
    rw [SortedSet.zscore_zadd] at hb
    split at hb
    · cases hb
      exact Prod.Lex.toLex_le_toLex.mpr (Or.inl h.below)
    · exact h.first b m hb
  · rw [SortedSet.zcard_zadd hid]
    exact Nat.lt_succ_of_lt h.below

theorem Least.evicted {x id : String} {l : ℕ} {seen : SortedSet ℕ String} (h : Least x l seen)
    (hne : id ≠ "") (hid : id ∉ seen) (hfull : maxSeen ≤ seen.zcard) :
    x ∉ Correlation.admitSeen id seen := by
  have hxid : x ≠ id := fun he => hid (he ▸ h.mem)
  have hfirst : (seen.zadd seen.zcard id).first? = some x :=
    (SortedSet.first?_zadd_other hxid).mpr
      ⟨l, h.score, Prod.Lex.toLex_le_toLex.mpr (Or.inl h.below), fun b m _ hb => h.first b m hb⟩
  rw [admitSeen_of_full hne hid hfull, SortedSet.mem_popMin]
  exact fun hx => hx.2 hfirst

variable [DecidableEq τ]

theorem record_new {s : Ledger τ} {a : CorrelateArgs τ} (hmem : a.alertId ∉ s.keys.seen)
    (hlog : a.alertId ∉ s.log) (hne : a.alertId ≠ "") :
    (record s (.correlate a)).keys.seen = admitSeen a.alertId s.keys.seen ∧
      (record s (.correlate a)).log = s.log ++ [a.alertId] := by
  have hadm := admitted_of_not_mem hmem
  constructor
  · exact correlate_seen hadm
  · simp only [record, hadm, hne, Bool.false_eq_true, or_self, ↓reduceIte, touch_of_not_mem hlog]

theorem least_record {x : String} {l : ℕ} {s : Ledger τ} {a : CorrelateArgs τ}
    (hseen : ∀ y, y ∈ s.keys.seen → y ∈ s.log) (hleast : Least x l s.keys.seen)
    (hlog : a.alertId ∉ s.log) (hne : a.alertId ≠ "") (hlt : s.keys.seen.zcard < maxSeen) :
    let t := record s (.correlate a)
    Least x l t.keys.seen ∧ t.log = s.log ++ [a.alertId] ∧
      t.keys.seen.zcard = s.keys.seen.zcard + 1 ∧ ∀ y, y ∈ t.keys.seen → y ∈ t.log := by
  have hmem : a.alertId ∉ s.keys.seen := fun h => hlog (hseen _ h)
  obtain ⟨hset, htext⟩ := record_new hmem hlog hne
  dsimp only
  rw [hset, htext]
  refine ⟨hleast.admitSeen hne hmem hlt, rfl, ?_, fun y hy => ?_⟩
  · rw [admitSeen_of_room hne hmem hlt, SortedSet.zcard_zadd hmem]
  · rw [admitSeen_of_room hne hmem hlt, SortedSet.mem_zadd] at hy
    rw [List.mem_append, List.mem_singleton]
    exact hy.elim Or.inr fun hy => Or.inl (hseen y hy)

/-- New ids fill the set up; the id of rank 0 stays there. -/
theorem least_fill {x : String} {l : ℕ} (as : List (CorrelateArgs τ)) (s : Ledger τ)
    (hseen : ∀ y, y ∈ s.keys.seen → y ∈ s.log) (hleast : Least x l s.keys.seen)
    (hids : (as.map CorrelateArgs.alertId).Nodup)
    (hnew : ∀ a ∈ as, a.alertId ∉ s.log ∧ a.alertId ≠ "")
    (hroom : s.keys.seen.zcard + as.length ≤ maxSeen) :
    let t := (as.map Call.correlate).foldl record s
    Least x l t.keys.seen ∧ t.log = s.log ++ as.map CorrelateArgs.alertId ∧
      t.keys.seen.zcard = s.keys.seen.zcard + as.length ∧ ∀ y, y ∈ t.keys.seen → y ∈ t.log := by
  induction as generalizing s with
  | nil => exact ⟨hleast, by simp, by simp, hseen⟩
  | cons a as ih =>
      obtain ⟨hid, hids⟩ := List.nodup_cons.mp hids
      obtain ⟨hlog, hne⟩ := hnew a List.mem_cons_self
      rw [List.length_cons] at hroom
      obtain ⟨hleast', hstepLog, hcard, hseen'⟩ := least_record hseen hleast hlog hne (by omega)
      have hnew' : ∀ b ∈ as, b.alertId ∉ (record s (.correlate a)).log ∧ b.alertId ≠ "" := by
        intro b hb
        obtain ⟨hb1, hb2⟩ := hnew b (List.mem_cons_of_mem _ hb)
        refine ⟨?_, hb2⟩
        rw [hstepLog, List.mem_append, List.mem_singleton]
        exact fun h => h.elim hb1 fun he => hid (List.mem_map.mpr ⟨b, hb, he⟩)
      obtain ⟨h1, h2, h3, h4⟩ := ih _ hseen' hleast' hids hnew' (by omega)
      refine ⟨h1, ?_, ?_, h4⟩
      · rw [List.map_cons, List.foldl_cons, h2, hstepLog]
        simp
      · rw [List.map_cons, List.foldl_cons, h3, hcard, List.length_cons]
        omega

/-- The id of rank 0 leaves a full set while it is still among the newest. -/
theorem not_fifo_of_least {x : String} {l : ℕ} {s : Ledger τ} {a : CorrelateArgs τ}
    (hseen : ∀ y, y ∈ s.keys.seen → y ∈ s.log) (hleast : Least x l s.keys.seen)
    (hnew : a.alertId ∉ s.log) (hne : a.alertId ≠ "") (hfull : maxSeen ≤ s.keys.seen.zcard)
    (hheld : x ∈ recent maxSeen (s.log ++ [a.alertId])) : ¬ (record s (.correlate a)).Fifo := by
  intro hf
  have hmem : a.alertId ∉ s.keys.seen := fun h => hnew (hseen _ h)
  obtain ⟨hset, htext⟩ := record_new hmem hnew hne
  have hx := hf.members x
  rw [hset, Ledger.held, htext] at hx
  exact hleast.evicted hne hmem hfull (hx.mpr hheld)

end NeuralSoc.Correlation
