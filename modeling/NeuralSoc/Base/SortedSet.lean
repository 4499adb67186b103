import Mathlib.Data.Prod.Lex
import NeuralSoc.Base.Greatest

/-!
# Sorted sets

A set of members, each with a score, kept in the order of a Redis sorted set: by score, and by member
where the scores tie.
-/

namespace NeuralSoc

variable {κ α : Type*} [LinearOrder κ] [LinearOrder α]

/-- The entries in rank order; no member occurs twice. -/
structure SortedSet (κ α : Type*) [LinearOrder κ] [LinearOrder α] where
  entries : List (κ ×ₗ α)
  sorted : entries.Pairwise (· ≤ ·)
  nodup : (entries.map fun e => (ofLex e).2).Nodup

namespace SortedSet

def empty : SortedSet κ α := ⟨[], by simp, by simp⟩

def members (s : SortedSet κ α) : List α := s.entries.map fun e => (ofLex e).2

instance : Membership α (SortedSet κ α) := ⟨fun s a => a ∈ s.members⟩

instance (a : α) (s : SortedSet κ α) : Decidable (a ∈ s) :=
  inferInstanceAs (Decidable (a ∈ s.members))

/-- ZSCORE. -/
def zscore (s : SortedSet κ α) (a : α) : Option κ :=
  (s.entries.find? fun e => (ofLex e).2 == a).map fun e => (ofLex e).1

/-- ZCARD. -/
def zcard (s : SortedSet κ α) : ℕ := s.entries.length

/-- ZREM. -/
def zrem (s : SortedSet κ α) (a : α) : SortedSet κ α where
  entries := s.entries.filter fun e => (ofLex e).2 != a
  sorted := s.sorted.filter _
  nodup := s.nodup.sublist (List.filter_sublist.map _)

theorem not_mem_zrem_entries (s : SortedSet κ α) (a : α) :
    a ∉ (s.zrem a).entries.map fun e => (ofLex e).2 := by
  simp [zrem]

/-- ZADD: a member that is present gets the new score. -/
def zadd (s : SortedSet κ α) (n : κ) (a : α) : SortedSet κ α where
  entries := (s.zrem a).entries.orderedInsert (· ≤ ·) (toLex (n, a))
  sorted := (s.zrem a).sorted.orderedInsert _ _
  nodup := by
    have hp := (List.perm_orderedInsert (· ≤ ·) (toLex (n, a)) (s.zrem a).entries).map
      fun e => (ofLex e).2
    rw [hp.nodup_iff]
    exact List.nodup_cons.mpr ⟨s.not_mem_zrem_entries a, (s.zrem a).nodup⟩

/-- ZREMRANGEBYRANK 0 0: drop the entry of rank 0. -/
def popMin (s : SortedSet κ α) : SortedSet κ α where
  entries := s.entries.tail
  sorted := s.sorted.tail
  nodup := by rw [List.map_tail]; exact s.nodup.tail

/-- ZREMRANGEBYSCORE -inf m: drop the entries up to a score. -/
def removeUpTo (s : SortedSet κ α) (m : κ) : SortedSet κ α where
  entries := s.entries.filter fun e => m < (ofLex e).1
  sorted := s.sorted.filter _
  nodup := s.nodup.sublist (List.filter_sublist.map _)

/-- ZREMRANGEBYRANK 0 -k-1: drop all but the k entries of highest rank. -/
def keepLast (s : SortedSet κ α) (k : ℕ) : SortedSet κ α where
  entries := s.entries.drop (s.entries.length - k)
  sorted := s.sorted.sublist (List.drop_sublist _ _)
  nodup := s.nodup.sublist ((List.drop_sublist _ _).map _)

/-- ZRANGEBYSCORE, with the scores. -/
def zrangebyscore (s : SortedSet κ α) (lo hi : κ) : List (κ ×ₗ α) :=
  s.entries.filter fun e => lo ≤ (ofLex e).1 && (ofLex e).1 ≤ hi

/-- ZCOUNT. -/
def zcount (s : SortedSet κ α) (lo hi : κ) : ℕ := (s.zrangebyscore lo hi).length

def first? (s : SortedSet κ α) : Option α := s.members.head?

/-! ## Scores -/

theorem mem_iff {s : SortedSet κ α} {a : α} : a ∈ s ↔ ∃ n, toLex (n, a) ∈ s.entries := by
  change a ∈ s.members ↔ _
  simp [members]

theorem zscore_eq_some {s : SortedSet κ α} {a : α} {n : κ} :
    s.zscore a = some n ↔ toLex (n, a) ∈ s.entries := by
  obtain ⟨es, hs, hn⟩ := s
  simp only [zscore]
  induction es with
  | nil => simp
  | cons e es ih =>
      obtain ⟨he, hn⟩ := List.nodup_cons.mp hn
      have ih := ih (List.pairwise_cons.mp hs).2 hn
      by_cases hea : (ofLex e).2 = a
      · have hnot : ∀ m, toLex (m, a) ∉ es := by
          intro m hm
          exact he (List.mem_map.mpr ⟨_, hm, hea.symm⟩)
        simp only [hea, beq_self_eq_true, List.find?_cons_of_pos, Option.map_some, Option.some.injEq,
          List.mem_cons, hnot, or_false]
        constructor
        · rintro rfl; rw [← hea]; rfl
        · intro h; rw [← h]; rfl
      · have hne : toLex (n, a) ≠ e := by
          rintro rfl; exact hea rfl
        simp only [beq_eq_false_iff_ne.mpr hea, Bool.false_eq_true, not_false_eq_true,
          List.find?_cons_of_neg, List.mem_cons, hne, false_or]
        exact ih

theorem zscore_isSome {s : SortedSet κ α} {a : α} : (s.zscore a).isSome ↔ a ∈ s := by
  rw [mem_iff, Option.isSome_iff_exists]
  simp only [zscore_eq_some]

/-! ## Membership after each command -/

theorem not_mem_empty (a : α) : a ∉ (empty : SortedSet κ α) := by
  rw [mem_iff]; simp [empty]

theorem mem_zrem {s : SortedSet κ α} {a b : α} : b ∈ s.zrem a ↔ b ∈ s ∧ b ≠ a := by
  rw [mem_iff, mem_iff]
  simp only [zrem, List.mem_filter, ofLex_toLex, bne_iff_ne, exists_and_right]

theorem zrem_of_not_mem {s : SortedSet κ α} {a : α} (h : a ∉ s) : s.zrem a = s := by
  have he : (s.zrem a).entries = s.entries := by
    apply List.filter_eq_self.mpr
    intro e hm
    have : (ofLex e).2 ≠ a := by
      rintro rfl; exact h (mem_iff.mpr ⟨_, hm⟩)
    simpa using this
  obtain ⟨es, _, _⟩ := s
  simpa only [zrem, mk.injEq] using he

theorem mem_zadd_entries {s : SortedSet κ α} {n : κ} {a : α} {e : κ ×ₗ α} :
    e ∈ (s.zadd n a).entries ↔ e = toLex (n, a) ∨ e ∈ s.entries ∧ (ofLex e).2 ≠ a := by
  simp [zadd, zrem, List.mem_orderedInsert]

theorem mem_zadd {s : SortedSet κ α} {n : κ} {a b : α} : b ∈ s.zadd n a ↔ b = a ∨ b ∈ s := by
  rw [mem_iff, mem_iff]
  simp only [mem_zadd_entries]
  constructor
  · rintro ⟨m, h | ⟨h, -⟩⟩
    · left; exact congrArg (fun e => (ofLex e).2) h
    · exact Or.inr ⟨m, h⟩
  · by_cases hb : b = a
    · intro _; exact ⟨n, Or.inl (by rw [hb])⟩
    · rintro (h | ⟨m, h⟩)
      · exact absurd h hb
      · exact ⟨m, Or.inr ⟨h, hb⟩⟩

theorem mem_popMin {s : SortedSet κ α} {a : α} : a ∈ s.popMin ↔ a ∈ s ∧ s.first? ≠ some a := by
  obtain ⟨es, hs, hn⟩ := s
  rw [mem_iff, mem_iff]
  cases es with
  | nil => simp [popMin]
  | cons e es =>
      obtain ⟨he, -⟩ := List.nodup_cons.mp hn
      simp only [popMin, first?, members, List.tail_cons, List.map_cons, List.head?_cons, ne_eq,
        Option.some.injEq, List.mem_cons]
      constructor
      · rintro ⟨m, h⟩
        exact ⟨⟨m, Or.inr h⟩, fun hea => he (List.mem_map.mpr ⟨_, h, hea.symm⟩)⟩
      · rintro ⟨⟨m, rfl | h⟩, hne⟩
        · exact absurd rfl hne
        · exact ⟨m, h⟩

theorem first?_mem {s : SortedSet κ α} {a : α} (h : s.first? = some a) : a ∈ s :=
  List.mem_of_head? h

/-! ## Cardinality -/

theorem zcard_zadd {s : SortedSet κ α} {n : κ} {a : α} (h : a ∉ s) :
    (s.zadd n a).zcard = s.zcard + 1 := by
  simp [zcard, zadd, List.orderedInsert_length, zrem_of_not_mem h]

theorem zcard_eq_zrem {s : SortedSet κ α} {a : α} (h : a ∈ s) : s.zcard = (s.zrem a).zcard + 1 := by
  have hm : s.members.length = (s.zrem a).members.length + 1 := by
    have he : (s.zrem a).members = s.members.erase a := by
      have hn : s.members.Nodup := s.nodup
      rw [hn.erase_eq_filter]
      simp only [members, zrem, List.filter_map]
      rfl
    rw [he, List.length_erase_of_mem h]
    have := List.length_pos_of_mem h
    omega
  simpa [members, zcard] using hm

theorem zcard_zadd_of_mem {s : SortedSet κ α} {n : κ} {a : α} (h : a ∈ s) :
    (s.zadd n a).zcard = s.zcard := by
  rw [zcard_eq_zrem h]
  simp [zcard, zadd, List.orderedInsert_length]

theorem zcard_le_of_subset {s t : SortedSet κ α} (h : ∀ a, a ∈ s → a ∈ t) : s.zcard ≤ t.zcard := by
  have hsub : s.members ⊆ t.members := fun a ha => h a ha
  have hle := (List.subperm_of_subset s.nodup hsub).length_le
  simpa [members, zcard] using hle

theorem zcard_eq_length {s : SortedSet κ α} {l : List α} (hn : l.Nodup) (h : ∀ a, a ∈ s ↔ a ∈ l) :
    s.zcard = l.length := by
  have hperm : s.members.Perm l := (List.perm_ext_iff_of_nodup s.nodup hn).mpr h
  simpa [members, zcard] using hperm.length_eq

/-! ## Rank 0 -/

theorem first?_eq_some {s : SortedSet κ α} {a : α} :
    s.first? = some a ↔ ∃ n, s.zscore a = some n ∧
      ∀ b m, s.zscore b = some m → toLex (n, a) ≤ toLex (m, b) := by
  simp only [zscore_eq_some]
  obtain ⟨es, hs, hn⟩ := s
  cases es with
  | nil => simp [first?, members]
  | cons e es =>
      obtain ⟨he, -⟩ := List.nodup_cons.mp hn
      have hle := (List.pairwise_cons.mp hs).1
      simp only [first?, members, List.map_cons, List.head?_cons, Option.some.injEq]
      constructor
      · rintro rfl
        refine ⟨(ofLex e).1, List.mem_cons_self, ?_⟩
        intro b m hm
        rcases List.mem_cons.mp hm with rfl | hm
        · exact le_refl _
        · exact hle _ hm
      · rintro ⟨n, hm, hmin⟩
        rcases List.mem_cons.mp hm with rfl | hm
        · rfl
        · have h1 := hmin (ofLex e).2 (ofLex e).1 List.mem_cons_self
          have h2 := le_antisymm h1 (hle _ hm)
          exact congrArg (fun x => (ofLex x).2) h2.symm

theorem zscore_zadd {s : SortedSet κ α} {n : κ} {a b : α} :
    (s.zadd n a).zscore b = if b = a then some n else s.zscore b := by
  apply Option.ext
  intro m
  rw [zscore_eq_some, mem_zadd_entries]
  by_cases hb : b = a
  · subst hb
    simp [eq_comm]
  · simp [hb, zscore_eq_some]

theorem first?_zadd_self {s : SortedSet κ α} {n : κ} {a : α} :
    (s.zadd n a).first? = some a ↔
      ∀ b m, b ≠ a → s.zscore b = some m → toLex (n, a) ≤ toLex (m, b) := by
  rw [first?_eq_some]
  simp only [zscore_zadd, ↓reduceIte, Option.some.injEq]
  constructor
  · rintro ⟨_, rfl, h⟩ b m hne hb
    exact h b m (by simp only [hne, ↓reduceIte, hb])
  · intro h
    refine ⟨n, rfl, fun b m hb => ?_⟩
    split at hb
    · cases hb; subst b; exact le_refl _
    · exact h b m ‹_› hb

theorem first?_zadd_other {s : SortedSet κ α} {n : κ} {a o : α} (hne : o ≠ a) :
    (s.zadd n a).first? = some o ↔ ∃ l, s.zscore o = some l ∧ toLex (l, o) ≤ toLex (n, a) ∧
      ∀ b m, b ≠ a → s.zscore b = some m → toLex (l, o) ≤ toLex (m, b) := by
  rw [first?_eq_some]
  simp only [zscore_zadd, hne, ↓reduceIte]
  constructor
  · rintro ⟨l, hl, h⟩
    refine ⟨l, hl, h a n (by simp), fun b m hb hm => ?_⟩
    exact h b m (by simp only [hb, ↓reduceIte, hm])
  · rintro ⟨l, hl, ha, h⟩
    refine ⟨l, hl, fun b m hm => ?_⟩
    split at hm
    · cases hm; subst b; exact ha
    · exact h b m ‹_› hm

theorem exists_first? {s : SortedSet κ α} {a : α} (h : a ∈ s) : ∃ b, s.first? = some b := by
  have hne : s.members ≠ [] := List.ne_nil_of_mem h
  obtain ⟨b, bs, hb⟩ := List.exists_cons_of_ne_nil hne
  exact ⟨b, by simp [first?, hb]⟩

/-! ## The entries as a set -/

theorem entries_nodup (s : SortedSet κ α) : s.entries.Nodup := s.nodup.of_map _

theorem entries_strict (s : SortedSet κ α) : s.entries.Pairwise (· < ·) :=
  (s.sorted.and s.entries_nodup).imp fun h => lt_of_le_of_ne h.1 h.2

theorem zadd_entries {s : SortedSet κ α} {n : κ} {a : α} (h : a ∉ s) :
    (s.zadd n a).entries.toFinset = insert (toLex (n, a)) s.entries.toFinset := by
  ext e
  simp only [List.mem_toFinset, Finset.mem_insert, mem_zadd_entries]
  refine or_congr_right (and_iff_left_of_imp fun he hmember => h ?_)
  exact mem_iff.mpr ⟨(ofLex e).1, by rwa [← hmember]⟩

theorem removeUpTo_entries (s : SortedSet κ α) (m : κ) :
    (s.removeUpTo m).entries.toFinset = s.entries.toFinset.filter fun e => m < (ofLex e).1 := by
  ext e
  simp [removeUpTo]

theorem mem_of_mem_removeUpTo {s : SortedSet κ α} {m : κ} {e : κ ×ₗ α}
    (h : e ∈ (s.removeUpTo m).entries) : e ∈ s.entries ∧ m < (ofLex e).1 := by
  simpa [removeUpTo] using h

theorem mem_of_mem_keepLast {s : SortedSet κ α} {k : ℕ} {e : κ ×ₗ α} (h : e ∈ (s.keepLast k).entries) :
    e ∈ s.entries :=
  List.mem_of_mem_drop h

theorem keepLast_entries (s : SortedSet κ α) (k : ℕ) :
    (s.keepLast k).entries.toFinset = greatest k s.entries.toFinset :=
  toFinset_drop s.entries_strict k

end SortedSet

end NeuralSoc
