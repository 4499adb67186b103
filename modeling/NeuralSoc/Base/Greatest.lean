import Mathlib.Data.Finset.Max
import Mathlib.Data.List.Sort

/-!
# The greatest elements of a set

`greatest k s` holds the `k` greatest elements of `s`. A set that never keeps more than that, whatever order
its elements come in, has lost none of the greatest ones at the end.
-/

namespace NeuralSoc

variable {α : Type*} [LinearOrder α] {k : ℕ} {s : Finset α} {a x : α}

/-- The elements with fewer than `k` others above them. -/
def greatest (k : ℕ) (s : Finset α) : Finset α := {x ∈ s | {y ∈ s | x < y}.card < k}

theorem mem_greatest : x ∈ greatest k s ↔ x ∈ s ∧ {y ∈ s | x < y}.card < k := Finset.mem_filter

theorem greatest_subset (k : ℕ) (s : Finset α) : greatest k s ⊆ s := Finset.filter_subset _ _

theorem greatest_of_card_le (h : s.card ≤ k) : greatest k s = s := by
  refine Finset.filter_true_of_mem fun x hx => ?_
  have hproper : {y ∈ s | x < y} ⊂ s := Finset.filter_ssubset.mpr ⟨x, hx, lt_irrefl x⟩
  exact (Finset.card_lt_card hproper).trans_le h

theorem filter_greatest (U : α → Prop) [DecidablePred U] (hupper : ∀ x y, x ≤ y → U x → U y) (k : ℕ)
    (s : Finset α) : (greatest k s).filter U = greatest k (s.filter U) := by
  have habove : ∀ x, U x → {y ∈ s.filter U | x < y} = {y ∈ s | x < y} := by
    intro x hx
    ext y
    simp only [Finset.mem_filter, and_assoc, and_congr_right_iff, and_iff_right_iff_imp]
    exact fun _ hxy => hupper x y hxy.le hx
  ext x
  simp only [Finset.mem_filter, mem_greatest]
  constructor
  · rintro ⟨⟨hx, hcard⟩, hU⟩
    exact ⟨⟨hx, hU⟩, by rwa [habove x hU]⟩
  · rintro ⟨⟨hx, hU⟩, hcard⟩
    exact ⟨⟨hx, by rwa [habove x hU] at hcard⟩, hU⟩

theorem greatest_insert_min (h : ∀ x ∈ s, a < x) (k : ℕ) :
    greatest k (insert a s) = if s.card < k then insert a (greatest k s) else greatest k s := by
  have ha : a ∉ s := fun hmem => lt_irrefl a (h a hmem)
  have hself : {y ∈ insert a s | a < y} = s := by
    rw [Finset.filter_insert, if_neg (lt_irrefl a), Finset.filter_true_of_mem h]
  have hother : ∀ x ∈ s, {y ∈ insert a s | x < y} = {y ∈ s | x < y} := fun x hx => by
    rw [Finset.filter_insert, if_neg (h x hx).not_gt]
  ext x
  by_cases hx : x = a
  · subst hx
    simp only [mem_greatest, hself, Finset.mem_insert_self, true_and]
    split
    · next hroom => simp [hroom]
    · next hfull => simp [hfull, mem_greatest, ha]
  · have hinsert : x ∈ greatest k (insert a s) ↔ x ∈ greatest k s := by
      rw [mem_greatest, mem_greatest, Finset.mem_insert, or_iff_right hx]
      exact and_congr_right fun hmem => by rw [hother x hmem]
    rw [hinsert]
    split
    · rw [Finset.mem_insert, or_iff_right hx]
    · rfl

theorem card_greatest (k : ℕ) (s : Finset α) : (greatest k s).card = min k s.card := by
  induction s using Finset.induction_on_min with
  | empty => simp [greatest]
  | insert a s hmin ih =>
      have ha : a ∉ s := fun hmem => lt_irrefl a (hmin a hmem)
      rw [greatest_insert_min hmin, Finset.card_insert_of_notMem ha]
      split
      · next hroom =>
          rw [Finset.card_insert_of_notMem fun hmem => ha (greatest_subset k s hmem), ih]
          omega
      · next hfull =>
          rw [ih]
          omega

theorem greatest_insert_greatest (a : α) (k : ℕ) (s : Finset α) :
    greatest k (insert a (greatest k s)) = greatest k (insert a s) := by
  have hsub : insert a (greatest k s) ⊆ insert a s := Finset.insert_subset_insert a (greatest_subset k s)
  ext x
  rw [mem_greatest, mem_greatest]
  constructor
  · rintro ⟨hx, hcard⟩
    refine ⟨hsub hx, ?_⟩
    -- all that lies above `x` has been kept
    have habove : {y ∈ s | x < y} ⊆ greatest k s := by
      intro y hy
      obtain ⟨hys, hxy⟩ := Finset.mem_filter.mp hy
      have hkept : (greatest k {z ∈ s | x < z}).card < k := by
        rw [← filter_greatest (x < ·) (fun _ _ hle hlt => hlt.trans_le hle)]
        refine (Finset.card_le_card ?_).trans_lt hcard
        exact Finset.filter_subset_filter _ (Finset.subset_insert a _)
      rw [card_greatest] at hkept
      refine mem_greatest.mpr ⟨hys, lt_of_le_of_lt ?_ (show {z ∈ s | x < z}.card < k by omega)⟩
      exact Finset.card_le_card (Finset.monotone_filter_right s fun z _ hyz => hxy.trans hyz)
    refine (Finset.card_le_card ?_).trans_lt hcard
    intro y hy
    obtain ⟨hmem, hxy⟩ := Finset.mem_filter.mp hy
    refine Finset.mem_filter.mpr ⟨?_, hxy⟩
    rcases Finset.mem_insert.mp hmem with rfl | hys
    · exact Finset.mem_insert_self _ _
    · exact Finset.mem_insert_of_mem (habove (Finset.mem_filter.mpr ⟨hys, hxy⟩))
  · rintro ⟨hx, hcard⟩
    constructor
    · rcases Finset.mem_insert.mp hx with rfl | hxs
      · exact Finset.mem_insert_self _ _
      · refine Finset.mem_insert_of_mem (mem_greatest.mpr ⟨hxs, lt_of_le_of_lt ?_ hcard⟩)
        exact Finset.card_le_card (Finset.filter_subset_filter _ (Finset.subset_insert a s))
    · exact (Finset.card_le_card (Finset.filter_subset_filter _ hsub)).trans_lt hcard

theorem toFinset_drop {l : List α} (hl : l.Pairwise (· < ·)) (k : ℕ) :
    (l.drop (l.length - k)).toFinset = greatest k l.toFinset := by
  induction l with
  | nil => simp [greatest]
  | cons a l ih =>
      obtain ⟨hmin, hl⟩ := List.pairwise_cons.mp hl
      have hcard : l.toFinset.card = l.length := List.toFinset_card_of_nodup (hl.imp ne_of_lt)
      rw [List.toFinset_cons, greatest_insert_min (by simpa using hmin), hcard, List.length_cons]
      split
      · next hroom =>
          rw [Nat.sub_eq_zero_of_le (Nat.succ_le_of_lt hroom), List.drop_zero, List.toFinset_cons,
            greatest_of_card_le (hcard.trans_le hroom.le)]
      · next hfull =>
          rw [Nat.succ_sub (not_lt.mp hfull), List.drop_succ_cons]
          exact ih hl

end NeuralSoc
