import Mathlib.Data.List.Sort
import Mathlib.Data.Set.Basic

/-!
# Paging by key

A client reads a table from its greatest key down: each page holds the greatest keys below the last one it has
seen, and 0 stands for the beginning. The table may change between the pages as long as it loses no key.
-/

namespace NeuralSoc

def Below (cursor i : ℕ) : Prop := cursor = 0 ∨ i < cursor

/-- A page is empty only if no key is left, and holds no key without those above it. -/
structure IsPage (ids : Set ℕ) (cursor : ℕ) (page : List ℕ) : Prop where
  descending : page.Pairwise (· > ·)
  sound : ∀ i ∈ page, i ∈ ids ∧ Below cursor i
  rest : ∀ i ∈ ids, Below cursor i → i ∈ page ∨ page ≠ [] ∧ ∀ j ∈ page, i < j

/-- The client begins at 0 and goes on below the last key of each page, as long as the pages are not empty. -/
structure Follows (ids : ℕ → Set ℕ) (cursors : ℕ → ℕ) (pages : ℕ → List ℕ) : Prop where
  kept : ∀ k i, i ∈ ids k → i ∈ ids (k + 1)
  positive : ∀ k i, i ∈ ids k → 0 < i
  start : cursors 0 = 0
  next : ∀ k i, (pages k).getLast? = some i → cursors (k + 1) = i
  isPage : ∀ k, (∀ j < k, pages j ≠ []) → IsPage (ids k) (cursors k) (pages k)

namespace Follows

variable {ids : ℕ → Set ℕ} {cursors : ℕ → ℕ} {pages : ℕ → List ℕ} (h : Follows ids cursors pages)
include h

theorem kept_from_start {i : ℕ} (hi : i ∈ ids 0) (k : ℕ) : i ∈ ids k := by
  induction k with
  | zero => exact hi
  | succ k ih => exact h.kept k i ih

/-- The cursor after a page is its least key. -/
theorem cursor_succ {k : ℕ} (hne : ∀ j < k + 1, pages j ≠ []) :
    cursors (k + 1) ∈ pages k ∧ ∀ i ∈ pages k, cursors (k + 1) ≤ i := by
  have hpage := h.isPage k fun j hj => hne j (by omega)
  obtain ⟨front, last, hlast⟩ := (List.eq_nil_or_concat' (pages k)).resolve_left (hne k (by omega))
  have hcursor : cursors (k + 1) = last := h.next k last (by simp [hlast])
  refine ⟨by simp [hlast, hcursor], fun i hi => ?_⟩
  rw [hlast] at hi
  rcases List.mem_append.mp hi with hi | hi
  · have hpairs := hpage.descending
    rw [hlast, List.pairwise_append] at hpairs
    rw [hcursor]
    exact (hpairs.2.2 i hi last List.mem_cons_self).le
  · rw [hcursor, List.mem_singleton.mp hi]

theorem cursor_pos {k : ℕ} (hne : ∀ j < k + 1, pages j ≠ []) : 0 < cursors (k + 1) := by
  have hpage := h.isPage k fun j hj => hne j (by omega)
  exact h.positive k _ (hpage.sound _ (h.cursor_succ hne).1).1

/-- Each page lies below the cursor before it. -/
theorem cursor_lt {k : ℕ} (hne : ∀ j < k + 1 + 1, pages j ≠ []) : cursors (k + 1 + 1) < cursors (k + 1) := by
  have hpage := h.isPage (k + 1) fun j hj => hne j (by omega)
  have hpos := h.cursor_pos (k := k) fun j hj => hne j (by omega)
  rcases (hpage.sound _ (h.cursor_succ (k := k + 1) hne).1).2 with hzero | hlt
  · omega
  · exact hlt

theorem cursor_add_le {k : ℕ} (hne : ∀ j < k + 1, pages j ≠ []) : cursors (k + 1) + k ≤ cursors 1 := by
  induction k with
  | zero => exact le_rfl
  | succ k ih =>
      have hlt := h.cursor_lt hne
      have := ih fun j hj => hne j (by omega)
      omega

theorem exists_empty_page : ∃ n, pages n = [] ∧ ∀ k < n, pages k ≠ [] := by
  have hsome : ∃ n, pages n = [] := by
    by_contra hall
    push Not at hall
    have := h.cursor_add_le (k := cursors 1 + 1) fun j _ => hall j
    omega
  classical
  exact ⟨Nat.find hsome, Nat.find_spec hsome, fun k hk => Nat.find_min hsome hk⟩

/-- What the pages before the `k`-th hold together: keys down to the cursor, each once, and all keys of the start
above it. -/
theorem emitted {k : ℕ} (hne : ∀ j < k, pages j ≠ []) :
    ((List.range k).flatMap pages).Pairwise (· > ·) ∧
      (∀ i ∈ (List.range k).flatMap pages, cursors k ≤ i) ∧
      ∀ i ∈ ids 0, i ∈ (List.range k).flatMap pages ∨ Below (cursors k) i := by
  induction k with
  | zero => exact ⟨.nil, by simp, fun i _ => .inr (.inl h.start)⟩
  | succ k ih =>
      obtain ⟨hdesc, hge, hcover⟩ := ih fun j hj => hne j (by omega)
      have hpage := h.isPage k fun j hj => hne j (by omega)
      obtain ⟨hmem, hleast⟩ := h.cursor_succ hne
      have hlt : ∀ i ∈ (List.range k).flatMap pages, ∀ j ∈ pages k, j < i := by
        intro i hi j hj
        rcases (hpage.sound j hj).2 with hzero | hlt
        · -- only the first page has no cursor
          cases k with
          | zero => cases hi
          | succ k => exact absurd hzero (h.cursor_pos fun j hj => hne j (by omega)).ne'
        · exact lt_of_lt_of_le hlt (hge i hi)
      rw [List.range_succ, List.flatMap_append, List.flatMap_singleton]
      refine ⟨List.pairwise_append.mpr ⟨hdesc, hpage.descending, hlt⟩, fun i hi => ?_, fun i hi => ?_⟩
      · rcases List.mem_append.mp hi with hi | hi
        · exact (hlt i hi _ hmem).le
        · exact hleast i hi
      · rcases hcover i hi with hin | hbelow
        · exact .inl (List.mem_append_left _ hin)
        · rcases hpage.rest i (h.kept_from_start hi k) hbelow with hin | ⟨-, hlt⟩
          · exact .inl (List.mem_append_right _ hin)
          · exact .inr (.inr (hlt _ hmem))

/-- The pages come to an end, descend strictly, and hold every key of the start. -/
theorem complete :
    ∃ n, pages n = [] ∧ (∀ k < n, pages k ≠ []) ∧ ((List.range n).flatMap pages).Pairwise (· > ·) ∧
      ∀ i ∈ ids 0, i ∈ (List.range n).flatMap pages := by
  obtain ⟨n, hempty, hne⟩ := h.exists_empty_page
  obtain ⟨hdesc, -, hcover⟩ := h.emitted hne
  refine ⟨n, hempty, hne, hdesc, fun i hi => ?_⟩
  rcases hcover i hi with hin | hbelow
  · exact hin
  · rcases (h.isPage n hne).rest i (h.kept_from_start hi n) hbelow with hin | ⟨hpage, -⟩
    · rw [hempty] at hin
      cases hin
    · exact absurd hempty hpage

end Follows

/-! ## Sorted tables -/

/-- The greatest keys below a cursor, as a query with a descending order and a limit finds them. -/
theorem isPage_take {α : Type*} {ids : Set ℕ} {cursor limit : ℕ} {rows : List (ℕ × α)}
    (hrows : ∀ i, i ∈ rows.map Prod.fst ↔ i ∈ ids ∧ Below cursor i) (hn : (rows.map Prod.fst).Nodup)
    (hlimit : 0 < limit) :
    IsPage ids cursor (((rows.mergeSort fun a b => b.1 ≤ a.1).take limit).map Prod.fst) := by
  set sorted := (rows.mergeSort fun a b => b.1 ≤ a.1).map Prod.fst with hsorted
  have hperm : sorted.Perm (rows.map Prod.fst) := (List.mergeSort_perm _ _).map _
  have hdesc : sorted.Pairwise (· > ·) := by
    have hle : (rows.mergeSort fun a b => b.1 ≤ a.1).Pairwise fun a b => b.1 ≤ a.1 := by
      refine (List.pairwise_mergeSort (fun a b c hab hbc => ?_) (fun a b => ?_) rows).imp of_decide_eq_true
      · exact decide_eq_true (le_trans (of_decide_eq_true hbc) (of_decide_eq_true hab))
      · simpa using le_total b.1 a.1
    have hne : sorted.Pairwise (· ≠ ·) := hperm.nodup_iff.mpr hn
    exact (List.pairwise_map.mpr hle).imp₂ (fun _ _ hle hne => lt_of_le_of_ne hle (Ne.symm hne)) hne
  have hmem : ∀ i, i ∈ sorted ↔ i ∈ ids ∧ Below cursor i := fun i => hperm.mem_iff.trans (hrows i)
  have hsplit := List.take_append_drop limit sorted
  rw [List.map_take, ← hsorted]
  refine ⟨hdesc.sublist (List.take_sublist _ _), fun i hi => (hmem i).mp (List.mem_of_mem_take hi),
    fun i hi hbelow => ?_⟩
  have hin := (hmem i).mpr ⟨hi, hbelow⟩
  rw [← hsplit] at hin
  rcases List.mem_append.mp hin with hin | hin
  · exact .inl hin
  · refine .inr ⟨fun hnil => ?_, fun j hj => ?_⟩
    · rcases List.take_eq_nil_iff.mp hnil with hzero | hempty
      · omega
      · rw [hempty] at hin
        simp at hin
    · rw [← hsplit, List.pairwise_append] at hdesc
      exact hdesc.2.2 j hj i hin

end NeuralSoc
