import Mathlib.Data.List.Induction
import Mathlib.Order.Lattice

/-!
# Queues that slide along a run

A queue gets each element at its end and drops from its front what is older than the cutoff of that element.
While keys and cutoffs grow along the run, it holds exactly the elements that the last cutoff lets in.
-/

namespace NeuralSoc

variable {α β κ : Type*} [LinearOrder κ]

/-- Drop from the front while `old` holds, taking each element out of an accumulated value. -/
def expire (old : α → Bool) (remove : β → α → β) : List α → β → List α × β
  | [], acc => ([], acc)
  | x :: q, acc => if old x then expire old remove q (remove acc x) else (x :: q, acc)

variable {old : α → Bool} {remove : β → α → β}

theorem expire_fst (q : List α) (acc : β) : (expire old remove q acc).1 = q.dropWhile old := by
  induction q generalizing acc with
  | nil => rfl
  | cons x q ih =>
      rw [expire, List.dropWhile_cons]
      split
      · exact ih _
      · rfl

theorem expire_of_none {q : List α} (h : ∀ x ∈ q, old x = false) (acc : β) :
    expire old remove q acc = (q, acc) := by
  cases q with
  | nil => rfl
  | cons x q => rw [expire, h x (List.mem_cons_self ..), if_neg Bool.false_ne_true]

theorem expire_keeps (old : α → Bool) (remove : β → α → β) {fits : List α → List α → β → Prop}
    (hstep : ∀ dropped x q acc, fits dropped (x :: q) acc → fits (dropped ++ [x]) q (remove acc x))
    {dropped q : List α} {acc : β} (h : fits dropped q acc) :
    ∃ dropped', dropped' ++ (expire old remove q acc).1 = dropped ++ q ∧
      fits dropped' (expire old remove q acc).1 (expire old remove q acc).2 := by
  induction q generalizing dropped acc with
  | nil => exact ⟨dropped, rfl, h⟩
  | cons x q ih =>
      rw [expire]
      split
      · obtain ⟨dropped', happend, hfits⟩ := ih (hstep dropped x q acc h)
        exact ⟨dropped', by rw [happend, List.append_assoc, List.singleton_append], hfits⟩
      · exact ⟨dropped, rfl, h⟩

/-! ## Windows -/

variable {key cutoff : α → κ}

def slide (key cutoff : α → κ) (q : List α) (x : α) : List α :=
  (q ++ [x]).dropWhile fun y => key y < cutoff x

theorem dropWhile_eq_filter {l : List α} (hl : l.Pairwise (key · ≤ key ·)) (c : κ) :
    l.dropWhile (fun y => key y < c) = l.filter fun y => c ≤ key y := by
  induction l with
  | nil => rfl
  | cons x l ih =>
      obtain ⟨hx, hl⟩ := List.pairwise_cons.mp hl
      by_cases hold : key x < c
      · rw [List.dropWhile_cons_of_pos (by simpa using hold), List.filter_cons_of_neg (by simpa using hold)]
        exact ih hl
      · have hall : ∀ y ∈ x :: l, decide (c ≤ key y) = true := by
          intro y hy
          rcases List.mem_cons.mp hy with rfl | hy
          · simpa using hold
          · simpa using (not_lt.mp hold).trans (hx y hy)
        rw [List.dropWhile_cons_of_neg (by simpa using hold), List.filter_eq_self.mpr hall]

theorem slide_sublist (xs : List α) : (xs.foldl (slide key cutoff) []).Sublist xs := by
  induction xs using List.reverseRecOn with
  | nil => exact List.Sublist.refl []
  | append_singleton xs x ih =>
      rw [List.foldl_append]
      exact (List.dropWhile_sublist _).trans (ih.append_right [x])

theorem slide_filter {xs : List α} (hkey : xs.Pairwise (key · ≤ key ·)) {c : κ}
    (hc : ∀ x ∈ xs, cutoff x ≤ c) :
    (xs.foldl (slide key cutoff) []).filter (fun y => c ≤ key y) = xs.filter fun y => c ≤ key y := by
  induction xs using List.reverseRecOn with
  | nil => rfl
  | append_singleton xs x ih =>
      have hqueue : ((xs.foldl (slide key cutoff) []) ++ [x]).Pairwise (key · ≤ key ·) :=
        hkey.sublist ((slide_sublist xs).append_right [x])
      have hcut : cutoff x ≤ c := hc x (by simp)
      have hsame : ∀ y, (decide (c ≤ key y) && decide (cutoff x ≤ key y)) = decide (c ≤ key y) := fun y => by
        simpa using fun h => hcut.trans h
      have ih := ih (List.pairwise_append.mp hkey).1 fun y hy => hc y (List.mem_append_left _ hy)
      rw [List.foldl_append, List.foldl_cons, List.foldl_nil, slide, dropWhile_eq_filter hqueue,
        List.filter_filter, List.filter_congr fun y _ => hsame y, List.filter_append, List.filter_append, ih]

theorem slide_run {xs : List α} {x : α} (hkey : (xs ++ [x]).Pairwise (key · ≤ key ·))
    (hcutoff : ∀ y ∈ xs, cutoff y ≤ cutoff x) :
    (xs ++ [x]).foldl (slide key cutoff) [] = (xs ++ [x]).filter fun y => cutoff x ≤ key y := by
  have hqueue : ((xs.foldl (slide key cutoff) []) ++ [x]).Pairwise (key · ≤ key ·) :=
    hkey.sublist ((slide_sublist xs).append_right [x])
  rw [List.foldl_append, List.foldl_cons, List.foldl_nil, slide, dropWhile_eq_filter hqueue,
    List.filter_append, List.filter_append, slide_filter (List.pairwise_append.mp hkey).1 hcutoff]

/-- A list whose front has been dropped, down to what the cutoff lets in, has lost the older elements only. -/
theorem mem_dropped_iff {l dropped q : List α} {c : κ} (happend : dropped ++ q = l)
    (hq : q = l.filter fun y => c ≤ key y) {x : α} : x ∈ dropped ↔ x ∈ l ∧ key x < c := by
  have hnone : dropped.filter (fun y => c ≤ key y) = [] := by
    have hall : q.filter (fun y => c ≤ key y) = q := by
      rw [hq, List.filter_filter]
      simp
    have hsplit : dropped.filter (fun y => c ≤ key y) ++ q = q := by
      conv_rhs => rw [hq, ← happend, List.filter_append, hall]
    simpa using hsplit
  have hold : ∀ y ∈ dropped, key y < c := fun y hy => by
    simpa using List.filter_eq_nil_iff.mp hnone y hy
  constructor
  · intro hx
    exact ⟨happend ▸ List.mem_append_left q hx, hold x hx⟩
  · rintro ⟨hx, hlt⟩
    rw [← happend, List.mem_append] at hx
    refine hx.resolve_right fun hmem => ?_
    rw [hq, List.mem_filter, decide_eq_true_eq] at hmem
    exact absurd hmem.2 hlt.not_ge

end NeuralSoc
