import Mathlib.Data.Nat.Basic
import Mathlib.Tactic.Ring

/-!
# Windows along a text

A loop moves a window over a text in equal steps and leaves when it has taken its budget. If it comes to the
end before, a last window covers the rest.
-/

namespace NeuralSoc

variable {α : Type*}

/-- A loop that appends every element it meets and leaves once it holds `budget` of them. -/
def collectUpTo (budget : ℕ) (acc : List α) : List α → List α
  | [] => acc
  | x :: xs => if budget ≤ (acc ++ [x]).length then acc ++ [x] else collectUpTo budget (acc ++ [x]) xs

theorem collectUpTo_eq {budget : ℕ} {acc : List α} (h : acc.length < budget) (xs : List α) :
    collectUpTo budget acc xs = acc ++ xs.take (budget - acc.length) := by
  induction xs generalizing acc with
  | nil => rw [collectUpTo, List.take_nil, List.append_nil]
  | cons x xs ih =>
      obtain ⟨room, hroom⟩ : ∃ room, budget - acc.length = room + 1 := ⟨budget - acc.length - 1, by omega⟩
      rw [collectUpTo, hroom, List.take_succ_cons]
      simp only [List.length_append, List.length_singleton]
      split
      · next hfull =>
          obtain rfl : room = 0 := by omega
          rw [List.take_zero]
      · next hfull =>
          have hrest : budget - (acc ++ [x]).length = room := by simp; omega
          rw [ih (by simp; omega), hrest, List.append_assoc, List.singleton_append]

/-- `range(0, stop, step)` -/
def stepsBelow (stop step : ℕ) : List ℕ := (List.range ((stop + step - 1) / step)).map (· * step)

/-- Where the windows over a text of length `len` start. -/
def windowStarts (width step budget len : ℕ) : List ℕ :=
  let starts := collectUpTo budget [] (stepsBelow (len - width + 1) step)
  if starts.length < budget ∧ (len - width) % step ≠ 0 then starts ++ [len - width] else starts

variable {width step budget len : ℕ}

theorem windowStarts_eq (hstep : 0 < step) (hbudget : 0 < budget) :
    windowStarts width step budget len =
      (List.range (min budget ((len - width) / step + 1))).map (· * step) ++
        if (len - width) / step + 1 < budget ∧ (len - width) % step ≠ 0 then [len - width] else [] := by
  have hcount : (len - width + 1 + step - 1) / step = (len - width) / step + 1 := by
    rw [show len - width + 1 + step - 1 = len - width + step by omega, Nat.add_div_right _ hstep]
  have hstarts : collectUpTo budget [] (stepsBelow (len - width + 1) step) =
      (List.range (min budget ((len - width) / step + 1))).map (· * step) := by
    rw [collectUpTo_eq (by exact hbudget), List.nil_append, List.length_nil, Nat.sub_zero, stepsBelow,
      hcount, ← List.map_take, List.take_range]
  unfold windowStarts
  simp only [hstarts, List.length_map, List.length_range, min_lt_iff, lt_irrefl, false_or]
  split
  · rfl
  · rw [List.append_nil]

theorem length_windowStarts_le (hstep : 0 < step) (hbudget : 0 < budget) :
    (windowStarts width step budget len).length ≤ budget := by
  rw [windowStarts_eq hstep hbudget, List.length_append, List.length_map, List.length_range]
  split
  · next h => simp only [List.length_singleton]; omega
  · simp

theorem mem_windowStarts (hstep : 0 < step) (hbudget : 0 < budget) {start : ℕ} :
    start ∈ windowStarts width step budget len ↔
      (∃ i, i < budget ∧ i ≤ (len - width) / step ∧ start = i * step) ∨
        ((len - width) / step + 1 < budget ∧ (len - width) % step ≠ 0 ∧ start = len - width) := by
  rw [windowStarts_eq hstep hbudget, List.mem_append, List.mem_map]
  refine or_congr ⟨?_, ?_⟩ ?_
  · rintro ⟨i, hi, rfl⟩
    rw [List.mem_range] at hi
    exact ⟨i, by omega, by omega, rfl⟩
  · rintro ⟨i, hi, hle, rfl⟩
    exact ⟨i, List.mem_range.mpr (by omega), rfl⟩
  · split
    · next h => simp [h]
    · next h =>
        simp only [List.not_mem_nil, false_iff]
        exact fun h' => h ⟨h'.1, h'.2.1⟩

theorem start_add_width_le (hstep : 0 < step) (hbudget : 0 < budget) (hlen : width ≤ len) {start : ℕ}
    (h : start ∈ windowStarts width step budget len) : start + width ≤ len := by
  obtain ⟨i, -, hle, rfl⟩ | ⟨-, -, rfl⟩ := (mem_windowStarts hstep hbudget).mp h
  · have := (Nat.le_div_iff_mul_le hstep).mp hle
    omega
  · omega

/-- The windows see what comes before the end of the last one that the budget pays for. -/
theorem exists_windowStart_iff (hstep : 0 < step) (hwidth : step ≤ width) (hbudget : 0 < budget)
    (hlen : width ≤ len) {j : ℕ} (hj : j < len) :
    (∃ start ∈ windowStarts width step budget len, start ≤ j ∧ j < start + width) ↔
      j < (budget - 1) * step + width := by
  have hdivmod := Nat.div_add_mod' (len - width) step
  have hmod := Nat.mod_lt (len - width) hstep
  constructor
  · rintro ⟨start, hstart, -, hend⟩
    obtain ⟨i, hi, -, rfl⟩ | ⟨hcount, -, rfl⟩ := (mem_windowStarts hstep hbudget).mp hstart
    · have : i * step ≤ (budget - 1) * step := Nat.mul_le_mul_right step (by omega)
      omega
    · have : ((len - width) / step + 1) * step ≤ (budget - 1) * step :=
        Nat.mul_le_mul_right step (by omega)
      rw [Nat.succ_mul] at this
      omega
  · intro hreach
    have hjmod := Nat.div_add_mod' j step
    have hjlt := Nat.mod_lt j hstep
    by_cases hend : (len - width) / step + 1 < budget ∧ len - width ≤ j ∧ (len - width) % step ≠ 0
    · exact ⟨len - width, (mem_windowStarts hstep hbudget).mpr (.inr ⟨hend.1, hend.2.2, rfl⟩), hend.2.1,
        by omega⟩
    · -- the last start at or before `j`
      refine ⟨min (j / step) (min (budget - 1) ((len - width) / step)) * step,
        (mem_windowStarts hstep hbudget).mpr (.inl ⟨_, by omega, by omega, rfl⟩), ?_, ?_⟩
      · exact le_trans (Nat.mul_le_mul_right step (min_le_left _ _)) (by omega)
      · rcases le_or_gt (j / step) (min (budget - 1) ((len - width) / step)) with h | h
        · rw [min_eq_left h]
          omega
        · rw [min_eq_right h.le]
          rcases le_or_gt (budget - 1) ((len - width) / step) with hb | hb
          · rw [min_eq_left hb]
            exact hreach
          · rw [min_eq_right hb.le]
            rw [min_eq_right hb.le] at h
            have hlast : (len - width) / step * step + step ≤ j / step * step := by
              rw [← Nat.succ_mul]
              exact Nat.mul_le_mul_right step h
            have hzero : (len - width) % step = 0 := by
              by_contra hne
              exact hend ⟨by omega, by omega, hne⟩
            omega

end NeuralSoc
