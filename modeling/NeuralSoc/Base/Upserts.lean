import Mathlib.Logic.Function.Basic
import Mathlib.Data.List.Induction

/-!
# Upserts by key

Writing a list of values into a map, each under its own key. The last value of a key stays.
-/

namespace NeuralSoc

variable {κ α : Type*} [DecidableEq κ] (key : α → κ)

/-- The map after the values have been written one after the other. -/
def upserts (m : κ → Option α) (values : List α) : κ → Option α :=
  values.foldl (fun m v => Function.update m (key v) (some v)) m

variable {key}

theorem upserts_nil (m : κ → Option α) : upserts key m [] = m := rfl

theorem upserts_cons (m : κ → Option α) (v : α) (vs : List α) :
    upserts key m (v :: vs) = upserts key (Function.update m (key v) (some v)) vs := rfl

theorem upserts_append (m : κ → Option α) (vs ws : List α) :
    upserts key m (vs ++ ws) = upserts key (upserts key m vs) ws := List.foldl_append

theorem upserts_apply (m : κ → Option α) (vs : List α) (k : κ) :
    upserts key m vs k = ((vs.filter fun v => key v = k).getLast?).or (m k) := by
  induction vs using List.reverseRecOn with
  | nil => rfl
  | append_singleton vs v ih =>
      rw [upserts_append, upserts_cons, upserts_nil, List.filter_append]
      by_cases hk : key v = k
      · subst hk
        simp
      · simp [Function.update_of_ne (Ne.symm hk), ih, hk]

theorem upserts_partition (m : κ → Option α) (vs : List α) (p : κ → Bool) :
    upserts key m ((vs.filter fun v => p (key v)) ++ vs.filter fun v => !p (key v)) = upserts key m vs := by
  funext k
  rw [upserts_apply, upserts_apply, List.filter_append]
  congr 2
  simp only [List.filter_filter]
  cases hp : p k with
  | true =>
      have hin : (vs.filter fun v => decide (key v = k) && p (key v)) = vs.filter fun v => key v = k := by
        apply List.filter_congr
        intro v _
        by_cases hv : key v = k <;> simp [hv, hp]
      have hout : (vs.filter fun v => decide (key v = k) && !p (key v)) = [] := by
        rw [List.filter_eq_nil_iff]
        intro v _
        by_cases hv : key v = k <;> simp [hv, hp]
      rw [hin, hout, List.append_nil]
  | false =>
      have hin : (vs.filter fun v => decide (key v = k) && p (key v)) = [] := by
        rw [List.filter_eq_nil_iff]
        intro v _
        by_cases hv : key v = k <;> simp [hv, hp]
      have hout : (vs.filter fun v => decide (key v = k) && !p (key v)) = vs.filter fun v => key v = k := by
        apply List.filter_congr
        intro v _
        by_cases hv : key v = k <;> simp [hv, hp]
      rw [hin, hout, List.nil_append]

theorem upserts_upserts (m : κ → Option α) (vs : List α) :
    upserts key (upserts key m vs) vs = upserts key m vs := by
  funext k
  rw [upserts_apply (upserts key m vs), upserts_apply m]
  cases (vs.filter fun v => key v = k).getLast? <;> rfl

theorem upserts_isSome {m : κ → Option α} {vs : List α} {v : α} (h : v ∈ vs) :
    (upserts key m vs (key v)).isSome := by
  rw [upserts_apply]
  cases hlast : (vs.filter fun w => key w = key v).getLast? with
  | some w => rfl
  | none =>
      rw [List.getLast?_eq_none_iff, List.filter_eq_nil_iff] at hlast
      exact absurd (decide_eq_true rfl) (hlast v h)

variable (key) in
/-- A key has the value of before, or one that was written. -/
theorem upserts_cases (m : κ → Option α) (vs : List α) (k : κ) :
    upserts key m vs k = m k ∨ ∃ v ∈ vs, key v = k ∧ upserts key m vs k = some v := by
  rw [upserts_apply]
  cases hlast : (vs.filter fun v => key v = k).getLast? with
  | none => exact .inl rfl
  | some v =>
      have hv := List.mem_filter.mp (List.mem_of_getLast? hlast)
      exact .inr ⟨v, hv.1, of_decide_eq_true hv.2, rfl⟩

theorem upserts_of_unique {m : κ → Option α} {vs : List α} {v : α} (h : v ∈ vs)
    (hunique : ∀ w ∈ vs, key w = key v → w = v) : upserts key m vs (key v) = some v := by
  rw [upserts_apply]
  cases hlast : (vs.filter fun w => key w = key v).getLast? with
  | none =>
      rw [List.getLast?_eq_none_iff, List.filter_eq_nil_iff] at hlast
      exact absurd (decide_eq_true rfl) (hlast v h)
  | some w =>
      have hw := List.mem_filter.mp (List.mem_of_getLast? hlast)
      rw [hunique w hw.1 (of_decide_eq_true hw.2)]
      rfl

end NeuralSoc
