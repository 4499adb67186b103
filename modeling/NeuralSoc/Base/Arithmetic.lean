import Mathlib.Algebra.BigOperators.Group.List.Basic
import Mathlib.Algebra.Order.Field.Rat
import NeuralSoc.Base.Value

/-!
# Sums of floats

Addition in exact arithmetic is commutative and associative, the special values included. Subtraction does
not undo it: an infinite term leaves NaN.
-/

namespace NeuralSoc.PyFloat

def add : PyFloat → PyFloat → PyFloat
  | .nan, _ => .nan
  | _, .nan => .nan
  | .inf n, .inf m => if n = m then .inf n else .nan
  | .inf n, .fin _ => .inf n
  | .fin _, .inf m => .inf m
  | .fin a, .fin b => .fin (a + b)

def neg : PyFloat → PyFloat
  | .nan => .nan
  | .inf n => .inf !n
  | .fin a => .fin (-a)

instance : Add PyFloat := ⟨add⟩

instance : Zero PyFloat := ⟨.fin 0⟩

instance : Sub PyFloat := ⟨fun a b => a + neg b⟩

/-- `a <= b`: any comparison with NaN is false. -/
def le : PyFloat → PyFloat → Bool
  | .nan, _ => false
  | _, .nan => false
  | .inf n, .inf m => n || !m
  | .inf n, .fin _ => n
  | .fin _, .inf m => !m
  | .fin a, .fin b => decide (a ≤ b)

variable {a b c : PyFloat}

theorem zero_def : (0 : PyFloat) = .fin 0 := rfl

@[simp] theorem fin_add_fin (a b : ℚ) : fin a + fin b = fin (a + b) := rfl

@[simp] theorem inf_add_fin (n : Bool) (b : ℚ) : inf n + fin b = inf n := rfl

@[simp] theorem fin_add_inf (a : ℚ) (m : Bool) : fin a + inf m = inf m := rfl

@[simp] theorem inf_add_inf (n m : Bool) : inf n + inf m = if n = m then inf n else nan := rfl

@[simp] theorem nan_add (a : PyFloat) : nan + a = nan := rfl

@[simp] theorem add_nan (a : PyFloat) : a + nan = nan := by
  cases a with
  | nan => rfl
  | inf n => rfl
  | fin a => rfl

theorem zero_add' (a : PyFloat) : 0 + a = a := by
  rw [zero_def]
  cases a with
  | nan => rfl
  | inf n => rfl
  | fin a => simp

theorem add_comm' (a b : PyFloat) : a + b = b + a := by
  cases a with
  | nan => simp
  | inf n =>
      cases b with
      | nan => rfl
      | inf m =>
          cases n with
          | false => cases m <;> rfl
          | true => cases m <;> rfl
      | fin b => rfl
  | fin a =>
      cases b with
      | nan => rfl
      | inf m => rfl
      | fin b => simp [add_comm]

theorem add_assoc' (a b c : PyFloat) : a + b + c = a + (b + c) := by
  rcases a with _ | n | a
  · simp
  · rcases b with _ | m | b
    · simp
    · rcases c with _ | l | c
      · simp
      · cases n with
        | false => cases m <;> cases l <;> rfl
        | true => cases m <;> cases l <;> rfl
      · cases n with
        | false => cases m <;> rfl
        | true => cases m <;> rfl
    · rcases c with _ | l | c <;> simp
  · rcases b with _ | m | b
    · simp
    · rcases c with _ | l | c
      · simp
      · cases m with
        | false => cases l <;> rfl
        | true => cases l <;> rfl
      · simp
    · rcases c with _ | l | c <;> simp [add_assoc]

instance : AddCommMonoid PyFloat where
  add_assoc := add_assoc'
  zero_add := zero_add'
  add_zero a := (add_comm' a 0).trans (zero_add' a)
  add_comm := add_comm'
  nsmul := nsmulRec

/-! ## Sums without negative terms -/

def Nonneg : PyFloat → Prop
  | .nan => False
  | .inf neg => neg = false
  | .fin q => 0 ≤ q

theorem nonneg_max_zero (x : PyFloat) : Nonneg (max (.fin 0) x) := by
  unfold max
  cases x with
  | nan => exact le_refl (0 : ℚ)
  | inf n =>
      cases n with
      | false => rfl
      | true => exact le_refl (0 : ℚ)
  | fin q =>
      by_cases hq : 0 < q
      · simpa [lt, hq, Nonneg] using hq.le
      · simp [lt, hq, Nonneg]

theorem Nonneg.add (ha : Nonneg a) (hb : Nonneg b) : Nonneg (a + b) := by
  rcases a with _ | n | a
  · exact ha.elim
  · cases ha
    rcases b with _ | m | b
    · exact hb.elim
    · cases hb
      rfl
    · rfl
  · rcases b with _ | m | b
    · exact hb.elim
    · exact hb
    · exact add_nonneg (a := a) (b := b) ha hb

theorem nonneg_sum {l : List PyFloat} (h : ∀ x ∈ l, Nonneg x) : Nonneg l.sum := by
  induction l with
  | nil => exact le_refl (0 : ℚ)
  | cons x l ih =>
      rw [List.sum_cons]
      exact (h x (List.mem_cons_self ..)).add (ih fun y hy => h y (List.mem_cons_of_mem _ hy))

theorem le_add_of_nonneg {q : ℚ} (h : le (.fin q) a = true) (hb : Nonneg b) : le (.fin q) (a + b) = true := by
  rcases a with _ | n | a
  · cases h
  · rcases b with _ | m | b
    · exact hb.elim
    · cases hb
      cases n with
      | false => rfl
      | true => cases h
    · exact h
  · rcases b with _ | m | b
    · exact hb.elim
    · cases hb
      rfl
    · have hq : q ≤ a := of_decide_eq_true h
      have hb : 0 ≤ b := hb
      exact decide_eq_true (hq.trans (le_add_of_nonneg_right hb))

theorem fin_add_sub_fin (q : ℚ) (a : PyFloat) : fin q + a - fin q = a := by
  change fin q + a + fin (-q) = a
  rcases a with _ | n | a
  · rfl
  · rfl
  · simp

theorem inf_add_sub_inf (ha : Nonneg a) : inf false + a - inf false = nan := by
  change inf false + a + inf true = nan
  rcases a with _ | n | a
  · exact ha.elim
  · cases ha
    rfl
  · rfl

theorem nan_sub (a : PyFloat) : nan - a = nan := rfl

end NeuralSoc.PyFloat
