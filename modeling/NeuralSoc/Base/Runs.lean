import Mathlib.Data.List.Basic

/-!
# Runs of a step function

A run is a list of inputs given to a step function one after the other. `Always` says that a property
holds at the start and after every step, `Each` that every step is taken from a state that allows it;
`sumAlong` adds up what the steps count for.
-/

namespace NeuralSoc

variable {σ ι : Type*} (step : σ → ι → σ)

/-- `P` holds at the start and after every step of the run. -/
def Always (P : σ → Prop) : σ → List ι → Prop
  | s, [] => P s
  | s, i :: is => P s ∧ Always P (step s i) is

/-- `G` holds of every step of the run, at the state the step is taken from. -/
def Each (G : σ → ι → Prop) : σ → List ι → Prop
  | _, [] => True
  | s, i :: is => G s i ∧ Each G (step s i) is

variable {step} {P I : σ → Prop} {G : σ → ι → Prop}

theorem Always.head {s : σ} {is : List ι} (h : Always step P s is) : P s := by
  cases is with
  | nil => exact h
  | cons i is => exact h.1

theorem Always.last {s : σ} {is : List ι} (h : Always step P s is) : P (is.foldl step s) := by
  induction is generalizing s with
  | nil => exact h
  | cons i is ih => exact ih h.2

theorem Always.mono {Q : σ → Prop} (himp : ∀ s, P s → Q s) {s : σ} {is : List ι}
    (h : Always step P s is) : Always step Q s is := by
  induction is generalizing s with
  | nil => exact himp s h
  | cons i is ih => exact ⟨himp s h.1, ih h.2⟩

/-- What every allowed step keeps holds throughout a run of allowed steps. -/
theorem Each.always (hstep : ∀ s i, P s → G s i → P (step s i)) {s : σ} {is : List ι} (hP : P s)
    (hG : Each step G s is) : Always step P s is := by
  induction is generalizing s with
  | nil => exact hP
  | cons i is ih => exact ⟨hP, ih (hstep s i hP hG.1) hG.2⟩

theorem Each.mono {H : σ → ι → Prop} (himp : ∀ s i, G s i → H s i) {s : σ} {is : List ι}
    (h : Each step G s is) : Each step H s is := by
  induction is generalizing s with
  | nil => trivial
  | cons i is ih => exact ⟨himp s i h.1, ih h.2⟩

theorem each_append {s : σ} {is js : List ι} :
    Each step G s (is ++ js) ↔ Each step G s is ∧ Each step G (is.foldl step s) js := by
  induction is generalizing s with
  | nil => exact ⟨fun h => ⟨trivial, h⟩, fun h => h.2⟩
  | cons i is ih => exact (and_congr Iff.rfl ih).trans and_assoc.symm

theorem Always.each_of_imp {H : σ → ι → Prop} {s : σ} {is : List ι} (h : Always step P s is)
    (hG : Each step G s is) (himp : ∀ s i, P s → G s i → H s i) : Each step H s is := by
  induction is generalizing s with
  | nil => trivial
  | cons i is ih => exact ⟨himp s i h.1 hG.1, ih h.2 hG.2⟩

theorem each_of_forall {is : List ι} (h : ∀ i ∈ is, ∀ s, G s i) {s : σ} : Each step G s is := by
  induction is generalizing s with
  | nil => trivial
  | cons i is ih =>
      exact ⟨h i (List.mem_cons_self ..) s, ih fun j hj => h j (List.mem_cons_of_mem _ hj)⟩

/-- When a step keeps the property exactly if `G` allows it, the property holds throughout exactly
the runs of allowed steps. `I` is what every step keeps anyway. -/
theorem always_iff_each (inv : ∀ s i, I s → I (step s i))
    (exact_step : ∀ s i, I s → P s → (P (step s i) ↔ G s i)) {s : σ} {is : List ι}
    (hI : I s) (hP : P s) : Always step P s is ↔ Each step G s is := by
  induction is generalizing s with
  | nil => exact ⟨fun _ => trivial, fun _ => hP⟩
  | cons i is ih =>
      constructor
      · intro h
        have hG := (exact_step s i hI hP).mp h.2.head
        exact ⟨hG, (ih (inv s i hI) h.2.head).mp h.2⟩
      · intro h
        have hP' := (exact_step s i hI hP).mpr h.1
        exact ⟨hP, (ih (inv s i hI) hP').mpr h.2⟩

theorem each_iff_split {s : σ} {is : List ι} : Each step G s is ↔
    ∀ pre i post, is = pre ++ i :: post → G (pre.foldl step s) i := by
  constructor
  · rintro h pre i post rfl
    exact (each_append.mp h).2.1
  · intro h
    induction is generalizing s with
    | nil => trivial
    | cons i is ih =>
        exact ⟨h [] i is rfl, ih fun pre j post heq => h (i :: pre) j post (by rw [heq]; rfl)⟩

/-! ## Sums along a run -/

def sumAlong (step : σ → ι → σ) (f : σ → ι → ℕ) : σ → List ι → ℕ
  | _, [] => 0
  | s, i :: is => f s i + sumAlong step f (step s i) is

/-- A quantity that each step raises by `f`. -/
theorem foldl_eq_sumAlong {m : σ → ℕ} {f : σ → ι → ℕ} (inv : ∀ s i, I s → I (step s i))
    (hm : ∀ s i, I s → m (step s i) = m s + f s i) {s : σ} {is : List ι} (hI : I s) :
    m (is.foldl step s) = m s + sumAlong step f s is := by
  induction is generalizing s with
  | nil => rfl
  | cons i is ih =>
      rw [List.foldl_cons, ih (inv s i hI), hm s i hI, sumAlong, Nat.add_assoc]

theorem sumAlong_concat (f : σ → ι → ℕ) (s : σ) (is : List ι) (i : ι) :
    sumAlong step f s (is ++ [i]) = sumAlong step f s is + f (is.foldl step s) i := by
  induction is generalizing s with
  | nil => simp [sumAlong]
  | cons j is ih => rw [List.cons_append, sumAlong, ih, sumAlong, List.foldl_cons, Nat.add_assoc]

theorem sumAlong_add (f g : σ → ι → ℕ) (s : σ) (is : List ι) :
    sumAlong step (fun s i => f s i + g s i) s is = sumAlong step f s is + sumAlong step g s is := by
  induction is generalizing s with
  | nil => rfl
  | cons i is ih =>
      simp only [sumAlong, ih]
      omega

theorem sumAlong_eq_zero {f : σ → ι → ℕ} {s : σ} {is : List ι} :
    sumAlong step f s is = 0 ↔ Each step (fun s i => f s i = 0) s is := by
  induction is generalizing s with
  | nil => exact ⟨fun _ => trivial, fun _ => rfl⟩
  | cons i is ih => rw [sumAlong, Nat.add_eq_zero_iff, ih]; rfl

end NeuralSoc
