import NeuralSoc.Base.Runs

/-!
# Steps that may raise

A step gives the next state or an exception, and an exception ends the run. `Unless P` says that `P` holds of the
state of a run that goes on.
-/

namespace NeuralSoc.Fallible

universe u

variable {σ ε ι : Type*}

/-- One step of a run, which stays where an exception has ended it. -/
def next (f : σ → ι → Except ε σ) (s : Except ε σ) (i : ι) : Except ε σ := s.bind fun a => f a i

def Unless (P : σ → Prop) (s : Except ε σ) : Prop := ∀ a, s = .ok a → P a

/-- `G` holds of a step that does not raise. -/
def Allowed (f : σ → ι → Except ε σ) (G : σ → ι → Prop) (s : Except ε σ) (i : ι) : Prop :=
  ∀ a a', s = .ok a → f a i = .ok a' → G a i

variable {f : σ → ι → Except ε σ} {P I : σ → Prop} {G : σ → ι → Prop} {s : Except ε σ} {i : ι} {is : List ι}

theorem next_eq_ok {b : σ} : next f s i = .ok b ↔ ∃ a, s = .ok a ∧ f a i = .ok b := by
  cases s with
  | error e => exact iff_of_false (fun h => by cases h) (fun ⟨_, h, _⟩ => by cases h)
  | ok a => exact ⟨fun h => ⟨a, rfl, h⟩, fun ⟨_, ha, h⟩ => by cases ha; exact h⟩

theorem bind_eq_ok {α β : Type u} {x : Except ε α} {g : α → Except ε β} {b : β} :
    (x >>= g) = .ok b ↔ ∃ a, x = .ok a ∧ g a = .ok b := by
  cases x with
  | error e => exact iff_of_false (fun h => by cases h) (fun ⟨_, h, _⟩ => by cases h)
  | ok a => exact ⟨fun h => ⟨a, rfl, h⟩, fun ⟨_, ha, h⟩ => by cases ha; exact h⟩

theorem map_eq_ok {α β : Type*} {x : Except ε α} {g : α → β} {b : β} :
    x.map g = .ok b ↔ ∃ a, x = .ok a ∧ g a = b := by
  cases x with
  | error e => exact iff_of_false (fun h => by cases h) (fun ⟨_, h, _⟩ => by cases h)
  | ok a =>
      constructor
      · intro h
        cases h
        exact ⟨a, rfl, rfl⟩
      · rintro ⟨_, ha, rfl⟩
        cases ha
        rfl

theorem foldlM_cons_eq_ok {a : σ} {b : σ} :
    (i :: is).foldlM f a = .ok b ↔ ∃ c, f a i = .ok c ∧ is.foldlM f c = .ok b := by
  rw [List.foldlM_cons, bind_eq_ok]

/-- What every step keeps is kept by a loop. -/
theorem foldlM_keeps (hstep : ∀ a i b, P a → f a i = .ok b → P b) {a b : σ} (ha : P a)
    (h : is.foldlM f a = .ok b) : P b := by
  induction is generalizing a with
  | nil =>
      cases h
      exact ha
  | cons i is ih =>
      obtain ⟨c, hc, hrest⟩ := foldlM_cons_eq_ok.mp h
      exact ih (hstep a i c ha hc) hrest

/-! ## Runs -/

theorem Unless.next (h : Unless I s) (hstep : ∀ a b, I a → f a i = .ok b → I b) : Unless I (next f s i) := by
  intro b hb
  obtain ⟨a, ha, hab⟩ := next_eq_ok.mp hb
  exact hstep a b (h a ha) hab

/-- What the steps of a run keep holds at its end, unless it is cut off. -/
theorem Unless.foldl (h : Unless I s) (hstep : ∀ i ∈ is, ∀ a b, I a → f a i = .ok b → I b) :
    Unless I (is.foldl (Fallible.next f) s) := by
  induction is generalizing s with
  | nil => exact h
  | cons i is ih =>
      obtain ⟨hi, his⟩ := List.forall_mem_cons.mp hstep
      exact ih (h.next hi) his

end NeuralSoc.Fallible
