import Mathlib.Data.List.Infix

/-!
# Logs

A log is a list of events that only grows at its end. `AtEach P` says that every event stands in the
relation `P` to the log of before it.
-/

namespace NeuralSoc

variable {ε : Type*} {P : List ε → ε → Prop} {log log' xs : List ε} {e : ε}

def AtEach (P : List ε → ε → Prop) (log : List ε) : Prop := ∀ pre e, pre ++ [e] <+: log → P pre e

theorem atEach_nil : AtEach P [] := by
  intro pre e h
  simp at h

theorem atEach_concat : AtEach P (log ++ [e]) ↔ AtEach P log ∧ P log e := by
  constructor
  · intro h
    exact ⟨fun pre e' hp => h pre e' (hp.trans (List.prefix_append _ _)), h log e (List.prefix_refl _)⟩
  · rintro ⟨h, he⟩ pre e' hp
    rcases List.prefix_concat_iff.mp hp with heq | hp
    · obtain ⟨rfl, hlast⟩ := List.append_inj' heq rfl
      cases hlast
      exact he
    · exact h pre e' hp

theorem AtEach.of_prefix (h : AtEach P log') (hp : log <+: log') : AtEach P log :=
  fun pre e hpre => h pre e (hpre.trans hp)

/-- Events that stand in the relation to every log can be added at the end. -/
theorem AtEach.append (h : AtEach P log) (hx : ∀ e ∈ xs, ∀ pre, P pre e) : AtEach P (log ++ xs) := by
  induction xs generalizing log with
  | nil => rwa [List.append_nil]
  | cons x xs ih =>
      rw [List.append_cons]
      refine ih (atEach_concat.mpr ⟨h, hx x List.mem_cons_self log⟩) ?_
      exact fun e he => hx e (List.mem_cons_of_mem _ he)

end NeuralSoc
