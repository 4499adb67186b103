import Mathlib.Data.Set.BooleanAlgebra
import Mathlib.Data.Set.Insert
import Mathlib.Order.CompletePartialOrder
import NeuralSoc.Base.Runs

/-!
# Custody of items

Items are given to a holder, and copies of what it holds are passed on to a receiver. `Kept` says that
no item is lost: the holder has it, or a copy is on its way, or the receiver has acknowledged it. Each
move says in `Allowed` when it loses nothing, and `kept_run_iff` carries this through a run.
-/

namespace NeuralSoc

variable {α : Type*}

@[ext] structure Custody (α : Type*) where
  given : Set α
  held : Set α
  pending : Set α
  acked : Set α

namespace Custody

def Kept (c : Custody α) : Prop := ∀ a ∈ c.given, a ∈ c.held ∨ a ∈ c.pending ∨ a ∈ c.acked

/-- What can happen to the items in one step. -/
inductive Move (α : Type*) where
  | stay
  /-- a new item comes to the holder -/
  | enter (a : α)
  /-- a new item is put down elsewhere -/
  | stray (a : α)
  /-- copies are taken of some items held -/
  | take (S : Set α)
  /-- copies on their way are given up -/
  | drop (S : Set α)
  /-- a copy arrives -/
  | ack (a : α)
  /-- the holder loses all it has -/
  | clear

def apply (c : Custody α) : Move α → Custody α
  | .stay => c
  | .enter a => { c with given := insert a c.given, held := insert a c.held }
  | .stray a => { c with given := insert a c.given }
  | .take S => { c with pending := c.pending ∪ S }
  | .drop S => { c with pending := c.pending \ S }
  | .ack a => { c with pending := c.pending \ {a}, acked := insert a c.acked }
  | .clear => { c with held := ∅ }

/-- New items are new, copies are of what there is. -/
def Possible (c : Custody α) : Move α → Prop
  | .stay => True
  | .enter a => a ∉ c.given
  | .stray a => a ∉ c.given ∧ a ∉ c.held ∧ a ∉ c.pending ∧ a ∉ c.acked
  | .take S => S ⊆ c.held
  | .drop S => S ⊆ c.pending ∧ Disjoint S c.acked
  | .ack a => a ∈ c.pending
  | .clear => True

def Allowed (c : Custody α) : Move α → Prop
  | .stay => True
  | .enter _ => True
  | .stray _ => False
  | .take _ => True
  | .drop S => ∀ a ∈ c.given, a ∈ S → a ∈ c.held
  | .ack _ => True
  | .clear => ∀ a ∈ c.given, a ∈ c.held → a ∈ c.pending ∨ a ∈ c.acked

variable {c : Custody α}

theorem kept_enter_iff {a : α} (h : a ∉ c.given) : (c.apply (.enter a)).Kept ↔ c.Kept := by
  constructor
  · intro hk b hb
    rcases hk b (Set.mem_insert_of_mem a hb) with hheld | hrest
    · have hne : b ≠ a := fun e => h (e ▸ hb)
      exact .inl (Set.mem_of_mem_insert_of_ne hheld hne)
    · exact .inr hrest
  · intro hk b hb
    rcases hb with rfl | hb
    · exact .inl (Set.mem_insert ..)
    · exact (hk b hb).imp_left (Set.mem_insert_of_mem a)

theorem not_kept_stray {a : α} (h : c.Possible (.stray a)) : ¬(c.apply (.stray a)).Kept := by
  intro hk
  obtain ⟨-, hheld, hpending, hacked⟩ := h
  rcases hk a (Set.mem_insert ..) with hin | hin | hin
  · exact hheld hin
  · exact hpending hin
  · exact hacked hin

theorem kept_take_iff {S : Set α} (h : S ⊆ c.held) : (c.apply (.take S)).Kept ↔ c.Kept := by
  constructor
  · intro hk a ha
    rcases hk a ha with hin | (hin | hin) | hin
    · exact .inl hin
    · exact .inr (.inl hin)
    · exact .inl (h hin)
    · exact .inr (.inr hin)
  · intro hk a ha
    exact (hk a ha).imp_right (Or.imp_left .inl)

theorem kept_drop_iff {S : Set α} (h : c.Possible (.drop S)) :
    (c.apply (.drop S)).Kept ↔ c.Kept ∧ c.Allowed (.drop S) := by
  constructor
  · intro hk
    refine ⟨fun a ha => (hk a ha).imp_right (Or.imp_left And.left), fun a ha haS => ?_⟩
    rcases hk a ha with hin | hin | hin
    · exact hin
    · exact absurd haS hin.2
    · exact absurd hin (Set.disjoint_left.mp h.2 haS)
  · rintro ⟨hk, hallowed⟩ a ha
    by_cases haS : a ∈ S
    · exact .inl (hallowed a ha haS)
    · exact (hk a ha).imp_right (Or.imp_left fun hin => ⟨hin, haS⟩)

theorem kept_ack_iff {a : α} (h : a ∈ c.pending) : (c.apply (.ack a)).Kept ↔ c.Kept := by
  constructor
  · intro hk b hb
    rcases hk b hb with hin | hin | (rfl | hin)
    · exact .inl hin
    · exact .inr (.inl hin.1)
    · exact .inr (.inl h)
    · exact .inr (.inr hin)
  · intro hk b hb
    by_cases hba : b = a
    · exact .inr (.inr (.inl hba))
    · exact (hk b hb).imp_right (Or.imp (fun hin => ⟨hin, hba⟩) .inr)

theorem kept_clear_iff : (c.apply .clear).Kept ↔ c.Kept ∧ c.Allowed .clear := by
  constructor
  · intro hk
    have hrest : ∀ a ∈ c.given, a ∈ c.pending ∨ a ∈ c.acked := fun a ha =>
      (hk a ha).resolve_left (Set.notMem_empty a)
    exact ⟨fun a ha => .inr (hrest a ha), fun a ha _ => hrest a ha⟩
  · rintro ⟨hk, hallowed⟩ a ha
    rcases hk a ha with hin | hin
    · exact .inr (hallowed a ha hin)
    · exact .inr hin

/-- A loss is for good: nothing is lost after a move exactly when nothing was before and the move is
allowed. -/
theorem kept_apply_iff {m : Move α} (h : c.Possible m) :
    (c.apply m).Kept ↔ c.Kept ∧ c.Allowed m := by
  cases m with
  | stay => exact (and_iff_left trivial).symm
  | enter a => exact (kept_enter_iff h).trans (and_iff_left trivial).symm
  | stray a => exact ⟨fun hk => absurd hk (not_kept_stray h), fun hk => hk.2.elim⟩
  | take S => exact (kept_take_iff h).trans (and_iff_left trivial).symm
  | drop S => exact kept_drop_iff h
  | ack a => exact (kept_ack_iff h).trans (and_iff_left trivial).symm
  | clear => exact kept_clear_iff

/-- A system whose steps are moves of custody, as long as `I` holds. -/
theorem kept_run_iff {σ ι : Type*} {step : σ → ι → σ} {view : σ → Custody α} {I : σ → Prop}
    {G : σ → ι → Prop} (inv : ∀ s i, I s → I (step s i))
    (moves : ∀ s i, I s → ∃ m, (view s).Possible m ∧ view (step s i) = (view s).apply m ∧
      ((view s).Allowed m ↔ G s i)) {s : σ} {is : List ι} (hI : I s) :
    (view (is.foldl step s)).Kept ↔ (view s).Kept ∧ Each step G s is := by
  induction is generalizing s with
  | nil => exact (and_iff_left trivial).symm
  | cons i is ih =>
      obtain ⟨m, hpossible, hview, hallowed⟩ := moves s i hI
      rw [List.foldl_cons, ih (inv s i hI), hview, kept_apply_iff hpossible, hallowed, and_assoc]
      exact Iff.rfl

end Custody

end NeuralSoc
