import Mathlib.Data.Finset.Card
import NeuralSoc.Base.Recent

/-!
# Least recently used

A history lists the uses of keys, the newest first. A log of keys is in the order of their last uses when each key
was used again after the last use of any key in front of it; what the window of the `n` newest keys leaves behind
has then seen `n` other keys in use.
-/

namespace NeuralSoc

namespace Lru

variable {κ : Type*} [DecidableEq κ]

/-- The uses after the last use of a key. -/
def since (history : List κ) (k : κ) : List κ := history.takeWhile fun x => x ≠ k

/-- The keys in use after the last use of a key. -/
def others (history : List κ) (k : κ) : Finset κ := (since history k).toFinset

def Ordered (history keys : List κ) : Prop := keys.Pairwise fun a b => b ∈ others history a

variable {history keys : List κ} {k x : κ}

theorem others_cons_of_ne (h : x ≠ k) : others (x :: history) k = insert x (others history k) := by
  rw [others, since, List.takeWhile_cons_of_pos (by simpa using h), List.toFinset_cons]
  rfl

theorem card_others_le_cons (h : x ≠ k) : (others history k).card ≤ (others (x :: history) k).card := by
  rw [others_cons_of_ne h]
  exact Finset.card_le_card (Finset.subset_insert _ _)

theorem Ordered.sublist {log : List κ} (h : Ordered history keys) (hsub : log.Sublist keys) : Ordered history log :=
  List.Pairwise.sublist hsub h

/-- A key in use goes to the end. -/
theorem Ordered.touch (h : Ordered history keys) (hn : keys.Nodup) (x : κ) :
    Ordered (x :: history) (touch x keys) := by
  have hne : ∀ a ∈ keys.erase x, x ≠ a := by
    rintro a ha rfl
    exact hn.not_mem_erase ha
  rw [Ordered, NeuralSoc.touch, List.pairwise_append]
  refine ⟨?_, List.pairwise_singleton _ _, ?_⟩
  · refine (h.sublist List.erase_sublist).imp_of_mem ?_
    intro a b ha _ hab
    rw [others_cons_of_ne (hne a ha)]
    exact Finset.mem_insert_of_mem hab
  · intro a ha b hb
    rw [List.mem_singleton.mp hb, others_cons_of_ne (hne a ha)]
    exact Finset.mem_insert_self _ _

/-- A key leaves the window only when the window is full of keys used after it. -/
theorem Ordered.le_card_others {n : ℕ} (h : Ordered history keys) (hn : keys.Nodup) (hmem : k ∈ keys)
    (hold : k ∉ recent n keys) : n ≤ (others history k).card := by
  obtain ⟨old, hlog⟩ := exists_old n keys
  have hk : k ∈ old := by
    rw [hlog, List.mem_append] at hmem
    exact hmem.resolve_right hold
  have hused : ∀ b ∈ recent n keys, b ∈ others history k := by
    rw [Ordered, hlog, List.pairwise_append] at h
    exact h.2.2 k hk
  have hlen : (recent n keys).length = n := by
    have hlt : ¬ keys.length ≤ n := fun hle => hold (by rwa [recent_of_length_le hle])
    rw [length_recent]
    omega
  calc n = (recent n keys).toFinset.card := by rw [List.toFinset_card_of_nodup (nodup_recent hn), hlen]
    _ ≤ (others history k).card := Finset.card_le_card fun b hb => hused b (List.mem_toFinset.mp hb)

end Lru

end NeuralSoc
