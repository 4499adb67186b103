import Mathlib.Algebra.Order.Field.Rat

/-!
# Keys that expire

A value under a key, with the last instant at which the key is there. A missing key reads as the default value,
which is never stored.
-/

namespace NeuralSoc

variable {α : Type*} [Inhabited α]

structure Expiring (α : Type*) where
  value : α
  /-- `none` for a key that does not expire -/
  deadline : Option ℚ

namespace Expiring

def absent : Expiring α := ⟨default, none⟩

def live (now : ℚ) (k : Expiring α) : Bool := k.deadline.all (now ≤ ·)

def read (now : ℚ) (k : Expiring α) : α := if k.live now then k.value else default

def purge (now : ℚ) (k : Expiring α) : Expiring α := if k.live now then k else absent

/-- A write keeps the deadline; the default value removes the key. -/
def modify [DecidableEq α] (now : ℚ) (f : α → α) (k : Expiring α) : Expiring α :=
  if f (k.read now) = default then absent else { k.purge now with value := f (k.read now) }

/-- EXPIRE: no effect on a missing key, and a time to live that is not positive removes the key. -/
def expire [DecidableEq α] (now seconds : ℚ) (k : Expiring α) : Expiring α :=
  if k.read now = default then k.purge now
  else if 0 < seconds then { k with deadline := some (now + seconds) }
  else absent

/-! ## Reading -/

@[simp] theorem read_absent (now : ℚ) : (absent : Expiring α).read now = default := ite_self _

theorem read_later {now now' : ℚ} (h : now ≤ now') (k : Expiring α) :
    k.read now' = k.read now ∨ k.read now' = default := by
  unfold read
  split
  · next hlive' =>
      have hlive : k.live now = true := by
        unfold live at hlive' ⊢
        cases hd : k.deadline with
        | none => rfl
        | some d =>
            rw [hd] at hlive'
            exact decide_eq_true (h.trans (of_decide_eq_true hlive'))
      rw [if_pos hlive]
      exact Or.inl rfl
  · exact Or.inr rfl

/-- Removing a key whose time has elapsed changes nothing that is read later. -/
theorem read_purge_later {now now' : ℚ} (h : now ≤ now') (k : Expiring α) : (k.purge now).read now' = k.read now' := by
  unfold purge
  split
  · rfl
  · next hdead =>
      rw [read_absent]
      rcases read_later h k with hsame | hgone
      · exact (hsame.trans (if_neg hdead)).symm
      · exact hgone.symm

theorem read_modify_later [DecidableEq α] (now now' : ℚ) (f : α → α) (k : Expiring α) :
    (k.modify now f).read now' = if (k.purge now).live now' then f (k.read now) else default := by
  unfold modify
  split
  · next hdefault => rw [read_absent, hdefault, ite_self]
  · rfl

theorem live_purge (now : ℚ) (k : Expiring α) : (k.purge now).live now = true := by
  unfold purge
  split
  · assumption
  · rfl

@[simp] theorem read_modify [DecidableEq α] (now : ℚ) (f : α → α) (k : Expiring α) :
    (k.modify now f).read now = f (k.read now) := by
  rw [read_modify_later, if_pos (live_purge now k)]

theorem value_of_read {now : ℚ} {k : Expiring α} (hk : k.read now ≠ default) : k.value = k.read now := by
  unfold read at hk ⊢
  split
  · rfl
  · next hdead => exact absurd (if_neg hdead) hk

theorem live_expire [DecidableEq α] {now seconds : ℚ} {k : Expiring α} (hk : k.read now ≠ default)
    (hseconds : 0 < seconds) (now' : ℚ) : (k.expire now seconds).live now' = decide (now' ≤ now + seconds) := by
  rw [expire, if_neg hk, if_pos hseconds]
  rfl

theorem read_expire [DecidableEq α] {now seconds : ℚ} {k : Expiring α} (hk : k.read now ≠ default) (now' : ℚ) :
    (k.expire now seconds).read now' =
      if 0 < seconds ∧ now' ≤ now + seconds then k.read now else default := by
  by_cases hseconds : 0 < seconds
  · have hvalue : (k.expire now seconds).value = k.read now := by
      rw [expire, if_neg hk, if_pos hseconds]
      exact value_of_read hk
    rw [read, live_expire hk hseconds, hvalue]
    simp only [hseconds, true_and, decide_eq_true_eq]
  · rw [expire, if_neg hk, if_neg hseconds, if_neg fun h => hseconds h.1, read_absent]

theorem read_modify_expire [DecidableEq α] {now seconds : ℚ} {k : Expiring α} (hk : k.read now ≠ default)
    (hseconds : 0 < seconds) (f : α → α) (now' : ℚ) :
    ((k.expire now seconds).modify now f).read now' =
      if 0 < seconds ∧ now' ≤ now + seconds then f (k.read now) else default := by
  have hnow : now ≤ now + seconds := le_add_of_nonneg_right hseconds.le
  have hpurge : (k.expire now seconds).purge now = k.expire now seconds :=
    if_pos (by rw [live_expire hk hseconds, decide_eq_true hnow])
  have hread : (k.expire now seconds).read now = k.read now := by
    rw [read_expire hk]
    exact if_pos ⟨hseconds, hnow⟩
  rw [read_modify_later, hpurge, live_expire hk hseconds, hread]
  simp only [hseconds, true_and, decide_eq_true_eq]

end Expiring

end NeuralSoc
