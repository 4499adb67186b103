import NeuralSoc.Dlq.Rotation
import Mathlib.Data.List.Infix

/-!
# The rotated files as one log

A rename of `.i` to `.(i + 1)` leaves the lines in their order as long as it overwrites nothing, and the
only file that is overwritten is the last one.
-/

namespace NeuralSoc.Dlq

variable {cfg : RotationConfig} {file : ℕ → Option (List String)} {d : Disk}

@[simp] theorem linesOf_none : linesOf none = [] := rfl

@[simp] theorem linesOf_some (xs : List String) : linesOf (some xs) = xs := rfl

/-! ## Renames -/

theorem moveUp_self (i : ℕ) : moveUp i file i = none := by simp [moveUp]

theorem moveUp_succ (i : ℕ) : moveUp i file (i + 1) = file i := by simp [moveUp]

theorem moveUp_of_ne {i j : ℕ} (h : j ≠ i) (h' : j ≠ i + 1) : moveUp i file j = file j := by
  simp [moveUp, h, h']

theorem joined_congr {file' : ℕ → Option (List String)} {n : ℕ} (h : ∀ j ≤ n, file j = file' j) :
    joined file n = joined file' n := by
  induction n with
  | zero => rw [joined, joined, h 0 le_rfl]
  | succ n ih => rw [joined, joined, h (n + 1) le_rfl, ih fun j hj => h j (by omega)]

theorem joined_moveUp_lt {i n : ℕ} (h : n < i) : joined (moveUp i file) n = joined file n :=
  joined_congr fun j hj => moveUp_of_ne (by omega) (by omega)

theorem joined_moveUp_succ (i : ℕ) : joined (moveUp i file) (i + 1) = joined file i := by
  rw [joined, moveUp_succ]
  cases i with
  | zero => rw [joined, moveUp_self, joined, linesOf_none, List.append_nil]
  | succ i =>
      rw [joined, moveUp_self, joined_moveUp_lt (Nat.lt_succ_self i), linesOf_none, List.nil_append,
        joined]

/-- A rename that overwrites nothing. -/
theorem joined_moveUp {i n : ℕ} (hi : i < n) (hfree : file (i + 1) = none) :
    joined (moveUp i file) n = joined file n := by
  induction n with
  | zero => omega
  | succ n ih =>
      rcases Nat.lt_succ_iff_lt_or_eq.mp hi with hlt | rfl
      · rw [joined, joined, ih hlt, moveUp_of_ne (by omega) (by omega)]
      · rw [joined_moveUp_succ, joined, hfree, linesOf_none, List.nil_append]

/-- The rename onto the last file loses that file. -/
theorem joined_moveUp_last (n : ℕ) :
    joined file (n + 1) = linesOf (file (n + 1)) ++ joined (moveUp n file) (n + 1) := by
  rw [joined_moveUp_succ, joined]

theorem joined_append_main {xs : List String} (n : ℕ) :
    joined (Function.update file 0 (some (linesOf (file 0) ++ xs))) n = joined file n ++ xs := by
  induction n with
  | zero => simp [joined]
  | succ n ih => simp [joined, ih]

theorem joined_create (n : ℕ) :
    joined (Function.update file 0 (some (linesOf (file 0)))) n = joined file n := by
  have h := @joined_append_main file [] n
  simpa using h

/-! ## What a step does to the files -/

/-- What is known of the files at each point of an append. -/
def Placed (cfg : RotationConfig) (d : Disk) : Prop :=
  match d.appender with
  | .shifting i _ => i < cfg.rotateCount ∧ (i + 1 < cfg.rotateCount → d.file (i + 1) = none)
  | .moving i _ => 0 < i ∧ i < cfg.rotateCount ∧ (i + 1 < cfg.rotateCount → d.file (i + 1) = none)
  | .opening _ | .writing _ => sizeOfLines (linesOf (d.file 0)) ≤ cfg.limit
  | .recreating _ => d.file 0 = none
  | _ => True

/-- What a step makes of the kept lines. -/
inductive Change (cfg : RotationConfig) (d d' : Disk) : Prop where
  | same (hkept : d'.kept cfg = d.kept cfg) (hlog : d'.log = d.log)
  | written (line : String) (hkept : d'.kept cfg = d.kept cfg ++ [line])
      (hlog : d'.log = d.log ++ [line])
  | lost (hkept : d.kept cfg = linesOf (d.file cfg.rotateCount) ++ d'.kept cfg) (hlog : d'.log = d.log)

theorem change_moveUp {i : ℕ} {appender : Appender} (hi : i < cfg.rotateCount)
    (hfree : i + 1 < cfg.rotateCount → d.file (i + 1) = none) :
    Change cfg d { d with file := moveUp i d.file, appender := appender } := by
  rcases Nat.lt_or_ge (i + 1) cfg.rotateCount with hlt | hge
  · exact .same (joined_moveUp hi (hfree hlt)) rfl
  · obtain ⟨n, hn⟩ : ∃ n, cfg.rotateCount = n + 1 := ⟨i, by omega⟩
    obtain rfl : i = n := by omega
    refine .lost ?_ rfl
    rw [Disk.kept, Disk.kept, hn]
    exact joined_moveUp_last i

theorem change_advance (h : Placed cfg d) : Change cfg d (d.advance cfg) := by
  unfold Disk.advance
  unfold Placed at h
  cases hph : d.appender with
  | idle => exact .same rfl rfl
  | looking line =>
      dsimp only
      split <;> exact .same rfl rfl
  | measuring line =>
      dsimp only
      split <;> exact .same rfl rfl
  | shifting i line =>
      rw [hph] at h
      cases i with
      | zero => exact change_moveUp h.1 h.2
      | succ i =>
          dsimp only
          split <;> exact .same rfl rfl
  | moving i line =>
      rw [hph] at h
      exact change_moveUp h.2.1 h.2.2
  | recreating line => exact .same (joined_create _) rfl
  | opening line => exact .same (joined_create _) rfl
  | writing line => exact .written line (joined_append_main _) rfl

theorem change_step (h : Placed cfg d) (e : DiskEvent) : Change cfg d (d.step cfg e) := by
  cases e with
  | append line =>
      rw [Disk.step]
      split <;> exact .same rfl rfl
  | advance => exact change_advance h
  | interrupt => exact .same rfl rfl

theorem placed_advance (hcount : 1 ≤ cfg.rotateCount) (h : Placed cfg d) : Placed cfg (d.advance cfg) := by
  unfold Placed at h
  cases hph : d.appender with
  | idle => simp [Disk.advance, hph, Placed]
  | looking line =>
      cases hmain : d.file 0 with
      | none => simp [Disk.advance, hph, hmain, Placed, sizeOfLines]
      | some xs => simp [Disk.advance, hph, hmain, Placed]
  | measuring line =>
      by_cases hsize : cfg.limit < sizeOfLines (linesOf (d.file 0))
      · simp only [Disk.advance, hph, hsize, ↓reduceIte, Placed]
        omega
      · simp only [Disk.advance, hph, hsize, ↓reduceIte, Placed]
        omega
  | shifting i line =>
      rw [hph] at h
      cases i with
      | zero => simp [Disk.advance, hph, Placed, moveUp_self]
      | succ i =>
          cases hfile : d.file (i + 1) with
          | none =>
              simp only [Disk.advance, hph, hfile, Placed]
              exact ⟨by omega, fun _ => trivial⟩
          | some xs =>
              simp only [Disk.advance, hph, hfile, Placed]
              exact ⟨Nat.succ_pos i, h⟩
  | moving i line =>
      rw [hph] at h
      simp only [Disk.advance, hph, Placed]
      refine ⟨by omega, fun _ => ?_⟩
      rw [Nat.sub_add_cancel h.1, moveUp_self]
  | recreating line =>
      rw [hph] at h
      simp only at h
      simp [Disk.advance, hph, Placed, h, sizeOfLines]
  | opening line =>
      rw [hph] at h
      simpa [Disk.advance, hph, Placed] using h
  | writing line => simp [Disk.advance, hph, Placed]

theorem placed_step (hcount : 1 ≤ cfg.rotateCount) (h : Placed cfg d) (e : DiskEvent) :
    Placed cfg (d.step cfg e) := by
  cases e with
  | append line =>
      rw [Disk.step]
      split
      · trivial
      · exact h
  | advance => exact placed_advance hcount h
  | interrupt => trivial

/-! ## The size of the files -/

/-- Every file is one of the rotation and goes over the limit by its last line at most. -/
def Sized (cfg : RotationConfig) (file : ℕ → Option (List String)) : Prop :=
  ∀ i xs, file i = some xs → i ≤ cfg.rotateCount ∧ sizeOfLines xs.dropLast ≤ cfg.limit

theorem sized_moveUp (h : Sized cfg file) {i : ℕ} (hi : i < cfg.rotateCount) :
    Sized cfg (moveUp i file) := by
  intro j xs hxs
  by_cases hj : j = i
  · rw [hj, moveUp_self] at hxs
    cases hxs
  · by_cases hj' : j = i + 1
    · rw [hj', moveUp_succ] at hxs
      exact ⟨by omega, (h i xs hxs).2⟩
    · rw [moveUp_of_ne hj hj'] at hxs
      exact h j xs hxs

theorem sized_update (h : Sized cfg file) {xs : List String}
    (hxs : sizeOfLines xs.dropLast ≤ cfg.limit) : Sized cfg (Function.update file 0 (some xs)) := by
  intro j ys hys
  by_cases hj : j = 0
  · subst hj
    rw [Function.update_self] at hys
    cases hys
    exact ⟨Nat.zero_le _, hxs⟩
  · rw [Function.update_of_ne hj] at hys
    exact h j ys hys

theorem sized_create (h : Sized cfg file) :
    Sized cfg (Function.update file 0 (some (linesOf (file 0)))) := by
  apply sized_update h
  cases hmain : file 0 with
  | none => exact Nat.zero_le _
  | some xs => exact (h 0 xs hmain).2

theorem sized_advance (hp : Placed cfg d) (h : Sized cfg d.file) : Sized cfg (d.advance cfg).file := by
  unfold Disk.advance
  unfold Placed at hp
  cases hph : d.appender with
  | idle => exact h
  | looking line =>
      dsimp only
      split <;> exact h
  | measuring line =>
      dsimp only
      split <;> exact h
  | shifting i line =>
      rw [hph] at hp
      cases i with
      | zero => exact sized_moveUp h hp.1
      | succ i =>
          dsimp only
          split <;> exact h
  | moving i line =>
      rw [hph] at hp
      exact sized_moveUp h hp.2.1
  | recreating line => exact sized_create h
  | opening line => exact sized_create h
  | writing line =>
      rw [hph] at hp
      refine sized_update h ?_
      rw [List.dropLast_concat]
      exact hp

theorem sized_step (hp : Placed cfg d) (h : Sized cfg d.file) (e : DiskEvent) :
    Sized cfg (d.step cfg e).file := by
  cases e with
  | append line =>
      rw [Disk.step]
      split <;> exact h
  | advance => exact sized_advance hp h
  | interrupt => exact h

theorem sizeOfLines_append (xs ys : List String) :
    sizeOfLines (xs ++ ys) = sizeOfLines xs + sizeOfLines ys := by
  rw [sizeOfLines, List.map_append, List.sum_append]
  rfl

theorem sizeOfLines_le {xs : List String} {limit bound : ℕ} (h : sizeOfLines xs.dropLast ≤ limit)
    (hbound : ∀ line ∈ xs, line.utf8ByteSize ≤ bound) : sizeOfLines xs ≤ limit + bound := by
  rcases List.eq_nil_or_concat xs with rfl | ⟨ys, line, rfl⟩
  · exact Nat.zero_le _
  · rw [List.concat_eq_append, List.dropLast_concat] at h
    have hline := hbound line (by simp)
    rw [List.concat_eq_append, sizeOfLines_append]
    simp only [sizeOfLines, List.map_cons, List.map_nil, List.sum_cons, List.sum_nil] at h ⊢
    omega

theorem sizeOfLines_joined_le (h : Sized cfg file) {bound : ℕ} (n : ℕ)
    (hbound : ∀ line ∈ joined file n, line.utf8ByteSize ≤ bound) :
    sizeOfLines (joined file n) ≤ (n + 1) * (cfg.limit + bound) := by
  have hone : ∀ i, (∀ line ∈ linesOf (file i), line.utf8ByteSize ≤ bound) →
      sizeOfLines (linesOf (file i)) ≤ cfg.limit + bound := by
    intro i hi
    cases hfile : file i with
    | none => exact Nat.zero_le _
    | some xs =>
        rw [hfile] at hi
        exact sizeOfLines_le (h i xs hfile).2 hi
  induction n with
  | zero =>
      rw [Nat.zero_add, Nat.one_mul]
      exact hone 0 hbound
  | succ n ih =>
      rw [joined] at hbound ⊢
      simp only [List.mem_append, or_imp, forall_and] at hbound
      rw [sizeOfLines_append, Nat.succ_mul, Nat.add_comm _ (cfg.limit + bound)]
      exact Nat.add_le_add (hone (n + 1) hbound.1) (ih hbound.2)

/-! ## Runs -/

structure Rotated (cfg : RotationConfig) (d : Disk) : Prop where
  placed : Placed cfg d
  suffix : d.kept cfg <:+ d.log
  sized : Sized cfg d.file

theorem joined_empty (n : ℕ) : joined Disk.empty.file n = [] := by
  induction n with
  | zero => rfl
  | succ n ih => rw [joined, ih]; rfl

theorem rotated_empty (cfg : RotationConfig) : Rotated cfg .empty where
  placed := trivial
  suffix := by rw [Disk.kept, joined_empty]; exact List.nil_suffix
  sized := nofun

theorem Change.suffix {d' : Disk} (h : Change cfg d d') (hs : d.kept cfg <:+ d.log) :
    d'.kept cfg <:+ d'.log := by
  cases h with
  | same hkept hlog => rwa [hkept, hlog]
  | written line hkept hlog =>
      obtain ⟨pre, hpre⟩ := hs
      exact ⟨pre, by rw [hkept, hlog, ← hpre, List.append_assoc]⟩
  | lost hkept hlog =>
      rw [hlog]
      exact (List.suffix_append _ _).trans (hkept ▸ hs)

theorem rotated_step (hcount : 1 ≤ cfg.rotateCount) (h : Rotated cfg d) (e : DiskEvent) :
    Rotated cfg (d.step cfg e) where
  placed := placed_step hcount h.placed e
  suffix := (change_step h.placed e).suffix h.suffix
  sized := sized_step h.placed h.sized e

theorem rotated_run (hcount : 1 ≤ cfg.rotateCount) (events : List DiskEvent) :
    Rotated cfg (events.foldl (Disk.step cfg) .empty) := by
  suffices hfrom : ∀ d, Rotated cfg d → Rotated cfg (events.foldl (Disk.step cfg) d) from
    hfrom _ (rotated_empty cfg)
  induction events with
  | nil => exact fun d h => h
  | cons e es ih => exact fun d h => ih _ (rotated_step hcount h e)

/-- The lines that are gone and the lines in the files make up the log. -/
theorem removed_append_kept (h : d.kept cfg <:+ d.log) : d.removed cfg ++ d.kept cfg = d.log := by
  obtain ⟨pre, hpre⟩ := h
  rw [Disk.removed, ← hpre, List.length_append, Nat.add_sub_cancel, List.take_left]

theorem Change.removed {d' : Disk} (h : Change cfg d d') (hs : d.kept cfg <:+ d.log) :
    d'.removed cfg = d.removed cfg ∨
      d'.removed cfg = d.removed cfg ++ linesOf (d.file cfg.rotateCount) := by
  have hbefore := removed_append_kept hs
  have hafter := removed_append_kept (h.suffix hs)
  cases h with
  | same hkept hlog =>
      left
      rw [hkept, hlog, ← hbefore] at hafter
      exact List.append_cancel_right hafter
  | written line hkept hlog =>
      left
      rw [hkept, hlog, ← hbefore, ← List.append_assoc, List.append_left_inj] at hafter
      exact List.append_cancel_right hafter
  | lost hkept hlog =>
      right
      rw [hlog, ← hbefore, hkept, ← List.append_assoc] at hafter
      exact List.append_cancel_right hafter

end NeuralSoc.Dlq
