import Mathlib.Data.List.Nodup

/-!
# The newest entries of a log

A log lists distinct entries, the oldest first. An entry that comes again becomes the newest one.
`recent n` is the first-in-first-out window of the `n` newest entries.
-/

namespace NeuralSoc

variable {α : Type*}

/-- The `n` newest entries. -/
def recent (n : ℕ) (log : List α) : List α := log.drop (log.length - n)

theorem recent_of_length_le {n : ℕ} {log : List α} (h : log.length ≤ n) : recent n log = log := by
  simp [recent, Nat.sub_eq_zero_of_le h]

theorem length_recent (n : ℕ) (log : List α) : (recent n log).length = min n log.length := by
  simp only [recent, List.length_drop]; omega

theorem nodup_recent {n : ℕ} {log : List α} (h : log.Nodup) : (recent n log).Nodup :=
  h.sublist (List.drop_sublist _ _)

theorem recent_append {n : ℕ} {old new : List α} (h : new.length = n) :
    recent n (old ++ new) = new := by
  simp [recent, h]

theorem exists_old (n : ℕ) (log : List α) : ∃ old, log = old ++ recent n log :=
  ⟨log.take (log.length - n), (List.take_append_drop _ _).symm⟩

theorem not_mem_old {n : ℕ} {x : α} {old log : List α} (hn : log.Nodup)
    (hlog : log = old ++ recent n log) (hx : x ∈ recent n log) : x ∉ old := by
  intro ho
  rw [hlog] at hn
  exact List.disjoint_of_nodup_append hn ho hx

variable [DecidableEq α]

/-- `x` becomes the newest entry. -/
def touch (x : α) (log : List α) : List α := log.erase x ++ [x]

theorem nodup_touch {x : α} {log : List α} (h : log.Nodup) : (touch x log).Nodup := by
  refine (h.erase x).append (List.nodup_singleton x) ?_
  intro y hy hx
  rw [List.mem_singleton.mp hx] at hy
  exact h.not_mem_erase hy

theorem mem_touch {x y : α} {log : List α} (h : log.Nodup) :
    y ∈ touch x log ↔ y = x ∨ y ∈ log := by
  by_cases hy : y = x
  · simp [touch, hy]
  · simp [touch, hy, h.mem_erase_iff]

theorem length_touch_of_mem {x : α} {log : List α} (h : x ∈ log) :
    (touch x log).length = log.length := by
  have := List.length_pos_of_mem h
  simp only [touch, List.length_append, List.length_erase_of_mem h, List.length_singleton]
  omega

theorem touch_of_not_mem {x : α} {log : List α} (h : x ∉ log) : touch x log = log ++ [x] := by
  rw [touch, List.erase_of_not_mem h]

/-! ## An entry comes (again) -/

theorem recent_touch_of_mem {n : ℕ} {x : α} {log : List α} (hn : log.Nodup)
    (hx : x ∈ recent n log) : recent n (touch x log) = touch x (recent n log) := by
  obtain ⟨old, hlog⟩ := exists_old n log
  have hold := not_mem_old hn hlog hx
  by_cases hle : log.length ≤ n
  · have hmem : x ∈ log := by rwa [recent_of_length_le hle] at hx
    rw [recent_of_length_le hle, recent_of_length_le]
    rwa [length_touch_of_mem hmem]
  · have hlen : (touch x (recent n log)).length = n := by
      rw [length_touch_of_mem hx, length_recent]; omega
    have htouch : touch x log = old ++ touch x (recent n log) := by
      conv_lhs => rw [touch, hlog, List.erase_append_right _ hold, List.append_assoc]
      rfl
    rw [htouch, recent_append hlen]

theorem recent_touch_of_length_lt {n : ℕ} {x : α} {log : List α} (hlt : log.length < n) :
    recent n (touch x log) = touch x log := by
  apply recent_of_length_le
  have := (List.erase_sublist (a := x) (l := log)).length_le
  simp only [touch, List.length_append, List.length_singleton]
  omega

theorem erase_append_of_not_mem {x : α} {old new : List α} (h : x ∉ new) :
    (old ++ new).erase x = old.erase x ++ new := by
  rw [List.erase_append]
  split
  · rfl
  · rename_i hold; rw [List.erase_of_not_mem hold, List.erase_of_not_mem h]

/-- A new entry of a full window drives the oldest one out. -/
theorem recent_touch_of_full {n : ℕ} {x : α} {log : List α} (hpos : 0 < n) (hle : n ≤ log.length)
    (hx : x ∉ recent n log) : recent n (touch x log) = (recent n log).tail ++ [x] := by
  obtain ⟨old, hlog⟩ := exists_old n log
  have hlen := length_recent n log
  cases hr : recent n log with
  | nil => simp [hr] at hlen; omega
  | cons o rest =>
      rw [hr] at hlog hx hlen
      have htouch : touch x log = (old.erase x ++ [o]) ++ (rest ++ [x]) := by
        rw [touch, hlog, erase_append_of_not_mem hx]
        simp
      rw [htouch, recent_append, List.tail_cons]
      simp only [List.length_cons, List.length_append, List.length_nil] at hlen ⊢
      omega

/-! ## An entry is taken back -/

theorem recent_erase_of_not_mem {n : ℕ} {x : α} {log : List α} (hx : x ∉ recent n log) :
    recent n (log.erase x) = recent n log := by
  obtain ⟨old, hlog⟩ := exists_old n log
  by_cases hle : log.length ≤ n
  · rw [recent_of_length_le hle] at hx
    rw [List.erase_of_not_mem hx]
  · have hlen : (recent n log).length = n := by rw [length_recent]; omega
    conv_lhs => rw [hlog, erase_append_of_not_mem hx, recent_append hlen]

theorem recent_erase_of_length_le {n : ℕ} {x : α} {log : List α} (hle : log.length ≤ n) :
    recent n (log.erase x) = (recent n log).erase x := by
  rw [recent_of_length_le hle, recent_of_length_le]
  exact Nat.le_trans List.erase_sublist.length_le hle

/-- Once entries have left the window, taking one of the window back brings an older one in. -/
theorem exists_mem_recent_erase {n : ℕ} {x : α} {log : List α} (hn : log.Nodup)
    (hlt : n < log.length) (hx : x ∈ recent n log) :
    ∃ y ∈ recent n (log.erase x), y ∉ recent n log := by
  obtain ⟨old, hlog⟩ := exists_old n log
  have hlen : (recent n log).length = n := by rw [length_recent]; omega
  have hold := not_mem_old hn hlog hx
  rcases List.eq_nil_or_concat old with rfl | ⟨front, p, rfl⟩
  · have := congrArg List.length hlog
    simp [hlen] at this
    omega
  · have herase : log.erase x = front ++ p :: (recent n log).erase x := by
      conv_lhs => rw [hlog, List.erase_append_right _ hold]
      simp
    have hpos := List.length_pos_of_mem hx
    refine ⟨p, ?_, ?_⟩
    · rw [herase, recent_append (by rw [List.length_cons, List.length_erase_of_mem hx]; omega)]
      exact List.mem_cons_self
    · intro hp
      exact not_mem_old hn hlog hp (by simp)

end NeuralSoc
