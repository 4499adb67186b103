import NeuralSoc.Base.Dict
import NeuralSoc.Base.Recent

/-!
# Ordered dicts

A Python `OrderedDict`: a dict whose keys can be moved to its end and whose oldest entries can be popped. The order
of the keys is a log in the sense of `recent` and `touch`.
-/

namespace NeuralSoc

variable {κ ν : Type*} [DecidableEq κ]

namespace Dict

def keys (d : Dict κ ν) : List κ := d.entries.map Prod.fst

/-- `d.move_to_end(k)` of a key that is there -/
def moveToEnd (d : Dict κ ν) (k : κ) : Dict κ ν :=
  match d.get? k with
  | some v => (d.erase k).set k v
  | none => d

/-- Take the first element away while there are more than `n`. -/
def popOver {α : Type*} (n : ℕ) : List α → List α
  | [] => []
  | x :: xs => if n < (x :: xs).length then popOver n xs else x :: xs

theorem popOver_eq_recent {α : Type*} (n : ℕ) (xs : List α) : popOver n xs = recent n xs := by
  induction xs with
  | nil => simp [popOver, recent]
  | cons x xs ih =>
      rw [popOver]
      split
      · next h =>
          rw [ih, recent, recent, List.length_cons, Nat.succ_sub (Nat.le_of_lt_succ h), List.drop_succ_cons]
      · next h => rw [recent_of_length_le (Nat.le_of_not_lt h)]

/-- `while len(d) > n: d.popitem(last=False)` -/
def limit (n : ℕ) (d : Dict κ ν) : Dict κ ν :=
  ⟨popOver n d.entries, by
    rw [popOver_eq_recent]
    exact d.nodup.sublist ((List.drop_sublist _ _).map _)⟩

/-! ## Keys -/

variable {d : Dict κ ν} {k j : κ} {v : ν}

theorem mem_keys : k ∈ d.keys ↔ ∃ v, d.get? k = some v := by
  rw [keys, ← get?_isSome, Option.isSome_iff_exists]

theorem get?_eq_none_iff : d.get? k = none ↔ k ∉ d.keys := get?_eq_none

theorem keys_erase (d : Dict κ ν) (k : κ) : (d.erase k).keys = d.keys.erase k := by
  have hn : d.keys.Nodup := d.nodup
  rw [hn.erase_eq_filter, keys, keys, List.filter_map]
  refine congrArg (List.map Prod.fst) (List.filter_congr fun e _ => ?_)
  by_cases h : e.1 = k <;> simp [h]

theorem get?_erase (d : Dict κ ν) (k j : κ) : (d.erase k).get? j = if j = k then none else d.get? j := by
  split
  · next h =>
      rw [get?_eq_none_iff, keys_erase, h]
      exact List.Nodup.not_mem_erase d.nodup
  · next h =>
      apply Option.ext
      intro v
      rw [get?_eq_some, get?_eq_some, erase, List.mem_filter]
      simp [h]

theorem keys_set_of_not_mem (h : k ∉ d.keys) (v : ν) : (d.set k v).keys = d.keys ++ [k] := by
  rw [keys, set_of_none (get?_eq_none_iff.mpr h), List.map_append]
  rfl

theorem keys_set_of_mem (h : k ∈ d.keys) (v : ν) : (d.set k v).keys = d.keys := by
  obtain ⟨w, hw⟩ := mem_keys.mp h
  rw [keys, set_of_some hw, map_fst_overwrite]
  rfl

theorem keys_moveToEnd (h : k ∈ d.keys) : (d.moveToEnd k).keys = touch k d.keys := by
  obtain ⟨v, hv⟩ := mem_keys.mp h
  have hnot : k ∉ (d.erase k).keys := by
    rw [keys_erase]
    exact List.Nodup.not_mem_erase d.nodup
  simp only [moveToEnd, hv]
  rw [keys_set_of_not_mem hnot, keys_erase, touch]

theorem get?_moveToEnd (d : Dict κ ν) (k j : κ) : (d.moveToEnd k).get? j = d.get? j := by
  rw [moveToEnd]
  split
  · next v hv =>
      rw [get?_set, get?_erase]
      split
      · next h => rw [h, hv]
      · rfl
  · rfl

/-! ## The oldest entries -/

omit [DecidableEq κ] in
theorem limit_entries (n : ℕ) (d : Dict κ ν) : (d.limit n).entries = recent n d.entries :=
  popOver_eq_recent n d.entries

omit [DecidableEq κ] in
theorem keys_limit (n : ℕ) (d : Dict κ ν) : (d.limit n).keys = recent n d.keys := by
  rw [keys, keys, limit_entries, recent, recent, List.length_map, List.map_drop]

theorem get?_of_get?_limit {n : ℕ} (h : (d.limit n).get? k = some v) : d.get? k = some v := by
  rw [get?_eq_some, limit_entries] at h
  exact get?_eq_some.mpr (List.mem_of_mem_drop h)

end Dict

end NeuralSoc
