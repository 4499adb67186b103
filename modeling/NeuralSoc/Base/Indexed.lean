import NeuralSoc.Base.Dict

/-!
# Tables with a unique index

A table maps primary keys to rows, and `key` is what the index is on.
-/

namespace NeuralSoc.Dict

variable {κ ν ι : Type*} [DecidableEq κ] [DecidableEq ι] {key : ν → ι} {d : Dict κ ν} {k : κ} {v : ν} {i : ι}

/-- No two rows have the same index. -/
def Unique (key : ν → ι) (d : Dict κ ν) : Prop :=
  ∀ k k' v v', d.get? k = some v → d.get? k' = some v' → key v = key v' → k = k'

/-- The row with this index and its primary key. -/
def lookup (key : ν → ι) (i : ι) (d : Dict κ ν) : Option (κ × ν) := d.entries.find? fun e => key e.2 = i

omit [DecidableEq ι] in
theorem unique_empty : Unique key (empty : Dict κ ν) := fun _ _ _ _ h => by cases h

theorem lookup_eq_none : d.lookup key i = none ↔ ∀ k v, d.get? k = some v → key v ≠ i := by
  rw [lookup, List.find?_eq_none]
  constructor
  · intro h k v hv
    simpa using h (k, v) (get?_eq_some.mp hv)
  · intro h e he
    simpa using h e.1 e.2 (get?_eq_some.mpr he)

theorem get?_of_lookup (h : d.lookup key i = some (k, v)) : d.get? k = some v ∧ key v = i :=
  ⟨get?_eq_some.mpr (List.mem_of_find?_eq_some h), by simpa using List.find?_some h⟩

theorem lookup_eq_some (hd : Unique key d) : d.lookup key i = some (k, v) ↔ d.get? k = some v ∧ key v = i := by
  refine ⟨get?_of_lookup, fun ⟨hv, hi⟩ => ?_⟩
  cases h : d.lookup key i with
  | none => exact absurd hi (lookup_eq_none.mp h k v hv)
  | some found =>
      obtain ⟨k', v'⟩ := found
      obtain ⟨hv', hi'⟩ := get?_of_lookup h
      obtain rfl := hd k' k v' v hv' hv (hi'.trans hi.symm)
      cases hv'.symm.trans hv
      rfl

/-- A row is inserted with a new index, or it is updated and keeps its index. -/
structure Fits (key : ν → ι) (k : κ) (v : ν) (d : Dict κ ν) : Prop where
  same : ∀ w, d.get? k = some w → key w = key v
  free : ∀ k' w, d.get? k' = some w → key w = key v → k' = k

omit [DecidableEq ι] in
theorem Unique.set (hd : Unique key d) (h : Fits key k v d) : Unique key (d.set k v) := by
  intro j j' w w' hw hw' heq
  rw [get?_set] at hw hw'
  split at hw
  · next hj =>
      cases hw
      split at hw'
      · next hj' => exact hj.trans hj'.symm
      · exact hj.trans (h.free j' w' hw' heq.symm).symm
  · split at hw'
    · next hj' =>
        cases hw'
        exact (h.free j w hw heq).trans hj'.symm
    · exact hd j j' w w' hw hw' heq

theorem lookup_set (hd : Unique key d) (h : Fits key k v d) (i : ι) :
    (d.set k v).lookup key i = if key v = i then some (k, v) else d.lookup key i := by
  apply Option.ext
  rintro ⟨j, w⟩
  rw [lookup_eq_some (hd.set h), get?_set]
  split
  · next hj =>
      subst hj
      split
      · next hi =>
          constructor
          · rintro ⟨hw, -⟩
            cases hw
            rfl
          · intro hw
            cases hw
            exact ⟨rfl, hi⟩
      · next hi =>
          rw [lookup_eq_some hd]
          constructor
          · rintro ⟨hw, hwi⟩
            cases hw
            exact absurd hwi hi
          · rintro ⟨hw, hwi⟩
            exact absurd ((h.same w hw).symm.trans hwi) hi
  · next hj =>
      split
      · next hi =>
          constructor
          · rintro ⟨hw, hwi⟩
            exact absurd (h.free j w hw (hwi.trans hi.symm)) hj
          · intro hw
            cases hw
            exact absurd rfl hj
      · rw [lookup_eq_some hd]

end NeuralSoc.Dict
