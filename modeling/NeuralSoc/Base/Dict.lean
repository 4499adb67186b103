import Mathlib.Algebra.BigOperators.Group.List.Basic
import Mathlib.Algebra.GroupWithZero.Nat
import Mathlib.Data.List.Nodup

/-!
# Dicts

A Python dict: one value for each key, in the order in which the keys first came.
-/

namespace NeuralSoc

variable {κ ν : Type*} [DecidableEq κ]

structure Dict (κ ν : Type*) where
  entries : List (κ × ν)
  nodup : (entries.map Prod.fst).Nodup

namespace Dict

def empty : Dict κ ν := ⟨[], List.nodup_nil⟩

def get? (d : Dict κ ν) (k : κ) : Option ν := (d.entries.find? fun e => e.1 = k).map Prod.snd

def values (d : Dict κ ν) : List ν := d.entries.map Prod.snd

/-- Replace the value of a key where it stands. -/
def overwrite (k : κ) (v : ν) (es : List (κ × ν)) : List (κ × ν) :=
  es.map fun e => if e.1 = k then (k, v) else e

theorem map_fst_overwrite (k : κ) (v : ν) (es : List (κ × ν)) :
    (overwrite k v es).map Prod.fst = es.map Prod.fst := by
  rw [overwrite, List.map_map]
  apply List.map_congr_left
  intro e _
  by_cases h : e.1 = k <;> simp [h]

/-- `d[k] = v` -/
def set (d : Dict κ ν) (k : κ) (v : ν) : Dict κ ν :=
  if h : k ∈ d.entries.map Prod.fst then
    ⟨overwrite k v d.entries, by rw [map_fst_overwrite]; exact d.nodup⟩
  else
    ⟨d.entries ++ [(k, v)], by
      rw [List.map_append, List.map_cons, List.map_nil]
      refine d.nodup.append (List.nodup_singleton _) ?_
      intro j hj hk
      rw [List.mem_singleton.mp hk] at hj
      exact h hj⟩

/-- `del d[k]` -/
def erase (d : Dict κ ν) (k : κ) : Dict κ ν :=
  ⟨d.entries.filter fun e => e.1 ≠ k, d.nodup.sublist (List.filter_sublist.map Prod.fst)⟩

/-! ## Lookup -/

theorem get?_empty (k : κ) : (empty : Dict κ ν).get? k = none := rfl

theorem find?_of_mem {es : List (κ × ν)} (hn : (es.map Prod.fst).Nodup) {k : κ} {v : ν}
    (h : (k, v) ∈ es) : es.find? (fun e => e.1 = k) = some (k, v) := by
  induction es with
  | nil => cases h
  | cons e es ih =>
      obtain ⟨he, hn⟩ := List.nodup_cons.mp hn
      rcases List.mem_cons.mp h with rfl | h
      · simp
      · have hne : e.1 ≠ k := by
          rintro rfl
          exact he (List.mem_map.mpr ⟨_, h, rfl⟩)
        rw [List.find?_cons_of_neg (by simpa using hne)]
        exact ih hn h

theorem get?_eq_some {d : Dict κ ν} {k : κ} {v : ν} : d.get? k = some v ↔ (k, v) ∈ d.entries := by
  constructor
  · intro h
    obtain ⟨e, he, rfl⟩ := Option.map_eq_some_iff.mp h
    have hk : e.1 = k := by simpa using List.find?_some he
    rw [← hk]
    exact List.mem_of_find?_eq_some he
  · intro h
    rw [get?, find?_of_mem d.nodup h]
    rfl

theorem get?_eq_none {d : Dict κ ν} {k : κ} : d.get? k = none ↔ k ∉ d.entries.map Prod.fst := by
  rw [get?, Option.map_eq_none_iff, List.find?_eq_none]
  simp only [decide_eq_true_eq, List.mem_map, not_exists, not_and]

theorem mem_values {d : Dict κ ν} {v : ν} : v ∈ d.values ↔ ∃ k, d.get? k = some v := by
  simp only [values, List.mem_map, get?_eq_some, Prod.exists]
  constructor
  · rintro ⟨k, _, h, rfl⟩
    exact ⟨k, h⟩
  · rintro ⟨k, h⟩
    exact ⟨k, v, h, rfl⟩

theorem get?_set (d : Dict κ ν) (k : κ) (v : ν) (j : κ) :
    (d.set k v).get? j = if j = k then some v else d.get? j := by
  apply Option.ext
  intro w
  rw [get?_eq_some, set]
  split
  · rename_i hk
    dsimp only
    rw [overwrite, List.mem_map]
    by_cases hj : j = k
    · subst hj
      simp only [↓reduceIte, Option.some.injEq]
      constructor
      · rintro ⟨e, -, he⟩
        by_cases h : e.1 = j
        · simp only [h, ↓reduceIte, Prod.mk.injEq] at he
          exact he.2
        · simp only [h, ↓reduceIte] at he
          exact absurd (congrArg Prod.fst he) h
      · rintro rfl
        obtain ⟨e, he, hej⟩ := List.mem_map.mp hk
        exact ⟨e, he, by simp [hej]⟩
    · simp only [hj, ↓reduceIte, get?_eq_some]
      constructor
      · rintro ⟨e, he, heq⟩
        by_cases h : e.1 = k
        · simp only [h, ↓reduceIte, Prod.mk.injEq] at heq
          exact absurd heq.1.symm hj
        · simp only [h, ↓reduceIte] at heq
          exact heq ▸ he
      · intro h
        exact ⟨_, h, by simp [hj]⟩
  · rename_i hk
    rw [List.mem_append, List.mem_singleton, Prod.mk.injEq]
    by_cases hj : j = k
    · subst hj
      simp only [↓reduceIte, true_and, Option.some.injEq]
      have hno : (j, w) ∉ d.entries := fun h => hk (List.mem_map.mpr ⟨_, h, rfl⟩)
      simp [hno, eq_comm]
    · simp [hj, get?_eq_some]

theorem get?_isSome {d : Dict κ ν} {k : κ} : (d.get? k).isSome ↔ k ∈ d.entries.map Prod.fst := by
  rw [← not_iff_not, Bool.not_eq_true, Option.isSome_eq_false_iff, Option.isNone_iff_eq_none,
    get?_eq_none]

theorem set_of_none {d : Dict κ ν} {k : κ} (h : d.get? k = none) (v : ν) :
    (d.set k v).entries = d.entries ++ [(k, v)] := by
  rw [set, dif_neg (get?_eq_none.mp h)]

theorem set_of_some {d : Dict κ ν} {k : κ} {w : ν} (h : d.get? k = some w) (v : ν) :
    (d.set k v).entries = overwrite k v d.entries := by
  rw [set, dif_pos (get?_isSome.mp (by rw [h]; rfl))]

theorem values_set_of_none {d : Dict κ ν} {k : κ} (h : d.get? k = none) (v : ν) :
    (d.set k v).values = d.values ++ [v] := by
  rw [values, set_of_none h, List.map_append]
  rfl

/-- What the new value of a key has in common with the old one stays in its place. -/
theorem map_values_set_of_some {α : Type*} {f : ν → α} {d : Dict κ ν} {k : κ} {w v : ν}
    (h : d.get? k = some w) (hf : f v = f w) : (d.set k v).values.map f = d.values.map f := by
  rw [values, set_of_some h, overwrite, values, List.map_map, List.map_map, List.map_map]
  apply List.map_congr_left
  intro e he
  by_cases hk : e.1 = k
  · have hw : d.get? k = some e.2 := get?_eq_some.mpr (by rw [← hk]; exact he)
    simp only [Function.comp_apply, if_pos hk, hf]
    rw [h] at hw
    exact congrArg f (Option.some.inj hw)
  · simp only [Function.comp_apply, if_neg hk]

/-- The values of the keys, one after the other. -/
theorem filterMap_get? (d : Dict κ ν) : (d.entries.map Prod.fst).filterMap d.get? = d.values := by
  have hget : ∀ e ∈ d.entries, d.get? e.1 = some e.2 := fun e he => get?_eq_some.mpr he
  rw [List.filterMap_map, values, ← List.filterMap_eq_map]
  exact List.filterMap_congr hget

theorem foldl_erase_entries (es : List (κ × ν)) (d : Dict κ ν) :
    (es.foldl (fun d e => d.erase e.1) d).entries = d.entries.filter fun e => e.1 ∉ es.map Prod.fst := by
  induction es generalizing d with
  | nil => simp
  | cons x es ih =>
      rw [List.foldl_cons, ih, erase, List.filter_filter]
      apply List.filter_congr
      intro e _
      by_cases h : e.1 = x.1 <;> simp [h]

/-! ## Sums over the values -/

def sum (f : ν → ℕ) (d : Dict κ ν) : ℕ := (d.values.map f).sum

omit [DecidableEq κ] in
theorem sum_eq_entries (f : ν → ℕ) (d : Dict κ ν) : d.sum f = (d.entries.map fun e => f e.2).sum := by
  simp only [sum, values, List.map_map, Function.comp_def]

theorem sum_overwrite (f : ν → ℕ) {es : List (κ × ν)} (hn : (es.map Prod.fst).Nodup) {k : κ} {w : ν}
    (h : (k, w) ∈ es) (v : ν) :
    ((overwrite k v es).map fun e => f e.2).sum + f w = (es.map fun e => f e.2).sum + f v := by
  induction es with
  | nil => cases h
  | cons e es ih =>
      obtain ⟨he, hn⟩ := List.nodup_cons.mp hn
      rcases List.mem_cons.mp h with rfl | h
      · have hsame : ∀ e ∈ es, (if e.1 = k then (k, v) else e) = e := fun e hmem =>
          if_neg fun heq => he (List.mem_map.mpr ⟨e, hmem, heq⟩)
        have hrest : overwrite k v es = es := (List.map_congr_left hsame).trans (List.map_id _)
        have hhead : overwrite k v ((k, w) :: es) = (k, v) :: overwrite k v es := by simp [overwrite]
        rw [hhead, hrest]
        simp only [List.map_cons, List.sum_cons]
        omega
      · have hne : e.1 ≠ k := by
          rintro rfl
          exact he (List.mem_map.mpr ⟨_, h, rfl⟩)
        have hhead : overwrite k v (e :: es) = e :: overwrite k v es := by simp [overwrite, hne]
        have hrest := ih hn h
        rw [hhead]
        simp only [List.map_cons, List.sum_cons]
        omega

theorem sum_set (f : ν → ℕ) (d : Dict κ ν) (k : κ) (v : ν) :
    (d.set k v).sum f + (d.get? k).elim 0 f = d.sum f + f v := by
  rw [sum_eq_entries, sum_eq_entries]
  cases hk : d.get? k with
  | none =>
      rw [set_of_none hk]
      simp
  | some w =>
      rw [set_of_some hk]
      exact sum_overwrite f d.nodup (get?_eq_some.mp hk) v

theorem get?_set_eq_none {d : Dict κ ν} {k j : κ} {v : ν} :
    (d.set k v).get? j = none ↔ j ≠ k ∧ d.get? j = none := by
  rw [get?_set]
  split
  · next h => exact iff_of_false nofun fun hne => hne.1 h
  · next h => exact (and_iff_right h).symm

/-! ## Dicts filled from a list -/

/-- A dict comprehension over a list: a later entry replaces an earlier one of the same key. -/
def fill {α : Type*} (key : α → κ) (value : α → ν) (xs : List α) (d : Dict κ ν) : Dict κ ν :=
  xs.foldl (fun d x => d.set (key x) (value x)) d

section Fill

variable {α : Type*} {key : α → κ} {value : α → ν}

theorem get?_fill_of_not_mem {xs : List α} {k : κ} (h : k ∉ xs.map key) (d : Dict κ ν) :
    (fill key value xs d).get? k = d.get? k := by
  induction xs generalizing d with
  | nil => rfl
  | cons x xs ih =>
      rw [List.map_cons, List.mem_cons, not_or] at h
      rw [fill, List.foldl_cons]
      exact (ih h.2 _).trans (by rw [get?_set, if_neg h.1])

theorem get?_fill {xs : List α} (hn : (xs.map key).Nodup) {x : α} (hx : x ∈ xs) (d : Dict κ ν) :
    (fill key value xs d).get? (key x) = some (value x) := by
  induction xs generalizing d with
  | nil => cases hx
  | cons y xs ih =>
      obtain ⟨hy, hn⟩ := List.nodup_cons.mp hn
      rw [fill, List.foldl_cons]
      rcases List.mem_cons.mp hx with rfl | hx
      · exact (get?_fill_of_not_mem hy _).trans (by rw [get?_set, if_pos rfl])
      · exact ih hn hx _

theorem sum_fill_le (f : ν → ℕ) (xs : List α) (d : Dict κ ν) :
    (fill key value xs d).sum f ≤ d.sum f + (xs.map fun x => f (value x)).sum := by
  induction xs generalizing d with
  | nil => exact Nat.le_refl _
  | cons x xs ih =>
      have hset := sum_set f d (key x) (value x)
      have hrest := ih (d.set (key x) (value x))
      rw [fill, List.foldl_cons, List.map_cons, List.sum_cons]
      rw [fill] at hrest
      omega

/-- Positive values all count exactly when no entry replaces another. -/
theorem sum_fill_eq_iff (f : ν → ℕ) {xs : List α} (hpos : ∀ x ∈ xs, 0 < f (value x)) {d : Dict κ ν}
    (hd : ∀ k v, d.get? k = some v → 0 < f v) :
    (fill key value xs d).sum f = d.sum f + (xs.map fun x => f (value x)).sum ↔
      (xs.map key).Nodup ∧ ∀ x ∈ xs, d.get? (key x) = none := by
  induction xs generalizing d with
  | nil => exact iff_of_true rfl ⟨List.nodup_nil, fun _ h => by cases h⟩
  | cons x xs ih =>
      have hx := hpos x List.mem_cons_self
      have hset := sum_set f d (key x) (value x)
      have hle := @sum_fill_le κ ν _ α key value f xs (d.set (key x) (value x))
      have hd' : ∀ k v, (d.set (key x) (value x)).get? k = some v → 0 < f v := by
        intro k v hk
        rw [get?_set] at hk
        split at hk
        · cases hk
          exact hx
        · exact hd k v hk
      have hrest := ih (fun y hy => hpos y (List.mem_cons_of_mem _ hy)) hd'
      have hnone : (∀ y ∈ xs, (d.set (key x) (value x)).get? (key y) = none) ↔
          key x ∉ xs.map key ∧ ∀ y ∈ xs, d.get? (key y) = none := by
        simp only [get?_set_eq_none, List.mem_map, not_exists, not_and]
        exact forall₂_and
      have hstep : fill key value (x :: xs) d = fill key value xs (d.set (key x) (value x)) := rfl
      rw [hstep, List.map_cons, List.map_cons, List.sum_cons, List.nodup_cons, List.forall_mem_cons]
      cases hfree : d.get? (key x) with
      | some w =>
          have hw := hd _ _ hfree
          rw [hfree, Option.elim_some] at hset
          refine iff_of_false (by omega) fun h => ?_
          cases h.2.1
      | none =>
          rw [hfree, Option.elim_none] at hset
          rw [show d.sum f + (f (value x) + (xs.map fun x => f (value x)).sum) =
            (d.set (key x) (value x)).sum f + (xs.map fun x => f (value x)).sum by omega, hrest, hnone]
          tauto

end Fill

/-! ## Dicts of groups -/

section Accumulate

variable {α : Type*} (key : α → κ) (step : Option ν → α → ν)

/-- Each element changes the value of its key, or begins it. -/
def accumulate (xs : List α) (d : Dict κ ν) : Dict κ ν :=
  xs.foldl (fun d x => d.set (key x) (step (d.get? (key x)) x)) d

theorem get?_accumulate (xs : List α) (d : Dict κ ν) (k : κ) :
    (accumulate key step xs d).get? k =
      (xs.filter fun x => key x = k).foldl (fun v x => some (step v x)) (d.get? k) := by
  induction xs generalizing d with
  | nil => rfl
  | cons x xs ih =>
      rw [accumulate, List.foldl_cons]
      refine (ih _).trans ?_
      rw [get?_set, List.filter_cons]
      by_cases hk : key x = k
      · subst hk
        simp
      · rw [if_neg (Ne.symm hk), if_neg (by simpa using hk)]

end Accumulate

end Dict

end NeuralSoc
