import NeuralSoc.Base.Dict
import Mathlib.Algebra.BigOperators.Group.List.Basic
import Mathlib.Algebra.Order.BigOperators.GroupWithZero.List
import Mathlib.Data.List.Induction
import Mathlib.Order.MinMax

/-!
# The best value of each key

A dict that a run of keyed values fills with the greatest value of each key, and products over such a
dict.
-/

namespace NeuralSoc

variable {κ ν : Type*} [DecidableEq κ]

/-! ## Dicts with the same values -/

namespace Dict

variable {d e : Dict κ ν}

omit [DecidableEq κ] in
theorem nodup_entries (d : Dict κ ν) : d.entries.Nodup := .of_map Prod.fst d.nodup

theorem perm_entries (h : ∀ k, d.get? k = e.get? k) : d.entries.Perm e.entries := by
  rw [List.perm_ext_iff_of_nodup d.nodup_entries e.nodup_entries]
  rintro ⟨k, v⟩
  rw [← get?_eq_some, ← get?_eq_some, h k]

end Dict

/-! ## The greatest value of each key -/

section Raise

variable [LinearOrder ν]

/-- The entries after the greater of the value a key has and a new one has been kept. -/
def raiseEntries (k : κ) (v : ν) : List (κ × ν) → List (κ × ν)
  | [] => [(k, v)]
  | (j, w) :: es => if j = k then (j, max w v) :: es else (j, w) :: raiseEntries k v es

theorem raiseEntries_of_notMem {k : κ} {es : List (κ × ν)} (h : k ∉ es.map Prod.fst) (v : ν) :
    raiseEntries k v es = es ++ [(k, v)] := by
  induction es with
  | nil => rfl
  | cons e es ih =>
      rw [List.map_cons, List.mem_cons, not_or] at h
      rw [raiseEntries, if_neg (Ne.symm h.1), ih h.2, List.cons_append]

theorem map_fst_raiseEntries {k : κ} {es : List (κ × ν)} (h : k ∈ es.map Prod.fst) (v : ν) :
    (raiseEntries k v es).map Prod.fst = es.map Prod.fst := by
  induction es with
  | nil => cases h
  | cons e es ih =>
      rw [raiseEntries]
      split
      · rfl
      · next hne =>
          rw [List.map_cons, List.mem_cons] at h
          rw [List.map_cons, ih (h.resolve_left fun heq => hne heq.symm), List.map_cons]

theorem nodup_raiseEntries (k : κ) (v : ν) {es : List (κ × ν)} (h : (es.map Prod.fst).Nodup) :
    ((raiseEntries k v es).map Prod.fst).Nodup := by
  by_cases hk : k ∈ es.map Prod.fst
  · rwa [map_fst_raiseEntries hk]
  · rw [raiseEntries_of_notMem hk, List.map_append, List.map_cons, List.map_nil]
    refine h.append (List.nodup_singleton k) ?_
    rintro j hj hjk
    rw [List.mem_singleton.mp hjk] at hj
    exact hk hj

theorem find?_raiseEntries (k : κ) (v : ν) (j : κ) (es : List (κ × ν)) :
    ((raiseEntries k v es).find? fun e => e.1 = j).map Prod.snd =
      if j = k then some (((es.find? fun e => e.1 = j).map Prod.snd).elim v (max · v))
      else (es.find? fun e => e.1 = j).map Prod.snd := by
  induction es with
  | nil =>
      by_cases hj : j = k
      · simp [raiseEntries, hj]
      · simp [raiseEntries, hj, Ne.symm hj]
  | cons e es ih =>
      obtain ⟨i, w⟩ := e
      rw [raiseEntries]
      split
      · next hi =>
          subst hi
          by_cases hj : j = i
          · simp [hj]
          · simp [hj, Ne.symm hj]
      · next hi =>
          by_cases hij : i = j
          · subst hij
            simp [hi]
          · rw [List.find?_cons_of_neg (by simpa using hij), ih, List.find?_cons_of_neg (by simpa using hij)]

def Dict.raise (d : Dict κ ν) (k : κ) (v : ν) : Dict κ ν :=
  ⟨raiseEntries k v d.entries, nodup_raiseEntries k v d.nodup⟩

def bests (xs : List (κ × ν)) : Dict κ ν := xs.foldl (fun d x => d.raise x.1 x.2) .empty

def Best (xs : List (κ × ν)) (k : κ) (v : ν) : Prop := (k, v) ∈ xs ∧ ∀ w, (k, w) ∈ xs → w ≤ v

theorem bests_append (xs : List (κ × ν)) (k : κ) (v : ν) :
    bests (xs ++ [(k, v)]) = (bests xs).raise k v := by
  rw [bests, List.foldl_append]
  rfl

theorem Dict.get?_raise_self (d : Dict κ ν) (k : κ) (v : ν) :
    (d.raise k v).get? k = some ((d.get? k).elim v (max · v)) :=
  (find?_raiseEntries k v k d.entries).trans (if_pos rfl)

theorem Dict.get?_raise_of_ne (d : Dict κ ν) {k j : κ} (h : j ≠ k) (v : ν) :
    (d.raise k v).get? j = d.get? j :=
  (find?_raiseEntries k v j d.entries).trans (if_neg h)

theorem Dict.mem_keys_raise {d : Dict κ ν} {k : κ} {v : ν} {j : κ} :
    j ∈ (d.raise k v).entries.map Prod.fst ↔ j = k ∨ j ∈ d.entries.map Prod.fst := by
  rw [← get?_isSome, ← get?_isSome]
  by_cases hj : j = k
  · simp [hj, get?_raise_self]
  · simp [hj, get?_raise_of_ne]

theorem get?_bests_eq_none {xs : List (κ × ν)} {k : κ} :
    (bests xs).get? k = none ↔ ∀ v, (k, v) ∉ xs := by
  induction xs using List.reverseRecOn with
  | nil => simp [bests, Dict.get?_empty]
  | append_singleton xs x ih =>
      obtain ⟨j, w⟩ := x
      rw [bests_append]
      by_cases hj : k = j
      · subst hj
        rw [Dict.get?_raise_self]
        simp only [reduceCtorEq, List.mem_append, List.mem_singleton, Prod.mk.injEq, true_and, not_or,
          false_iff, not_forall, not_and, not_not]
        exact ⟨w, fun _ => rfl⟩
      · rw [Dict.get?_raise_of_ne _ hj, ih]
        simp [hj]

theorem get?_bests_eq_some {xs : List (κ × ν)} {k : κ} {v : ν} :
    (bests xs).get? k = some v ↔ Best xs k v := by
  induction xs using List.reverseRecOn generalizing v with
  | nil => simp [bests, Best, Dict.get?_empty]
  | append_singleton xs x ih =>
      obtain ⟨j, w⟩ := x
      rw [bests_append]
      by_cases hj : k = j
      · subst hj
        rw [Dict.get?_raise_self]
        cases hk : (bests xs).get? k with
        | none =>
            have hno := get?_bests_eq_none.mp hk
            simp only [Option.elim_none, Option.some.injEq, Best, List.mem_append, hno, false_or,
              List.mem_singleton, Prod.mk.injEq, true_and]
            exact ⟨fun h => ⟨h.symm, fun u hu => (hu.trans h).le⟩, fun h => h.1.symm⟩
        | some u =>
            obtain ⟨hu, hmax⟩ := ih.mp hk
            simp only [Option.elim_some, Option.some.injEq]
            constructor
            · rintro rfl
              constructor
              · rcases max_choice u w with hm | hm <;> rw [hm] <;> simp [hu]
              · intro t ht
                rcases List.mem_append.mp ht with ht | ht
                · exact (hmax t ht).trans (le_max_left u w)
                · obtain rfl : t = w := by simpa using ht
                  exact le_max_right u t
            · rintro ⟨hv, hall⟩
              apply le_antisymm
              · exact max_le (hall u (by simp [hu])) (hall w (by simp))
              · rcases List.mem_append.mp hv with hv | hv
                · exact (hmax v hv).trans (le_max_left u w)
                · obtain rfl : v = w := by simpa using hv
                  exact le_max_right u v
      · rw [Dict.get?_raise_of_ne _ hj, ih]
        simp [Best, hj]

/-- Runs that dominate each other have the same best values. -/
theorem get?_bests_congr {xs ys : List (κ × ν)}
    (hxy : ∀ k v, (k, v) ∈ xs → ∃ w, v ≤ w ∧ (k, w) ∈ ys)
    (hyx : ∀ k v, (k, v) ∈ ys → ∃ w, v ≤ w ∧ (k, w) ∈ xs) (k : κ) :
    (bests xs).get? k = (bests ys).get? k := by
  apply Option.ext
  intro v
  rw [get?_bests_eq_some, get?_bests_eq_some]
  suffices hone : ∀ xs ys : List (κ × ν), (∀ k v, (k, v) ∈ xs → ∃ w, v ≤ w ∧ (k, w) ∈ ys) →
      (∀ k v, (k, v) ∈ ys → ∃ w, v ≤ w ∧ (k, w) ∈ xs) → Best xs k v → Best ys k v from
    ⟨hone xs ys hxy hyx, hone ys xs hyx hxy⟩
  rintro xs ys hxy hyx ⟨hv, hmax⟩
  obtain ⟨w, hvw, hw⟩ := hxy k v hv
  have hle : ∀ u, (k, u) ∈ ys → u ≤ v := by
    intro u hu
    obtain ⟨t, hut, ht⟩ := hyx k u hu
    exact hut.trans (hmax t ht)
  obtain rfl : w = v := le_antisymm (hle w hw) hvw
  exact ⟨hw, hle⟩

end Raise

/-! ## Products over the values -/

section Prod

variable {R : Type*} [CommMonoidWithZero R] {f : ν → R} {d e : Dict κ ν}

def Dict.prod (f : ν → R) (d : Dict κ ν) : R := (d.values.map f).prod

omit [DecidableEq κ] in
theorem Dict.prod_eq_entries (f : ν → R) (d : Dict κ ν) :
    d.prod f = (d.entries.map fun x => f x.2).prod := by
  simp only [prod, values, List.map_map, Function.comp_def]

theorem Dict.prod_congr (h : ∀ k, d.get? k = e.get? k) : d.prod f = e.prod f := by
  rw [prod_eq_entries, prod_eq_entries]
  exact ((perm_entries h).map _).prod_eq

theorem Dict.prod_raise_of_none [LinearOrder ν] {k : κ} (h : d.get? k = none) (v : ν) :
    (d.raise k v).prod f = d.prod f * f v := by
  simp [prod_eq_entries, raise, raiseEntries_of_notMem (get?_eq_none.mp h)]

variable [PartialOrder R] [ZeroLEOneClass R] [PosMulMono R]

theorem Dict.prod_le_prod (hkeys : ∀ k, d.get? k = none ↔ e.get? k = none)
    (hpos : ∀ k v, d.get? k = some v → 0 ≤ f v)
    (hle : ∀ k v w, d.get? k = some v → e.get? k = some w → f v ≤ f w) :
    d.prod f ≤ e.prod f := by
  -- the values of `e` in the order of `d`
  have hperm : e.entries.Perm (d.entries.map fun x => (x.1, (e.get? x.1).getD x.2)) := by
    have hnodup : (d.entries.map fun x => (x.1, (e.get? x.1).getD x.2)).Nodup := by
      apply List.Nodup.of_map Prod.fst
      simpa only [List.map_map, Function.comp_def] using d.nodup
    rw [List.perm_ext_iff_of_nodup e.nodup_entries hnodup]
    rintro ⟨k, w⟩
    rw [← get?_eq_some, List.mem_map]
    constructor
    · intro hw
      cases hv : d.get? k with
      | none => rw [(hkeys k).mp hv] at hw; cases hw
      | some v => exact ⟨(k, v), get?_eq_some.mp hv, by simp [hw]⟩
    · rintro ⟨⟨j, v⟩, hv, heq⟩
      obtain ⟨rfl, rfl⟩ := Prod.mk.inj heq
      cases hw : e.get? j with
      | none =>
          have hd := get?_eq_some.mpr hv
          rw [(hkeys j).mpr hw] at hd
          cases hd
      | some w => rfl
  rw [prod_eq_entries, prod_eq_entries, (hperm.map _).prod_eq, List.map_map]
  apply List.prod_map_le_prod_map₀
  · intro x hx
    exact hpos x.1 x.2 (get?_eq_some.mpr hx)
  · rintro ⟨k, v⟩ hv
    have hd := get?_eq_some.mpr hv
    cases hw : e.get? k with
    | none => rw [(hkeys k).mpr hw] at hd; cases hd
    | some w => simpa [hw] using hle k v w hd hw

end Prod

end NeuralSoc
