import Mathlib.Data.List.Nodup
import NeuralSoc.Base.Value

/-!
# Values that are written and read back

`json.loads(json.dumps(x))`. The text of a string names UTF-16 units, so two surrogates that make a
pair are read back as one character; a key that is written twice keeps its last value. NaN and the infinities
have names of their own, and a float is written with all its digits.
-/

namespace NeuralSoc.Json

/-! ## Reading back -/

def joinPairs : List ℕ → List ℕ
  | high :: low :: units =>
      if (0xd800 ≤ high ∧ high < 0xdc00) ∧ 0xdc00 ≤ low ∧ low < 0xe000 then
        (0x10000 + (high - 0xd800) * 0x400 + (low - 0xdc00)) :: joinPairs units
      else high :: joinPairs (low :: units)
  | units => units

/-- The text of the code points. -/
def ofPoints (units : List ℕ) : Json :=
  if units.all fun n => Nat.isValidChar n then .str (String.ofList (units.map Char.ofNat)) else .lone units

/-- A dict of the pairs in their order. -/
def dictOf (fields : Object) : Object := fields.foldl (fun d f => d.set f.1 f.2) []

mutual
def reload : Json → Json
  | .null => .null
  | .bool b => .bool b
  | .int i => .int i
  | .float x => .float x
  | .str s => .str s
  | .lone units => ofPoints (joinPairs units)
  | .arr xs => .arr (reloadList xs)
  | .obj fields => .obj (dictOf (reloadFields fields))

def reloadList : List Json → List Json
  | [] => []
  | x :: xs => reload x :: reloadList xs

def reloadFields : List (String × Json) → List (String × Json)
  | [] => []
  | (k, x) :: fields => (k, reload x) :: reloadFields fields
end

/-! ## Values that come back unchanged -/

mutual
/-- All texts are valid Unicode, and the keys of a dict are different. -/
def WellFormed : Json → Prop
  | .lone _ => False
  | .arr xs => WellFormedList xs
  | .obj fields => (fields.map Prod.fst).Nodup ∧ WellFormedFields fields
  | _ => True

def WellFormedList : List Json → Prop
  | [] => True
  | x :: xs => WellFormed x ∧ WellFormedList xs

def WellFormedFields : List (String × Json) → Prop
  | [] => True
  | (_, x) :: fields => WellFormed x ∧ WellFormedFields fields
end

theorem set_of_not_mem {d : Object} {k : String} (h : k ∉ d.map Prod.fst) (v : Json) :
    d.set k v = d ++ [(k, v)] := by
  have hnone : d.any (·.1 == k) = false := by
    refine List.any_eq_false.mpr fun f hf hk => h ?_
    exact List.mem_map.mpr ⟨f, hf, beq_iff_eq.mp hk⟩
  rw [Object.set, hnone]
  rfl

theorem foldl_set {fields d : Object} (h : ((d ++ fields).map Prod.fst).Nodup) :
    fields.foldl (fun d f => d.set f.1 f.2) d = d ++ fields := by
  induction fields generalizing d with
  | nil => exact (List.append_nil d).symm
  | cons f fields ih =>
      have hsplit : d ++ f :: fields = d ++ [f] ++ fields := by simp
      have hnew : f.1 ∉ d.map Prod.fst := by
        rw [List.map_append, List.map_cons] at h
        intro hmem
        exact List.disjoint_of_nodup_append h hmem List.mem_cons_self
      rw [List.foldl_cons, set_of_not_mem hnew, ih (by rwa [hsplit] at h), hsplit]

theorem dictOf_eq {fields : Object} (h : (fields.map Prod.fst).Nodup) : dictOf fields = fields := foldl_set h

mutual
theorem reload_eq {x : Json} (h : WellFormed x) : reload x = x := by
  match x with
  | .null | .bool _ | .int _ | .float _ | .str _ => rfl
  | .lone _ => exact h.elim
  | .arr xs => rw [reload, reloadList_eq h]
  | .obj fields => rw [reload, reloadFields_eq h.2, dictOf_eq h.1]

theorem reloadList_eq {xs : List Json} (h : WellFormedList xs) : reloadList xs = xs := by
  match xs with
  | [] => rfl
  | x :: xs => rw [reloadList, reload_eq h.1, reloadList_eq h.2]

theorem reloadFields_eq {fields : List (String × Json)} (h : WellFormedFields fields) :
    reloadFields fields = fields := by
  match fields with
  | [] => rfl
  | (k, x) :: fields => rw [reloadFields, reload_eq h.1, reloadFields_eq h.2]
end

end NeuralSoc.Json
