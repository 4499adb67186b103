import Mathlib.Data.Rat.Defs
import Mathlib.Data.String.Basic

/-!
# Python values

The values `json.loads` produces, as the services read them: numbers in exact arithmetic, texts,
lists and objects. What a built-in prints (`str` of a list, `json.dumps`) is left to a `Runtime`.
-/

namespace NeuralSoc

/-- A float in exact arithmetic: rounding is not modelled, the special values are. -/
inductive PyFloat where
  | nan
  | inf (neg : Bool)
  | fin (q : ℚ)
  deriving DecidableEq, Repr

namespace PyFloat

/-- `a < b`: any comparison with NaN is false. -/
def lt : PyFloat → PyFloat → Bool
  | .nan, _ => false
  | _, .nan => false
  | .inf n, .inf m => n && !m
  | .inf n, .fin _ => n
  | .fin _, .inf m => !m
  | .fin a, .fin b => decide (a < b)

-- `max` and `min` return the first argument unless the second one compares greater or less.
def max (a b : PyFloat) : PyFloat := if a.lt b then b else a

def min (a b : PyFloat) : PyFloat := if b.lt a then b else a

def isFinite : PyFloat → Bool
  | .fin _ => true
  | _ => false

theorem lt_fin (a b : ℚ) : (fin a).lt (fin b) = decide (a < b) := rfl

end PyFloat

/-- What `json.loads` returns. `lone` is a text with an unpaired surrogate, which Python's `str` can
hold and a Lean `String` cannot. -/
inductive Json where
  | null
  | bool (b : Bool)
  | int (i : Int)
  | float (x : PyFloat)
  | str (s : String)
  | lone (units : List Nat)
  | arr (xs : List Json)
  | obj (fields : List (String × Json))

namespace Json

mutual
def decEq : (a b : Json) → Decidable (a = b)
  | .null, b => by
      cases b with
      | null => exact isTrue rfl
      | _ => exact isFalse nofun
  | .bool a, b => by
      cases b with
      | bool b => exact decidable_of_iff (a = b) (by simp)
      | _ => exact isFalse nofun
  | .int a, b => by
      cases b with
      | int b => exact decidable_of_iff (a = b) (by simp)
      | _ => exact isFalse nofun
  | .float a, b => by
      cases b with
      | float b => exact decidable_of_iff (a = b) (by simp)
      | _ => exact isFalse nofun
  | .str a, b => by
      cases b with
      | str b => exact decidable_of_iff (a = b) (by simp)
      | _ => exact isFalse nofun
  | .lone a, b => by
      cases b with
      | lone b => exact decidable_of_iff (a = b) (by simp)
      | _ => exact isFalse nofun
  | .arr xs, b => by
      cases b with
      | arr ys => exact @decidable_of_iff _ (xs = ys) (by simp) (decEqList xs ys)
      | _ => exact isFalse nofun
  | .obj xs, b => by
      cases b with
      | obj ys => exact @decidable_of_iff _ (xs = ys) (by simp) (decEqFields xs ys)
      | _ => exact isFalse nofun

def decEqList : (xs ys : List Json) → Decidable (xs = ys)
  | [], [] => isTrue rfl
  | [], _ :: _ => isFalse nofun
  | _ :: _, [] => isFalse nofun
  | x :: xs, y :: ys => by
      have := decEq x y
      have := decEqList xs ys
      exact decidable_of_iff (x = y ∧ xs = ys) (by simp)

def decEqFields : (xs ys : List (String × Json)) → Decidable (xs = ys)
  | [], [] => isTrue rfl
  | [], _ :: _ => isFalse nofun
  | _ :: _, [] => isFalse nofun
  | (k, x) :: xs, (l, y) :: ys => by
      have := decEq x y
      have := decEqFields xs ys
      exact decidable_of_iff (k = l ∧ x = y ∧ xs = ys) (by simp [and_assoc])
end

instance : DecidableEq Json := decEq

/-- Python truth: zero, the empty text, the empty list and the empty object are false. -/
def truthy : Json → Bool
  | .null => false
  | .bool b => b
  | .int i => i != 0
  | .float x => x != .fin 0
  | .str s => s != ""
  | .lone _ => true
  | .arr xs => !xs.isEmpty
  | .obj fields => !fields.isEmpty

/-- `isinstance(x, str)`. -/
def isStr : Json → Bool
  | .str _ | .lone _ => true
  | _ => false

/-- `a or b`. -/
def or (a b : Json) : Json := if a.truthy then a else b

end Json

/-- A Python dict with text keys, as parsed from a JSON object. -/
abbrev Object := List (String × Json)

/-- `d.get(key)`: `None` when the key is absent. -/
def Object.get (d : Object) (key : String) : Json := (d.lookup key).getD .null

/-- `d.get(key, default)`. -/
def Object.getD (d : Object) (key : String) (default : Json) : Json := (d.lookup key).getD default

/-- `{**d, key: value}`: an existing key keeps its place. -/
def Object.set (d : Object) (key : String) (value : Json) : Object :=
  if d.any (·.1 == key) then d.map fun f => if f.1 == key then (key, value) else f
  else d ++ [(key, value)]

theorem Object.lookup_set_of_ne (d : Object) {k j : String} (v : Json) (h : j ≠ k) :
    (d.set k v).lookup j = d.lookup j := by
  have hb : (j == k) = false := beq_false_of_ne h
  have hmap : (d.map fun f => if f.1 == k then (k, v) else f).lookup j = d.lookup j := by
    induction d with
    | nil => rfl
    | cons f d ih =>
        obtain ⟨l, x⟩ := f
        by_cases hl : l = k
        · subst hl
          simp only [List.map_cons, beq_self_eq_true, ↓reduceIte, List.lookup_cons, hb]
          exact ih
        · have hl' : (l == k) = false := beq_false_of_ne hl
          simp only [List.map_cons, hl', Bool.false_eq_true, ↓reduceIte, List.lookup_cons, ih]
  unfold Object.set
  split
  · exact hmap
  · simp only [List.lookup_append, List.lookup_cons, hb, List.lookup_nil, Option.or_none]

theorem Object.lookup_set_self (d : Object) (k : String) (v : Json) : (d.set k v).lookup k = some v := by
  unfold Object.set
  split
  · rename_i hmem
    induction d with
    | nil => cases hmem
    | cons f d ih =>
        obtain ⟨j, x⟩ := f
        by_cases hj : j = k
        · simp [hj]
        · have hb : (j == k) = false := beq_false_of_ne hj
          have hb' : (k == j) = false := beq_false_of_ne (Ne.symm hj)
          rw [List.any_cons, hb, Bool.false_or] at hmem
          simp only [List.map_cons, hb, Bool.false_eq_true, ↓reduceIte, List.lookup_cons, hb']
          exact ih hmem
  · rename_i hmem
    have hnone : d.lookup k = none := by
      refine List.lookup_eq_none_iff.mpr fun f hf => ?_
      have hne : (f.1 == k) = false := by simpa using List.any_eq_false.mp (Bool.eq_false_of_not_eq_true hmem) f hf
      exact bne_iff_ne.mpr fun h => ne_of_beq_false hne h.symm
    rw [List.lookup_append, hnone]
    simp

/-- The exception classes the handlers tell apart. -/
inductive ExcClass where
  | timeoutError
  | redisError
  | typeError
  | valueError
  | other
  deriving DecidableEq, Repr

/-- A raised exception with its `str(e)`. -/
structure Exc where
  cls : ExcClass
  text : String
  deriving DecidableEq, Repr

/-- The built-ins and libraries whose printed or parsed form is not modelled. -/
structure Runtime where
  /-- `str(x)` -/
  str : Json → String
  str_str : ∀ s, str (.str s) = s
  /-- `json.dumps(x)` -/
  dumps : Json → String
  /-- `text.lower()` -/
  lower : String → String
  /-- `float(text)`; `none` is a `ValueError` -/
  floatOfStr : String → Option PyFloat
  /-- `str(ipaddress.ip_address(text))`; `none` is a `ValueError` -/
  ipAddress : String → Option String
  /-- the float pydantic reads from a text -/
  payloadFloat : String → Option PyFloat
  /-- the text of pydantic's `ValidationError` -/
  validationText : Object → String
  /-- the exception of `propagate.extract({"traceparent": x})`, if it raises -/
  extract : Json → Option Exc

attribute [simp] Runtime.str_str

/-- A runtime that prints texts, integers and constants, reads no number from a text and knows two
addresses. -/
def plainRuntime : Runtime where
  str
    | .str s => s
    | .int i => toString i
    | .null => "None"
    | .bool b => if b then "True" else "False"
    | _ => ""
  str_str _ := rfl
  dumps _ := ""
  lower := String.toLower
  floatOfStr _ := none
  ipAddress s := if s = "10.0.0.5" || s = "127.0.0.1" then some s else none
  payloadFloat _ := none
  validationText _ := "validation error for AlertPayload"
  extract x := if x.isStr then none else some ⟨.typeError, "expected string or bytes-like object"⟩

/-- `float(x)`. -/
def toFloat (rt : Runtime) : Json → Except Exc PyFloat
  | .bool b => .ok (.fin (if b then 1 else 0))
  | .int i =>
      -- the least integer that rounds to a power out of the range of a double
      if i.natAbs < 2 ^ 1024 - 2 ^ 970 then .ok (.fin i)
      else .error ⟨.other, "int too large to convert to float"⟩
  | .float x => .ok x
  | .str s =>
      match rt.floatOfStr s with
      | some x => .ok x
      | none => .error ⟨.valueError, "could not convert string to float"⟩
  | .lone _ => .error ⟨.valueError, "surrogates not allowed"⟩
  | _ => .error ⟨.typeError, "float() argument must be a string or a real number"⟩

/-- The characters `str.strip` removes. -/
def isSpace (c : Char) : Bool :=
  let n := c.toNat
  (9 ≤ n && n ≤ 13) || (28 ≤ n && n ≤ 32) || n == 0x85 || n == 0xa0 || n == 0x1680 ||
    (0x2000 ≤ n && n ≤ 0x200a) || n == 0x2028 || n == 0x2029 || n == 0x202f || n == 0x205f ||
    n == 0x3000

/-- `text.strip()`. -/
def strip (s : String) : String :=
  String.ofList ((s.toList.dropWhile isSpace).reverse.dropWhile isSpace).reverse

theorem strip_empty : strip "" = "" := by decide

theorem toString_inj {m n : ℕ} (h : toString m = toString n) : m = n := by
  have hdigits : Nat.toDigits 10 m = Nat.toDigits 10 n := by
    rw [← Nat.toList_repr, ← Nat.toList_repr]
    exact congrArg String.toList h
  have hread := congrArg (Nat.ofDigitChars 10 · 0) hdigits
  simpa [Nat.ofDigitChars_toDigits] using hread

/-- The address a tracker names its keys by; `none` when the text is no address. -/
def normalizeIp (rt : Runtime) (rawIp : String) : Option String :=
  match rt.ipAddress (strip rawIp) with
  | none => none
  | some normalized => if normalized.length > 45 then none else some normalized

end NeuralSoc
