import Mathlib.Data.Int.Cast.Lemmas
import NeuralSoc.Conn.Lemmas.Members

/-!
# Texts of floats

Floats written as a quotient of decimal numbers, a whole number as Python writes it. They are read back
exactly and have no colon, so the assumptions on a runtime can be met.
-/

namespace NeuralSoc.Conn

def floatText : PyFloat → String
  | .nan => "nan"
  | .inf neg => if neg then "-inf" else "inf"
  | .fin q =>
      (if q.num < 0 then "-" else "") ++ toString q.num.natAbs ++
        if q.den = 1 then ".0" else "/" ++ toString q.den

def readUnsigned (cs : List Char) : Option ℚ :=
  let digits : ℕ := Nat.ofDigitChars 10 (cs.takeWhile Char.isDigit) 0
  match cs.dropWhile Char.isDigit with
  | ['.', '0'] => some digits
  | '/' :: den => some (digits / Nat.ofDigitChars 10 den 0)
  | _ => none

def readNumber : List Char → Option ℚ
  | '-' :: cs => (readUnsigned cs).map (- ·)
  | cs => readUnsigned cs

def readFloat (text : String) : Option PyFloat :=
  match readNumber text.toList with
  | some q => some (.fin q)
  | none =>
      if text = "inf" then some (.inf false)
      else if text = "-inf" then some (.inf true)
      else if text = "nan" then some .nan
      else none

theorem toList_toString (n : ℕ) : (toString n).toList = Nat.toDigits 10 n := Nat.toList_repr

theorem span_digits (n : ℕ) (rest : List Char) (hrest : rest.head?.all fun c => !c.isDigit) :
    (Nat.toDigits 10 n ++ rest).takeWhile Char.isDigit = Nat.toDigits 10 n ∧
      (Nat.toDigits 10 n ++ rest).dropWhile Char.isDigit = rest := by
  have hdigits : ∀ c ∈ Nat.toDigits 10 n, c.isDigit = true := fun c hc =>
    Nat.isDigit_of_mem_toDigits (by decide) (by decide) hc
  have hstop : rest.takeWhile Char.isDigit = [] ∧ rest.dropWhile Char.isDigit = rest := by
    cases rest with
    | nil => exact ⟨rfl, rfl⟩
    | cons c rest =>
        have hc : c.isDigit = false := by simpa using hrest
        simp [hc]
  rw [List.takeWhile_append_of_pos hdigits, List.dropWhile_append_of_pos hdigits, hstop.1, hstop.2,
    List.append_nil]
  exact ⟨rfl, rfl⟩

theorem readUnsigned_digits (n d : ℕ) :
    readUnsigned (Nat.toDigits 10 n ++ (if d = 1 then ".0" else "/" ++ toString d).toList) =
      some ((n : ℚ) / d) := by
  have hread : ∀ m : ℕ, Nat.ofDigitChars 10 (Nat.toDigits 10 m) 0 = m := fun m =>
    Nat.ofDigitChars_toDigits (by decide) (by decide)
  split
  · next hd =>
      obtain ⟨htake, hdrop⟩ := span_digits n ['.', '0'] (by decide)
      simp [readUnsigned, htake, hdrop, hread, hd]
  · obtain ⟨htake, hdrop⟩ := span_digits n ('/' :: Nat.toDigits 10 d) rfl
    have hslash : ("/" ++ toString d).toList = '/' :: Nat.toDigits 10 d := by
      rw [String.toList_append, toList_toString]
      rfl
    rw [hslash]
    simp [readUnsigned, htake, hdrop, hread]

theorem readNumber_text (q : ℚ) : readNumber (floatText (.fin q)).toList = some q := by
  have hcast : ((q.num.natAbs : ℕ) : ℚ) = ((q.num.natAbs : ℤ) : ℚ) := (Int.cast_natCast _).symm
  have hbody := readUnsigned_digits q.num.natAbs q.den
  rw [floatText, String.toList_append, String.toList_append, toList_toString, List.append_assoc]
  by_cases hneg : q.num < 0
  · have hq : -((q.num.natAbs : ℚ) / q.den) = q := by
      have habs : (q.num.natAbs : ℤ) = -q.num := by omega
      rw [hcast, habs, Int.cast_neg, neg_div, neg_neg, Rat.num_div_den]
    have hminus : (if q.num < 0 then "-" else "").toList = ['-'] := by rw [if_pos hneg]; rfl
    rw [hminus, List.singleton_append, readNumber, hbody, Option.map_some, hq]
  · have hq : (q.num.natAbs : ℚ) / q.den = q := by
      have habs : (q.num.natAbs : ℤ) = q.num := by omega
      rw [hcast, habs, Rat.num_div_den]
    rw [if_neg hneg]
    cases hdigits : Nat.toDigits 10 q.num.natAbs with
    | nil => exact absurd hdigits Nat.toDigits_ne_nil
    | cons c cs =>
        have hc : c.isDigit = true :=
          Nat.isDigit_of_mem_toDigits (by decide) (by decide) (hdigits ▸ List.mem_cons_self ..)
        have hminus : c ≠ '-' := by
          rintro rfl
          exact absurd hc (by decide)
        rw [hdigits, hq] at hbody
        rw [String.toList_empty, List.nil_append, List.cons_append, readNumber]
        · exact hbody
        · rintro cs' hcs'
          exact hminus (List.cons.inj hcs').1

theorem readFloat_text (x : PyFloat) : readFloat (floatText x) = some x := by
  cases x with
  | nan => decide
  | inf neg =>
      cases neg with
      | false => decide
      | true => decide
  | fin q => rw [readFloat, readNumber_text]

theorem floatText_no_colon (x : PyFloat) : ':' ∉ (floatText x).toList := by
  cases x with
  | nan => decide
  | inf neg =>
      cases neg with
      | false => decide
      | true => decide
  | fin q =>
      rw [floatText, String.toList_append, String.toList_append]
      simp only [List.mem_append, not_or]
      refine ⟨⟨?_, colon_not_mem_toString _⟩, ?_⟩
      · split
        · decide
        · decide
      · split
        · decide
        · rw [String.toList_append, List.mem_append, not_or]
          exact ⟨by decide, colon_not_mem_toString _⟩

theorem plainRuntime_ipAddress {s a : String} (h : plainRuntime.ipAddress s = some a) :
    a = "10.0.0.5" ∨ a = "127.0.0.1" := by
  simp only [plainRuntime] at h
  split at h
  · next hknown =>
      cases h
      simpa using hknown
  · cases h

/-- Two addresses, and floats with their texts. -/
def textRuntime : ConnRuntime where
  toRuntime := { plainRuntime with
    str := fun
      | .float x => floatText x
      | v => plainRuntime.str v
    str_str := fun _ => rfl
    floatOfStr := readFloat }
  floatOfStr_str := readFloat_text
  no_colon := floatText_no_colon
  one_scope s a h := by
    rcases plainRuntime_ipAddress h with rfl | rfl
    · decide
    · decide
  brace_in_scope s a before after h hsplit := by
    have hmem : '}' ∈ a.toList := by
      rw [hsplit]
      simp
    rcases plainRuntime_ipAddress h with rfl | rfl
    · exact absurd hmem (by decide)
    · exact absurd hmem (by decide)

end NeuralSoc.Conn
