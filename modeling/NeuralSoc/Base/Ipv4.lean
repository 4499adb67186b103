import Mathlib.Data.List.Infix
import Mathlib.Data.String.Basic

/-!
# IPv4 addresses in dotted decimals

A text is read octet by octet, with no leading zeros, so an address has one text only.
-/

namespace NeuralSoc

structure Ipv4 where
  a : Fin 256
  b : Fin 256
  c : Fin 256
  d : Fin 256
  deriving DecidableEq, Repr

namespace Ipv4

def digits (n : Fin 256) : List Char := Nat.toDigits 10 n

def isDigit (c : Char) : Bool := '0' ≤ c && c ≤ '9'

/-- `IPv4Address._parse_octet`; `none` is a `ValueError`. -/
def octet (cs : List Char) : Option (Fin 256) :=
  if cs.isEmpty || !cs.all isDigit || 3 < cs.length || (cs != ['0'] && cs.head? == some '0') then none
  else
    let n := Nat.ofDigitChars 10 cs 0
    if h : n < 256 then some ⟨n, h⟩ else none

/-- `IPv4Address(text)` -/
def ofString (text : String) : Option Ipv4 :=
  match text.toList.splitOn '.' with
  | [a, b, c, d] => do return ⟨← octet a, ← octet b, ← octet c, ← octet d⟩
  | _ => none

/-- `str(address)` -/
def text (x : Ipv4) : String := String.ofList (['.'].intercalate [digits x.a, digits x.b, digits x.c, digits x.d])

/-! ## One text for each address -/

theorem octet_digits (n : Fin 256) : octet (digits n) = some n := by
  revert n
  decide +kernel

theorem dot_not_mem_digits (n : Fin 256) : '.' ∉ digits n := by
  revert n
  decide +kernel

theorem isDigit_iff {c : Char} : isDigit c = true ↔ ∃ k : Fin 10, c = Nat.digitChar k := by
  constructor
  · intro h
    simp only [isDigit, Bool.and_eq_true, decide_eq_true_eq] at h
    have hlow : 48 ≤ c.toNat := h.1
    have hhigh : c.toNat ≤ 57 := h.2
    have hc : c = Char.ofNat (48 + (c.toNat - 48)) := by
      rw [Nat.add_sub_cancel' hlow, Char.ofNat_toNat]
    have hall : ∀ k : Fin 10, Char.ofNat (48 + k.val) = Nat.digitChar k.val := by decide
    exact ⟨⟨c.toNat - 48, by omega⟩, hc.trans (hall ⟨c.toNat - 48, by omega⟩)⟩
  · rintro ⟨k, rfl⟩
    revert k
    decide

theorem octet_chars {cs : List Char} {n : Fin 256} (h : octet cs = some n) :
    cs ≠ [] ∧ (∀ c ∈ cs, isDigit c = true) ∧ cs.length ≤ 3 := by
  unfold octet at h
  split at h
  · cases h
  · next hcs =>
      simp only [Bool.or_eq_true, Bool.not_eq_true', decide_eq_true_eq, not_or] at hcs
      exact ⟨by simpa using hcs.1.1.1, by simpa using hcs.1.1.2, Nat.not_lt.mp hcs.1.2⟩

/-- What is read from the text prints as the text. -/
def Reads (cs : List Char) : Bool := (octet cs).all fun n => cs == digits n

/-- An octet prints as it was read: the texts of one, two and three digits one by one. -/
theorem reads_of_octet {cs : List Char} {n : Fin 256} (h : octet cs = some n) : Reads cs = true := by
  have hone : ∀ i : Fin 10, Reads [Nat.digitChar i] = true := by decide +kernel
  have htwo : ∀ i j : Fin 10, Reads [Nat.digitChar i, Nat.digitChar j] = true := by decide +kernel
  have hthree : ∀ i j k : Fin 10, Reads [Nat.digitChar i, Nat.digitChar j, Nat.digitChar k] = true := by
    decide +kernel
  obtain ⟨hne, hall, hlen⟩ := octet_chars h
  match cs with
  | [] => exact absurd rfl hne
  | [c] =>
      obtain ⟨i, rfl⟩ := isDigit_iff.mp (hall c (by simp))
      exact hone i
  | [c, c'] =>
      obtain ⟨i, rfl⟩ := isDigit_iff.mp (hall c (by simp))
      obtain ⟨j, rfl⟩ := isDigit_iff.mp (hall c' (by simp))
      exact htwo i j
  | [c, c', c''] =>
      obtain ⟨i, rfl⟩ := isDigit_iff.mp (hall c (by simp))
      obtain ⟨j, rfl⟩ := isDigit_iff.mp (hall c' (by simp))
      obtain ⟨k, rfl⟩ := isDigit_iff.mp (hall c'' (by simp))
      exact hthree i j k
  | _ :: _ :: _ :: _ :: _ =>
      simp only [List.length_cons] at hlen
      omega

theorem octet_eq_some {cs : List Char} {n : Fin 256} : octet cs = some n ↔ cs = digits n := by
  constructor
  · intro h
    have hreads := reads_of_octet h
    rw [Reads, h] at hreads
    simpa using hreads
  · rintro rfl
    exact octet_digits n

theorem ofString_text (x : Ipv4) : ofString x.text = some x := by
  have hparts : x.text.toList.splitOn '.' = [digits x.a, digits x.b, digits x.c, digits x.d] := by
    rw [text, String.toList_ofList]
    apply List.splitOn_intercalate
    · simp [dot_not_mem_digits]
    · simp
  simp [ofString, hparts, octet_digits]

theorem ofString_eq_some {s : String} {x : Ipv4} : ofString s = some x ↔ s = x.text := by
  constructor
  · intro h
    unfold ofString at h
    split at h
    · next a b c d hparts =>
        simp only [Option.pure_def, Option.bind_eq_bind, Option.bind_eq_some_iff, Option.some.injEq,
          octet_eq_some] at h
        obtain ⟨_, rfl, _, rfl, _, rfl, _, rfl, rfl⟩ := h
        rw [text, ← hparts, List.intercalate_splitOn, String.ofList_toList]
    · cases h
  · rintro rfl
    exact ofString_text x

theorem mem_text {x : Ipv4} {ch : Char} (h : ch ∈ x.text.toList) : isDigit ch = true ∨ ch = '.' := by
  have hdigits (n : Fin 256) (hch : ch ∈ digits n) : isDigit ch = true :=
    Nat.isDigit_of_mem_toDigits (by decide) (by decide) hch
  rw [text, String.toList_ofList] at h
  simp only [List.intercalate, List.intersperse, List.flatten_cons, List.flatten_nil, List.append_nil,
    List.mem_append, List.mem_singleton] at h
  rcases h with h | h | h | h | h | h | h
  · exact .inl (hdigits _ h)
  · exact .inr h
  · exact .inl (hdigits _ h)
  · exact .inr h
  · exact .inl (hdigits _ h)
  · exact .inr h
  · exact .inl (hdigits _ h)

end Ipv4

end NeuralSoc
