import Mathlib.Data.List.Infix

/-!
# Textual replacement

`replaceAll old new` goes over a text from the left, as Python's `str.replace` does, and does not look again
at what it has put in. Where a character that `old` lacks cuts the text, the two sides are replaced apart.
-/

namespace NeuralSoc

variable {α : Type*} [DecidableEq α]

/-- The number says how many characters of the last occurrence are still to be skipped. -/
def replaceFrom (old new : List α) : ℕ → List α → List α
  | _, [] => []
  | skip + 1, _ :: cs => replaceFrom old new skip cs
  | 0, c :: cs =>
      if old.isPrefixOf (c :: cs) then new ++ replaceFrom old new (old.length - 1) cs
      else c :: replaceFrom old new 0 cs

/-- `text.replace(old, new)` for a text `old` that is not empty. -/
def replaceAll (old new text : List α) : List α := replaceFrom old new 0 text

variable {old new : List α} {c : α} {a b text : List α}

theorem replaceFrom_skip (skip : ℕ) (text : List α) :
    replaceFrom old new skip text = replaceFrom old new 0 (text.drop skip) := by
  induction skip generalizing text with
  | zero => rfl
  | succ skip ih =>
      cases text with
      | nil => rfl
      | cons c cs => exact ih cs

theorem replaceAll_nil : replaceAll old new [] = [] := rfl

theorem replaceAll_cons_of_not_isPrefix (h : ¬ old <+: c :: text) :
    replaceAll old new (c :: text) = c :: replaceAll old new text := by
  rw [replaceAll, replaceFrom, if_neg (by rwa [List.isPrefixOf_iff_prefix])]
  rfl

theorem replaceAll_append_self (hold : old ≠ []) (text : List α) :
    replaceAll old new (old ++ text) = new ++ replaceAll old new text := by
  cases old with
  | nil => exact absurd rfl hold
  | cons o old =>
      rw [replaceAll, List.cons_append, replaceFrom, if_pos (by simp [List.isPrefixOf_iff_prefix]),
        replaceFrom_skip]
      simp [replaceAll]

theorem replaceAll_self (hold : old ≠ []) : replaceAll old new old = new := by
  have hcopy : replaceAll old new (old ++ []) = new ++ replaceAll old new [] := replaceAll_append_self hold []
  simpa [replaceAll_nil] using hcopy

theorem replaceAll_of_not_isInfix (h : ¬ old <:+: text) : replaceAll old new text = text := by
  induction text with
  | nil => rfl
  | cons c cs ih =>
      rw [List.infix_cons_iff, not_or] at h
      rw [replaceAll_cons_of_not_isPrefix h.1, ih h.2]

/-- A text begins with an occurrence, or its first character is left alone. -/
theorem replace_induction (hold : old ≠ []) {motive : List α → Prop} (nil : motive [])
    (found : ∀ text, motive text → motive (old ++ text))
    (other : ∀ c text, ¬ old <+: c :: text → motive text → motive (c :: text)) (text : List α) :
    motive text := by
  induction hn : text.length using Nat.strong_induction_on generalizing text with
  | _ n ih =>
      subst hn
      cases text with
      | nil => exact nil
      | cons c text =>
          by_cases hbegins : old <+: c :: text
          · obtain ⟨rest, hrest⟩ := hbegins
            have hpos := List.length_pos_iff.mpr hold
            rw [← hrest]
            refine found rest (ih rest.length ?_ rest rfl)
            rw [← hrest, List.length_append]
            omega
          · exact other c text hbegins (ih text.length (Nat.lt_succ_self _) text rfl)

/-! ## Cuts -/

omit [DecidableEq α] in
theorem prefix_append_cons_iff (hc : c ∉ old) : old <+: a ++ c :: b ↔ old <+: a := by
  constructor
  · intro h
    rcases List.prefix_or_prefix_of_prefix h (List.prefix_append a _) with ha | ⟨q, rfl⟩
    · exact ha
    · cases q with
      | nil => simp
      | cons x q =>
          rw [List.prefix_append_right_inj, List.cons_prefix_cons] at h
          exact absurd (by simp [h.1]) hc
  · exact List.prefix_append_of_prefix

omit [DecidableEq α] in
theorem infix_append_cons_iff (hold : old ≠ []) (hc : c ∉ old) :
    old <:+: a ++ c :: b ↔ old <:+: a ∨ old <:+: b := by
  induction a with
  | nil =>
      have hno : ¬ old <+: c :: b := by
        rw [← List.nil_append (c :: b), prefix_append_cons_iff hc, List.prefix_nil]
        exact hold
      rw [List.nil_append, List.infix_cons_iff, or_iff_right hno, List.infix_nil, or_iff_right hold]
  | cons x a ih =>
      rw [List.cons_append, List.infix_cons_iff, ih, List.infix_cons_iff, ← List.cons_append,
        prefix_append_cons_iff hc, or_assoc]

theorem replaceAll_append_cons (hold : old ≠ []) (hc : c ∉ old) (a b : List α) :
    replaceAll old new (a ++ c :: b) = replaceAll old new a ++ c :: replaceAll old new b := by
  induction a using replace_induction hold with
  | nil =>
      rw [List.nil_append, replaceAll_cons_of_not_isPrefix]
      · rfl
      · rw [← List.nil_append (c :: b), prefix_append_cons_iff hc, List.prefix_nil]
        exact hold
  | found a ih => rw [List.append_assoc, replaceAll_append_self hold, ih, replaceAll_append_self hold,
      List.append_assoc]
  | other x a hno ih =>
      rw [List.cons_append, replaceAll_cons_of_not_isPrefix, ih, replaceAll_cons_of_not_isPrefix hno,
        List.cons_append]
      rwa [← List.cons_append, prefix_append_cons_iff hc]

theorem replaceAll_singleton (x : α) (text : List α) :
    replaceAll [x] new text = text.flatMap fun c => if c = x then new else [c] := by
  induction text with
  | nil => rfl
  | cons c text ih =>
      rw [List.flatMap_cons, ← ih]
      by_cases hc : c = x
      · subst hc
        rw [if_pos rfl]
        exact replaceAll_append_self (List.cons_ne_nil c []) text
      · rw [if_neg hc, replaceAll_cons_of_not_isPrefix]
        · rfl
        · rw [List.cons_prefix_cons]
          exact fun h => hc h.1.symm

/-! ## Counts -/

/-- Every character is counted with the occurrences that have been replaced. -/
theorem replaceAll_count (hold : old ≠ []) (new text : List α) :
    ∃ n, (n = 0 ↔ ¬ old <:+: text) ∧ ∀ x,
      (replaceAll old new text).count x + n * old.count x = text.count x + n * new.count x := by
  induction text using replace_induction hold with
  | nil => exact ⟨0, by simpa using hold, by simp [replaceAll_nil]⟩
  | found text ih =>
      obtain ⟨n, -, hcount⟩ := ih
      refine ⟨n + 1, by simp [List.infix_append_left], fun x => ?_⟩
      have := hcount x
      rw [replaceAll_append_self hold, List.count_append, List.count_append, Nat.succ_mul, Nat.succ_mul]
      omega
  | other c text hno ih =>
      obtain ⟨n, hn, hcount⟩ := ih
      refine ⟨n, by rw [hn, List.infix_cons_iff, or_iff_right hno], fun x => ?_⟩
      have := hcount x
      rw [replaceAll_cons_of_not_isPrefix hno, List.count_cons, List.count_cons]
      omega

end NeuralSoc
