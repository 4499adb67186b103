import NeuralSoc.Playbooks.Generate
import Mathlib.Algebra.Order.BigOperators.Group.List
import Mathlib.Tactic.Ring

/-!
# Formatting a template of words

`safe_format_string` replaces the fields one after another, so a later field is also replaced in the values
that are already in the text. Where that happens the text gains a weight: a value in quotes brings its quotes
and a value without quotes has no brace to make up for the one that is gone.
-/

namespace NeuralSoc.Playbooks

open Shell

def ruleNames : List String := ["src_ip", "dst_ip", "dst_port", "domain", "ja3_hash"]

/-- The character that every placeholder begins with. -/
def brace : ℕ := 123

variable {name : String} {f : String × Text} {fields before after : List (String × Text)} {text : Text}

/-! ## Placeholders -/

theorem placeholder_spec : ∀ name ∈ ruleNames,
    placeholder name ≠ [] ∧ (placeholder name).count brace = 1 ∧ singleQuote ∉ placeholder name ∧
      doubleQuote ∉ placeholder name ∧ (∀ c ∈ placeholder name, isOrdinary c = true ∧ isSeparator c = false) ∧
      ∀ other ∈ ruleNames, placeholder name <:+: placeholder other → name = other := by
  decide +kernel

section

variable (hname : name ∈ ruleNames)
include hname

theorem placeholder_ne_nil : placeholder name ≠ [] := (placeholder_spec name hname).1

theorem count_brace_placeholder : (placeholder name).count brace = 1 := (placeholder_spec name hname).2.1

theorem placeholder_quotes : singleQuote ∉ placeholder name ∧ doubleQuote ∉ placeholder name := by
  obtain ⟨-, -, hsingle, hdouble, -⟩ := placeholder_spec name hname
  exact ⟨hsingle, hdouble⟩

theorem placeholder_ordinary : ∀ c ∈ placeholder name, isOrdinary c = true := by
  obtain ⟨-, -, -, -, hchars, -⟩ := placeholder_spec name hname
  exact fun c hc => (hchars c hc).1

theorem placeholder_separators : ∀ c ∈ placeholder name, isSeparator c = false := by
  obtain ⟨-, -, -, -, hchars, -⟩ := placeholder_spec name hname
  exact fun c hc => (hchars c hc).2

theorem eq_of_placeholder {other : String} (hother : other ∈ ruleNames)
    (h : placeholder name <:+: placeholder other) : name = other := by
  obtain ⟨-, -, -, -, -, honly⟩ := placeholder_spec name hname
  exact honly other hother h

theorem brace_mem_of_placeholder (h : placeholder name <:+: text) : brace ∈ text := by
  have hone := count_brace_placeholder hname
  exact h.subset (List.count_pos_iff.mp (by omega))

end

theorem name_mem (hnames : fields.map Prod.fst = ruleNames) : ∀ f ∈ fields, f.1 ∈ ruleNames := by
  intro f hf
  rw [← hnames]
  exact List.mem_map_of_mem hf

theorem map_fst_quoted (fields : List (String × Text)) :
    (quoted fields).map Prod.fst = fields.map Prod.fst := by
  simp [quoted, Function.comp_def]

/-! ## Formatting -/

theorem safeFormatString_cons (text : Text) (f : String × Text) (fields : List (String × Text)) :
    safeFormatString text (f :: fields) = safeFormatString (replaceAll (placeholder f.1) f.2 text) fields :=
  rfl

theorem safeFormatString_append (text : Text) (fields others : List (String × Text)) :
    safeFormatString text (fields ++ others) = safeFormatString (safeFormatString text fields) others :=
  List.foldl_append ..

theorem safeFormatString_of_not_isInfix (h : ∀ f ∈ fields, ¬ placeholder f.1 <:+: text) :
    safeFormatString text fields = text := by
  induction fields with
  | nil => rfl
  | cons f fields ih =>
      rw [safeFormatString_cons, replaceAll_of_not_isInfix (h f (List.mem_cons_self ..)),
        ih fun g hg => h g (List.mem_cons_of_mem _ hg)]

theorem safeFormatString_words (hnames : ∀ f ∈ fields, f.1 ∈ ruleNames) (text : Text) :
    safeFormatString text fields = mapWords (fun w => safeFormatString w fields) text := by
  have hglue : ∀ (first : Text) (others : List (ℕ × Text)), (∀ w ∈ others, isSeparator w.1 = true) →
      safeFormatString (glue first others) fields =
        glue (safeFormatString first fields) (others.map fun w => (w.1, safeFormatString w.2 fields)) := by
    induction fields with
    | nil => simp [safeFormatString]
    | cons f fields ih =>
        intro first others hothers
        have hname := hnames f (List.mem_cons_self ..)
        have hmap : ∀ w ∈ others.map fun w => (w.1, replaceAll (placeholder f.1) f.2 w.2),
            isSeparator w.1 = true := by
          intro w hw
          obtain ⟨w', hw', rfl⟩ := List.mem_map.mp hw
          exact hothers w' hw'
        rw [safeFormatString_cons,
          replaceAll_glue (placeholder_ne_nil hname) (placeholder_separators hname) _ _ hothers,
          ih (fun g hg => hnames g (List.mem_cons_of_mem _ hg)) _ _ hmap, List.map_map]
        rfl
  have htext := hglue (cut text).1 (cut text).2 (separator_of_cut text)
  rwa [glue_cut] at htext

theorem not_infix_before (hnames : (before ++ f :: after).map Prod.fst = ruleNames) :
    ∀ g ∈ before, ¬ placeholder g.1 <:+: placeholder f.1 := by
  intro g hg hoccurs
  have hmem := name_mem hnames
  have heq := eq_of_placeholder (hmem g (by simp [hg])) (hmem f (by simp)) hoccurs
  have hnodup : ((before ++ f :: after).map Prod.fst).Nodup := by
    rw [hnames]
    decide
  rw [List.map_append, List.nodup_append] at hnodup
  exact hnodup.2.2 g.1 (List.mem_map_of_mem hg) f.1 (by simp) heq

/-- A placeholder becomes the value of its field, which the fields after it are replaced in. -/
theorem safeFormatString_placeholder (hnames : (before ++ f :: after).map Prod.fst = ruleNames) :
    safeFormatString (placeholder f.1) (before ++ f :: after) = safeFormatString f.2 after := by
  rw [safeFormatString_append, safeFormatString_of_not_isInfix (not_infix_before hnames),
    safeFormatString_cons, replaceAll_self (placeholder_ne_nil (name_mem hnames f (by simp)))]

/-! ## Weights -/

/-- Every quote counts and every brace counts against it. -/
def weight (m : ℕ) (text : Text) : ℤ := m * text.count singleQuote - text.count brace

variable {m : ℕ}

theorem weight_append (a b : Text) : weight m (a ++ b) = weight m a + weight m b := by
  simp only [weight, List.count_append]
  push_cast
  ring

theorem weight_replaceAll (hname : name ∈ ruleNames) (new text : Text) :
    ∃ n : ℕ, (n = 0 ↔ ¬ placeholder name <:+: text) ∧
      weight m (replaceAll (placeholder name) new text) = weight m text + n * (weight m new + 1) := by
  obtain ⟨n, hn, hcount⟩ := replaceAll_count (placeholder_ne_nil hname) new text
  refine ⟨n, hn, ?_⟩
  have hquotes := hcount singleQuote
  have hbraces := hcount brace
  rw [List.count_eq_zero.mpr (placeholder_quotes hname).1, Nat.mul_zero, Nat.add_zero] at hquotes
  rw [count_brace_placeholder hname, Nat.mul_one] at hbraces
  simp only [weight]
  rw [hquotes]
  have hbraces' : ((replaceAll (placeholder name) new text).count brace : ℤ) =
      text.count brace + n * new.count brace - n := by
    rw [eq_sub_iff_add_eq]
    exact_mod_cast hbraces
  rw [hbraces']
  push_cast
  ring

/-- No field takes from the weight of a text, and a field that is replaced adds to it. -/
theorem weight_safeFormatString (hfields : ∀ f ∈ fields, f.1 ∈ ruleNames ∧ 0 ≤ weight m f.2)
    (text : Text) :
    weight m text ≤ weight m (safeFormatString text fields) ∧
      ((∃ f ∈ fields, placeholder f.1 <:+: text) →
        weight m text < weight m (safeFormatString text fields)) := by
  induction fields generalizing text with
  | nil => exact ⟨le_rfl, by simp⟩
  | cons f fields ih =>
      obtain ⟨hname, hweight⟩ := hfields f (List.mem_cons_self ..)
      obtain ⟨n, hn, hreplace⟩ := weight_replaceAll (m := m) hname f.2 text
      obtain ⟨hle, hlt⟩ := ih (fun g hg => hfields g (List.mem_cons_of_mem _ hg))
        (replaceAll (placeholder f.1) f.2 text)
      rw [safeFormatString_cons]
      by_cases hoccurs : placeholder f.1 <:+: text
      · have hn0 : n ≠ 0 := fun h0 => hn.mp h0 hoccurs
        have hpos : 0 < (n : ℤ) * (weight m f.2 + 1) :=
          Int.mul_pos (by omega) (by omega)
        constructor
        · omega
        · intro _
          omega
      · rw [replaceAll_of_not_isInfix hoccurs] at hle hlt ⊢
        refine ⟨hle, fun h => hlt ?_⟩
        obtain ⟨g, hg, hin⟩ := h
        rcases List.mem_cons.mp hg with rfl | hg
        · exact absurd hin hoccurs
        · exact ⟨g, hg, hin⟩

end NeuralSoc.Playbooks
