import NeuralSoc.Playbooks.Lemmas.Format

/-!
# The words of a rule

In every template a placeholder is a word of its own and the other words are read as they stand. The rule is
meant to be the template with the quoted values in place of the placeholders, put in at once.
-/

namespace NeuralSoc.Playbooks

open Shell

variable {name : String} {f : String × Text} {fields before after : List (String × Text)}
  {template word : Text}

/-! ## What is meant -/

def fieldOf (fields : List (String × Text)) (word : Text) : Option (String × Text) :=
  fields.find? fun f => placeholder f.1 = word

/-- The value in place of its placeholder. -/
def fillWord (fields : List (String × Text)) (word : Text) : Text :=
  match fieldOf fields word with
  | some f => f.2
  | none => word

/-- One literal word in place of a placeholder. -/
def fill (fields : List (String × Text)) (token : Token) : Token :=
  match fields.find? fun f => Token.literal (placeholder f.1) = token with
  | some f => .literal f.2
  | none => token

/-- The template with all fields put in at once. -/
def substituted (template : Text) (fields : List (String × Text)) : Text := mapWords (fillWord fields) template

/-- The shell reads the rule as the words and operators of the template, with one literal word for each
placeholder. -/
def ReadsAsTemplate (template : Text) (fields : List (String × Text)) (rule : Text) : Prop :=
  ∃ tokens, tokenise template = some tokens ∧ tokenise rule = some (tokens.map (fill fields))

/-- No value of a field that the template names holds the placeholder of a field after it. -/
def Apart (template : Text) (fields : List (String × Text)) : Prop :=
  fields.Pairwise fun f g => placeholder f.1 <:+: template → ¬ placeholder g.1 <:+: f.2

/-- After a value with a brace, of a field that the template names, no value has one. -/
def BracedOnce (template : Text) (fields : List (String × Text)) : Prop :=
  fields.Pairwise fun f g => placeholder f.1 <:+: template → brace ∈ f.2 → brace ∉ g.2

/-! ## The templates -/

theorem isSafe_brace : isSafe brace = false := by decide

/-- A placeholder, or a text of safe characters. -/
def IsWord (word : Text) : Prop :=
  (∃ name ∈ ruleNames, placeholder name = word) ∨ (word ≠ [] ∧ ∀ c ∈ word, isSafe c = true)

instance : DecidablePred IsWord := fun word => by
  unfold IsWord
  infer_instance

def WellFormed (template : Text) : Prop := ∀ w ∈ words template, IsWord w

instance : DecidablePred WellFormed := fun template => by
  unfold WellFormed
  infer_instance

theorem wellFormed_templates :
    ∀ t ∈ playbookTemplates, ∀ rule ∈ t.2.firewallRule, WellFormed (points rule) := by
  decide +kernel

theorem wellFormed_templateOf (rt : PlaybookRuntime) (alert : Object) {rule : String}
    (h : (templateOf rt alert).firewallRule = some rule) : WellFormed (points rule) := by
  rw [templateOf] at h
  cases hlookup : playbookTemplates.lookup (normalizedKey rt (rawThreatClass alert)) with
  | none =>
      rw [hlookup] at h
      exact wellFormed_templates ("DATA_EXFILTRATION", dataExfiltration) (by simp [playbookTemplates]) rule h
  | some t =>
      rw [hlookup] at h
      obtain ⟨l₁, l₂, hlist, -⟩ := List.lookup_eq_some_iff.mp hlookup
      have hmem : (normalizedKey rt (rawThreatClass alert), t) ∈ playbookTemplates := by simp [hlist]
      exact wellFormed_templates _ hmem rule h

theorem IsWord.reads (h : IsWord word) : Reads word (word.map .literal) := by
  rcases h with ⟨name, hname, rfl⟩ | ⟨hne, hsafe⟩
  · exact reads_ordinary (placeholder_ne_nil hname) (placeholder_ordinary hname)
  · exact reads_ordinary hne fun c hc => isOrdinary_of_isSafe (hsafe c hc)

/-! ## One word -/

theorem fieldOf_eq_none (hnames : ∀ f ∈ fields, f.1 ∈ ruleNames) (hbrace : brace ∉ word) :
    fieldOf fields word = none := by
  rw [fieldOf, List.find?_eq_none]
  intro f hf heq
  have hword : placeholder f.1 = word := by simpa using heq
  exact hbrace (brace_mem_of_placeholder (hnames f hf) (by rw [hword]))

theorem exists_field (hnames : fields.map Prod.fst = ruleNames) (hname : name ∈ ruleNames) :
    ∃ before f after, fields = before ++ f :: after ∧ f.1 = name := by
  rw [← hnames] at hname
  obtain ⟨f, hf, rfl⟩ := List.mem_map.mp hname
  obtain ⟨before, after, rfl⟩ := List.append_of_mem hf
  exact ⟨before, f, after, rfl, rfl⟩

theorem fieldOf_placeholder (hnames : (before ++ f :: after).map Prod.fst = ruleNames) :
    fieldOf (before ++ f :: after) (placeholder f.1) = some f := by
  have hbefore : before.find? (fun g => placeholder g.1 = placeholder f.1) = none := by
    rw [List.find?_eq_none]
    intro g hg heq
    have hsame : placeholder g.1 = placeholder f.1 := by simpa using heq
    exact not_infix_before hnames g hg (by rw [hsame])
  rw [fieldOf, List.find?_append, hbefore]
  simp

theorem fieldOf_quoted (fields : List (String × Text)) (word : Text) :
    fieldOf (quoted fields) word = (fieldOf fields word).map fun f => (f.1, quote f.2) := by
  rw [fieldOf, quoted, List.find?_map]
  rfl

theorem fillWord_placeholder (hnames : (before ++ f :: after).map Prod.fst = ruleNames) :
    fillWord (before ++ f :: after) (placeholder f.1) = f.2 := by
  rw [fillWord, fieldOf_placeholder hnames]

theorem fillWord_quoted_placeholder (hnames : (before ++ f :: after).map Prod.fst = ruleNames) :
    fillWord (quoted (before ++ f :: after)) (placeholder f.1) = quote f.2 := by
  rw [fillWord, fieldOf_quoted, fieldOf_placeholder hnames]
  rfl

/-- The fields after it are replaced in the quoted value of a field. -/
theorem format_placeholder (hnames : (before ++ f :: after).map Prod.fst = ruleNames) :
    safeFormatString (placeholder f.1) (quoted (before ++ f :: after)) =
      safeFormatString (quote f.2) (quoted after) := by
  have hquoted : quoted (before ++ f :: after) = quoted before ++ (f.1, quote f.2) :: quoted after := by
    simp [quoted]
  have hmap := map_fst_quoted (before ++ f :: after)
  rw [hnames, hquoted] at hmap
  rw [hquoted]
  exact safeFormatString_placeholder hmap

theorem word_cases (hnames : fields.map Prod.fst = ruleNames) (hword : IsWord word) :
    brace ∉ word ∨ ∃ before f after, fields = before ++ f :: after ∧ word = placeholder f.1 := by
  rcases hword with ⟨name, hname, rfl⟩ | ⟨-, hsafe⟩
  · obtain ⟨before, f, after, hfields, rfl⟩ := exists_field hnames hname
    exact Or.inr ⟨before, f, after, hfields, rfl⟩
  · exact Or.inl fun hin => by simpa [isSafe_brace] using hsafe brace hin

theorem fillWord_plain (hnames : ∀ f ∈ fields, f.1 ∈ ruleNames) (hbrace : brace ∉ word) :
    fillWord fields word = word := by
  rw [fillWord, fieldOf_eq_none hnames hbrace]

theorem format_plain (hnames : ∀ f ∈ fields, f.1 ∈ ruleNames) (hbrace : brace ∉ word) :
    safeFormatString word fields = word :=
  safeFormatString_of_not_isInfix fun f hf hoccurs => hbrace (brace_mem_of_placeholder (hnames f hf) hoccurs)

theorem placeholder_infix_quote (hname : name ∈ ruleNames) (text : Text) :
    placeholder name <:+: quote text ↔ placeholder name <:+: text :=
  infix_quote_iff (placeholder_ne_nil hname) (placeholder_quotes hname).1 (placeholder_quotes hname).2

end NeuralSoc.Playbooks
