import NeuralSoc.Playbooks.Lemmas.Words
import Mathlib.Algebra.Order.Ring.Int

/-!
# The rule against what is meant

Where no value holds a placeholder that is still to be replaced, the rule is the template with the quoted
values put in at once, and the shell reads it so. Where one does, the rule is heavier.
-/

namespace NeuralSoc.Playbooks

open Shell

variable {f : String × Text} {fields before after : List (String × Text)} {template word : Text} {m : ℕ}

/-! ## Apart -/

theorem name_mem_quoted (hnames : fields.map Prod.fst = ruleNames) : ∀ f ∈ quoted fields, f.1 ∈ ruleNames :=
  name_mem ((map_fst_quoted fields).trans hnames)

theorem format_of_apart (hnames : fields.map Prod.fst = ruleNames) (hwell : WellFormed template)
    (hapart : Apart template fields) :
    safeFormatString template (quoted fields) = substituted template (quoted fields) := by
  rw [safeFormatString_words (name_mem_quoted hnames), substituted]
  apply mapWords_congr
  intro w hw
  rcases word_cases hnames (hwell w hw) with hbrace | ⟨before, f, after, rfl, rfl⟩
  · rw [format_plain (name_mem_quoted hnames) hbrace, fillWord_plain (name_mem_quoted hnames) hbrace]
  · rw [format_placeholder hnames, fillWord_quoted_placeholder hnames]
    apply safeFormatString_of_not_isInfix
    intro g hg hoccurs
    obtain ⟨g', hg', rfl⟩ := List.mem_map.mp hg
    have hname := name_mem hnames g' (by simp [hg'])
    have hlater := (List.pairwise_append.mp hapart).2.1
    exact (List.pairwise_cons.mp hlater).1 g' hg' (infix_of_mem_words hw)
      ((placeholder_infix_quote hname f.2).mp hoccurs)

/-! ## Reading -/

theorem fill_literal (fields : List (String × Text)) (word : Text) :
    fill fields (.word (word.map .literal)) = .word ((fillWord fields word).map .literal) := by
  have hsame : ∀ text : Text, Token.literal text = .word (word.map .literal) ↔ text = word := by
    intro text
    have hinj : Function.Injective Piece.literal := fun _ _ h => Piece.literal.inj h
    simp [Token.literal, (List.map_injective_iff.mpr hinj).eq_iff]
  simp only [fill, fillWord, fieldOf, hsame]
  cases fields.find? fun f => decide (placeholder f.1 = word) with
  | none => rfl
  | some f => rfl

theorem fill_op (fields : List (String × Text)) (text : Text) : fill fields (.op text) = .op text := by
  have hnone : fields.find? (fun f => Token.literal (placeholder f.1) = .op text) = none := by
    simp [Token.literal]
  rw [fill, hnone]

theorem map_fill (fields : List (String × Text)) (template : Text) :
    (wordTokens (fun w => w.map .literal) template).map (fill fields) =
      wordTokens (fun w => (fillWord fields w).map .literal) template := by
  have hseparator : ∀ c, (separatorTokens c).map (fill fields) = separatorTokens c := by
    intro c
    rw [separatorTokens]
    split
    · exact congrArg (· :: []) (fill_op fields [newline])
    · rfl
  simp only [wordTokens, List.map_cons, fill_literal, List.map_flatMap, List.map_append, hseparator,
    List.map_nil]

theorem reads_fillWord (hnames : fields.map Prod.fst = ruleNames) (hword : IsWord word) :
    Reads (fillWord (quoted fields) word) ((fillWord fields word).map .literal) := by
  rcases word_cases hnames hword with hbrace | ⟨before, f, after, rfl, rfl⟩
  · rw [fillWord_plain (name_mem hnames) hbrace, fillWord_plain (name_mem_quoted hnames) hbrace]
    exact hword.reads
  · rw [fillWord_placeholder hnames, fillWord_quoted_placeholder hnames]
    exact reads_quote f.2

theorem tokenise_template (hwell : WellFormed template) :
    tokenise template = some (wordTokens (fun w => w.map .literal) template) := by
  have hread : ∀ w ∈ words template, Reads (id w) (w.map .literal) := fun w hw => (hwell w hw).reads
  have htokens := tokenise_mapWords hread
  rwa [mapWords_id] at htokens

theorem tokenise_substituted (hnames : fields.map Prod.fst = ruleNames) (hwell : WellFormed template) :
    tokenise (substituted template (quoted fields)) =
      some (wordTokens (fun w => (fillWord fields w).map .literal) template) :=
  tokenise_mapWords fun w hw => reads_fillWord hnames (hwell w hw)

theorem readsAsTemplate_iff (hwell : WellFormed template) (rule : Text) :
    ReadsAsTemplate template fields rule ↔
      tokenise rule = some (wordTokens (fun w => (fillWord fields w).map .literal) template) := by
  rw [ReadsAsTemplate, tokenise_template hwell]
  simp [map_fill]

/-! ## Not apart -/

theorem weight_mapWords (m : ℕ) (F : Text → Text) (text : Text) :
    weight m (mapWords F text) =
      ((words text).map fun w => weight m (F w)).sum + ((cut text).2.map fun w => weight m [w.1]).sum := by
  have hrest : ∀ others : List (ℕ × Text),
      weight m ((others.map fun w => (w.1, F w.2)).flatMap fun w => w.1 :: w.2) =
        ((others.map Prod.snd).map fun w => weight m (F w)).sum +
          (others.map fun w => weight m [w.1]).sum := by
    intro others
    induction others with
    | nil => simp [weight]
    | cons w others ih =>
        rw [List.map_cons, List.flatMap_cons, weight_append, ih, ← List.singleton_append, weight_append]
        simp only [List.map_cons, List.sum_cons]
        omega
  rw [mapWords, glue, weight_append, hrest, words, List.map_cons, List.sum_cons, add_assoc]

theorem exists_of_not_pairwise {α : Type*} {R : α → α → Prop} {l : List α} (h : ¬ l.Pairwise R) :
    ∃ before a after, l = before ++ a :: after ∧ ∃ b ∈ after, ¬ R a b := by
  induction l with
  | nil => exact absurd List.Pairwise.nil h
  | cons a l ih =>
      by_cases hl : l.Pairwise R
      · rw [List.pairwise_cons, not_and'] at h
        have hsome : ∃ b ∈ l, ¬ R a b := by simpa using h hl
        exact ⟨[], a, l, rfl, hsome⟩
      · obtain ⟨before, x, after, rfl, hx⟩ := ih hl
        exact ⟨a :: before, x, after, rfl, hx⟩

/-- The fields after a value are replaced in it without a loss of weight, and with a gain where it holds the
placeholder of one. -/
theorem weight_placeholder (hnames : (before ++ f :: after).map Prod.fst = ruleNames)
    (hafter : brace ∈ f.2 → ∀ g ∈ after, 0 ≤ weight m (quote g.2)) :
    weight m (quote f.2) ≤ weight m (safeFormatString (quote f.2) (quoted after)) ∧
      ((∃ g ∈ after, placeholder g.1 <:+: f.2) →
        weight m (quote f.2) < weight m (safeFormatString (quote f.2) (quoted after))) := by
  have hmem : ∀ g ∈ after, g.1 ∈ ruleNames := fun g hg => name_mem hnames g (by simp [hg])
  by_cases hbrace : brace ∈ f.2
  · have hquoted : ∀ g ∈ quoted after, g.1 ∈ ruleNames ∧ 0 ≤ weight m g.2 := by
      intro g hg
      obtain ⟨g', hg', rfl⟩ := List.mem_map.mp hg
      exact ⟨hmem g' hg', hafter hbrace g' hg'⟩
    obtain ⟨hle, hlt⟩ := weight_safeFormatString hquoted (quote f.2)
    refine ⟨hle, fun h => hlt ?_⟩
    obtain ⟨g, hg, hoccurs⟩ := h
    exact ⟨(g.1, quote g.2), List.mem_map_of_mem hg, (placeholder_infix_quote (hmem g hg) f.2).mpr hoccurs⟩
  · have hnone : ∀ g ∈ after, ¬ placeholder g.1 <:+: f.2 := fun g hg hoccurs =>
      hbrace (brace_mem_of_placeholder (hmem g hg) hoccurs)
    rw [safeFormatString_of_not_isInfix]
    · exact ⟨le_rfl, fun ⟨g, hg, hoccurs⟩ => absurd hoccurs (hnone g hg)⟩
    · intro g hg hoccurs
      obtain ⟨g', hg', rfl⟩ := List.mem_map.mp hg
      exact hnone g' hg' ((placeholder_infix_quote (hmem g' hg') f.2).mp hoccurs)

theorem weight_word_le (hnames : fields.map Prod.fst = ruleNames) (hword : IsWord word)
    (hafter : ∀ before f after, fields = before ++ f :: after → word = placeholder f.1 → brace ∈ f.2 →
      ∀ g ∈ after, 0 ≤ weight m (quote g.2)) :
    weight m (fillWord (quoted fields) word) ≤ weight m (safeFormatString word (quoted fields)) := by
  rcases word_cases hnames hword with hbrace | ⟨before, f, after, rfl, rfl⟩
  · rw [format_plain (name_mem_quoted hnames) hbrace, fillWord_plain (name_mem_quoted hnames) hbrace]
  · rw [format_placeholder hnames, fillWord_quoted_placeholder hnames]
    exact (weight_placeholder hnames (hafter before f after rfl rfl)).1

theorem placeholder_mem_words (hwell : WellFormed template) {name : String} (hname : name ∈ ruleNames)
    (h : placeholder name <:+: template) : placeholder name ∈ words template := by
  obtain ⟨w, hw, hoccurs⟩ := infix_words (placeholder_ne_nil hname) (placeholder_separators hname) h
  rcases hwell w hw with ⟨other, hother, rfl⟩ | ⟨-, hsafe⟩
  · rwa [eq_of_placeholder hname hother hoccurs]
  · have hin := brace_mem_of_placeholder hname hoccurs
    simpa [isSafe_brace] using hsafe brace hin

/-- A value that holds the placeholder of a later field makes the rule heavier. -/
theorem weight_lt_of_not_apart (hnames : fields.map Prod.fst = ruleNames) (hwell : WellFormed template)
    (hweight : fields.Pairwise fun f g =>
      placeholder f.1 <:+: template → brace ∈ f.2 → 0 ≤ weight m (quote g.2))
    (hapart : ¬ Apart template fields) :
    weight m (substituted template (quoted fields)) < weight m (safeFormatString template (quoted fields)) := by
  have hafter : ∀ before f after, fields = before ++ f :: after → placeholder f.1 <:+: template →
      brace ∈ f.2 → ∀ g ∈ after, 0 ≤ weight m (quote g.2) := by
    intro before f after hfields hoccurs hbrace g hg
    rw [hfields] at hweight
    have hlater := (List.pairwise_append.mp hweight).2.1
    exact (List.pairwise_cons.mp hlater).1 g hg hoccurs hbrace
  have hle : ∀ w ∈ words template,
      weight m (fillWord (quoted fields) w) ≤ weight m (safeFormatString w (quoted fields)) := fun w hw =>
    weight_word_le hnames (hwell w hw) fun before f after hfields hword =>
      hafter before f after hfields (hword ▸ infix_of_mem_words hw)
  have hlt : ∃ w ∈ words template,
      weight m (fillWord (quoted fields) w) < weight m (safeFormatString w (quoted fields)) := by
    obtain ⟨before, f, after, hfields, g, hg, hnot⟩ := exists_of_not_pairwise hapart
    rw [Classical.not_imp, not_not] at hnot
    have hsome := hafter before f after hfields hnot.1
    subst hfields
    have hword := placeholder_mem_words hwell (name_mem hnames f (by simp)) hnot.1
    refine ⟨placeholder f.1, hword, ?_⟩
    rw [format_placeholder hnames, fillWord_quoted_placeholder hnames]
    exact (weight_placeholder hnames hsome).2 ⟨g, hg, hnot.2⟩
  rw [safeFormatString_words (name_mem_quoted hnames), substituted, weight_mapWords, weight_mapWords]
  exact Int.add_lt_add_right (List.sum_lt_sum _ _ hle hlt) _

theorem weight_quote_nonneg {text : Text} (h : text.count brace ≤ m) : 0 ≤ weight m (quote text) := by
  rw [weight, count_quote (c := brace) (by decide) (by decide), sub_nonneg]
  by_cases hbrace : brace ∈ text
  · have hpos := List.count_pos_iff.mpr (singleQuote_mem_quote hbrace isSafe_brace)
    exact_mod_cast h.trans (Nat.le_mul_of_pos_right m hpos)
  · rw [List.count_eq_zero.mpr hbrace]
    exact_mod_cast Nat.zero_le _

/-- The rule is what is meant where the values are apart, and nowhere else. -/
theorem format_eq_substituted_iff (hnames : fields.map Prod.fst = ruleNames) (hwell : WellFormed template) :
    safeFormatString template (quoted fields) = substituted template (quoted fields) ↔
      Apart template fields := by
  constructor
  · intro heq
    by_contra hapart
    have hcount : ∀ g ∈ fields, g.2.count brace ≤ (fields.flatMap Prod.snd).count brace := by
      intro g hg
      rw [List.flatMap_def]
      exact (List.infix_of_mem_flatten (List.mem_map_of_mem hg)).sublist.count_le _
    have hweight := List.pairwise_of_forall_mem_list (r := fun f g =>
      placeholder f.1 <:+: template → brace ∈ f.2 →
        0 ≤ weight ((fields.flatMap Prod.snd).count brace) (quote g.2))
      fun _ _ g hg _ _ => weight_quote_nonneg (hcount g hg)
    have hlt := weight_lt_of_not_apart hnames hwell hweight hapart
    rw [heq] at hlt
    exact lt_irrefl _ hlt
  · exact format_of_apart hnames hwell

theorem count_fillWord (hnames : fields.map Prod.fst = ruleNames) (hword : IsWord word) :
    (fillWord fields word).count brace = (fillWord (quoted fields) word).count brace := by
  rcases word_cases hnames hword with hbrace | ⟨before, f, after, rfl, rfl⟩
  · rw [fillWord_plain (name_mem hnames) hbrace, fillWord_plain (name_mem_quoted hnames) hbrace]
  · rw [fillWord_placeholder hnames, fillWord_quoted_placeholder hnames, count_quote (by decide) (by decide)]

/-- A rule that is read as the template has lost no brace, so nothing was replaced in a value. -/
theorem apart_of_reads (hnames : fields.map Prod.fst = ruleNames) (hwell : WellFormed template)
    (honce : BracedOnce template fields)
    (hreads : ReadsAsTemplate template fields (safeFormatString template (quoted fields))) :
    Apart template fields := by
  by_contra hapart
  have hweight : fields.Pairwise fun f g =>
      placeholder f.1 <:+: template → brace ∈ f.2 → 0 ≤ weight 0 (quote g.2) :=
    honce.imp fun h hoccurs hbrace =>
      weight_quote_nonneg (List.count_eq_zero.mpr (h hoccurs hbrace)).le
  have hlt := weight_lt_of_not_apart hnames hwell hweight hapart
  have hcount : ((wordTokens (fun w => (fillWord fields w).map .literal) template).flatMap
      Token.chars).count brace = (substituted template (quoted fields)).count brace := by
    apply count_wordTokens (by decide)
    intro w hw
    rw [List.map_map]
    have hchars : Piece.char ∘ Piece.literal = id := rfl
    rw [hchars, List.map_id]
    exact count_fillWord hnames (hwell w hw)
  have hle := count_scan (x := brace) (by decide) ((readsAsTemplate_iff hwell _).mp hreads)
  rw [hcount] at hle
  simp only [weight, Open.chars, Open.close, List.flatMap_nil, List.count_nil] at hlt hle
  omega

end NeuralSoc.Playbooks
