import NeuralSoc.Dga.DomainAge
import NeuralSoc.Dga.Lemmas.Variants

/-! # Registrable domains -/

namespace NeuralSoc.Dga

open Shell

structure IsDomainLabel (label : Text) : Prop where
  nonempty : 1 ≤ label.length
  short : label.length ≤ 63
  chars : ∀ c ∈ label, isLabelChar c = true
  head : label.head? ≠ some hyphen
  last : label.getLast? ≠ some hyphen

/-- Two labels joined by one dot. -/
def IsRegistrable (text : Text) : Prop :=
  ∃ a b, text = a ++ dot :: b ∧ IsDomainLabel a ∧ IsDomainLabel b

/-- Characters that have no other case stay as they are. -/
def KeepsDomains (lower : Text → Text) : Prop := ∀ text, (∀ c ∈ text, c ∈ validChars) → lower text = text

/-! ## Labels -/

variable {label : Text} {c : ℕ}

theorem isAlnum_iff : isAlnum c = true ↔ isLabelChar c = true ∧ c ≠ hyphen := by
  have hhyphen : isAlnum hyphen = false := by decide
  rw [isLabelChar, Bool.or_eq_true, beq_iff_eq]
  constructor
  · intro h
    exact ⟨.inl h, fun heq => by simp [heq, hhyphen] at h⟩
  · rintro ⟨h | h, hne⟩
    · exact h
    · exact absurd h hne

theorem matchesBody_iff : matchesBody label = true ↔ IsDomainLabel label := by
  cases label with
  | nil => exact iff_of_false (by simp [matchesBody]) fun h => by simpa using h.nonempty
  | cons c rest =>
      rcases List.eq_nil_or_concat' rest with rfl | ⟨mid, d, rfl⟩
      · simp only [matchesBody, List.isEmpty_nil, Bool.true_or, Bool.and_true, isAlnum_iff]
        exact ⟨fun ⟨hchar, hne⟩ => ⟨by simp, by simp, by simpa using hchar, by simpa using hne, by simpa using hne⟩,
          fun h => ⟨h.chars c (by simp), by simpa using h.head⟩⟩
      · simp only [matchesBody, Bool.and_eq_true, Bool.or_eq_true, isAlnum_iff, List.dropLast_concat,
          List.getLast?_concat, Option.any_some, decide_eq_true_eq, List.all_eq_true]
        constructor
        · rintro ⟨⟨hc, hne⟩, hempty | ⟨⟨hlen, hmid⟩, hd, hlast⟩⟩
          · simp at hempty
          · refine ⟨by simp, by simp; omega, fun x hx => ?_, by simpa using hne, ?_⟩
            · rcases List.mem_cons.mp hx with rfl | hx
              · exact hc
              · rcases List.mem_append.mp hx with hx | hx
                · exact hmid x hx
                · rwa [List.mem_singleton.mp hx]
            · rw [← List.cons_append, List.getLast?_concat]
              exact fun h => hlast (Option.some.inj h)
        · intro h
          have hlen := h.short
          have hlast := h.last
          rw [← List.cons_append, List.getLast?_concat] at hlast
          simp only [List.length_cons, List.length_append, List.length_nil] at hlen
          exact ⟨⟨h.chars c (by simp), fun heq => h.head (by simp [heq])⟩,
            .inr ⟨⟨by omega, fun x hx => h.chars x (by simp [hx])⟩, h.chars d (by simp),
              fun heq => hlast (by rw [heq])⟩⟩

/-- A label that matches is good or has one newline after a good one. -/
theorem labelMatches_iff :
    labelMatches label = true ↔
      IsDomainLabel label ∨ ∃ good, label = good ++ [newline] ∧ IsDomainLabel good := by
  rw [labelMatches, Bool.or_eq_true, Bool.and_eq_true, beq_iff_eq, matchesBody_iff, matchesBody_iff]
  refine or_congr Iff.rfl ⟨?_, ?_⟩
  · rintro ⟨hlast, hgood⟩
    obtain ⟨good, rfl⟩ := List.getLast?_eq_some_iff.mp hlast
    rw [List.dropLast_concat] at hgood
    exact ⟨good, rfl, hgood⟩
  · rintro ⟨good, rfl, hgood⟩
    rw [List.getLast?_concat, List.dropLast_concat]
    exact ⟨rfl, hgood⟩

theorem length_le_of_labelMatches (h : labelMatches label = true) : label.length ≤ 64 := by
  rcases labelMatches_iff.mp h with hgood | ⟨good, rfl, hgood⟩
  · exact hgood.short.trans (by omega)
  · rw [List.length_append, List.length_singleton]
    exact Nat.succ_le_succ hgood.short

namespace IsDomainLabel

variable (h : IsDomainLabel label)
include h

theorem ne_nil : label ≠ [] := List.ne_nil_of_length_pos h.nonempty

theorem newline_not_mem : newline ∉ label := fun hmem => by
  have := h.chars newline hmem
  revert this
  decide

theorem dot_not_mem : dot ∉ label := fun hmem => by
  have := h.chars dot hmem
  revert this
  decide

theorem valid : ∀ c ∈ label, c ∈ validChars := by
  have hall : ∀ c < 128, isLabelChar c = true → c ∈ validChars := by decide +kernel
  intro c hc
  have hchar := h.chars c hc
  refine hall c ?_ hchar
  simp only [isLabelChar, isAlnum, hyphen, Bool.or_eq_true, Bool.and_eq_true, decide_eq_true_eq,
    beq_iff_eq] at hchar
  omega

end IsDomainLabel

theorem newline_mem_of_labelMatches (hmatch : labelMatches label = true) (hgood : ¬ IsDomainLabel label) :
    newline ∈ label := by
  obtain ⟨good, rfl, -⟩ := (labelMatches_iff.mp hmatch).resolve_left hgood
  exact List.mem_append_right _ (List.mem_singleton_self _)

theorem IsRegistrable.newline_not_mem {text : Text} (h : IsRegistrable text) : newline ∉ text := by
  obtain ⟨a, b, rfl, ha, hb⟩ := h
  intro hmem
  rcases List.mem_append.mp hmem with hmem | hmem
  · exact ha.newline_not_mem hmem
  · rcases List.mem_cons.mp hmem with heq | hmem
    · exact absurd heq (by decide)
    · exact hb.newline_not_mem hmem

/-! ## The answer -/

section

variable (lower : Text → Text)

/-- The last two labels match and one of them does so with a newline at its end. -/
def EndsInNewline (query : Text) : Prop :=
  ∃ front a b, labels (cleanQuery lower query) = front ++ [a, b] ∧ labelMatches a = true ∧
    labelMatches b = true ∧ (newline ∈ a ∨ newline ∈ b)

theorem extract_eq_some_iff {query sld : Text} :
    extractRegistrableDomain lower query = some sld ↔
      query ≠ [] ∧ ∃ front a b, labels (cleanQuery lower query) = front ++ [a, b] ∧ labelMatches a = true ∧
        labelMatches b = true ∧ a ++ dot :: b = sld := by
  have hdrop : ∀ (front : List Text) (a b : Text),
      (front ++ [a, b]).drop ((front ++ [a, b]).length - 2) = [a, b] := by simp
  unfold extractRegistrableDomain
  by_cases hquery : query = []
  · simp [hquery]
  rw [if_neg hquery]
  dsimp only
  constructor
  · intro h
    split at h
    · cases h
    · next hparts =>
        obtain ⟨front, a, b, hlabels⟩ := exists_lastTwo (Nat.le_of_not_lt hparts)
        rw [hlabels, hdrop, lastTwo_append] at h
        split at h
        · cases h
        · split at h
          · cases h
          · next hall =>
              have hmatch : labelMatches a = true ∧ labelMatches b = true := by simpa using hall
              exact ⟨hquery, front, a, b, hlabels, hmatch.1, hmatch.2, Option.some.inj h⟩
  · rintro ⟨-, front, a, b, hlabels, ha, hb, rfl⟩
    have hlen : (a ++ dot :: b).length ≤ 253 := by
      have := length_le_of_labelMatches ha
      have := length_le_of_labelMatches hb
      simp only [List.length_append, List.length_cons]
      omega
    rw [hlabels, hdrop, lastTwo_append, if_neg (by simp), if_neg (by omega), if_neg (by simp [ha, hb])]

variable {lower} (hlower : KeepsDomains lower)
include hlower

theorem cleanQuery_registrable {a b : Text} (ha : IsDomainLabel a) (hb : IsDomainLabel b) :
    cleanQuery lower (a ++ dot :: b) = a ++ dot :: b := by
  have hvalid : ∀ c ∈ a ++ dot :: b, c ∈ validChars := by
    intro c hc
    rcases List.mem_append.mp hc with hc | hc
    · exact ha.valid c hc
    · rcases List.mem_cons.mp hc with rfl | hc
      · decide
      · exact hb.valid c hc
  have hspace : ∀ c ∈ validChars, isSpacePoint c = false := by decide +kernel
  have htrim : ∀ text : Text, (∀ c ∈ text, c ∈ validChars) → text.dropWhile isSpacePoint = text := by
    intro text htext
    cases text with
    | nil => rfl
    | cons c text => rw [List.dropWhile_cons, hspace c (htext c (List.mem_cons_self ..)), if_neg (by simp)]
  have hstrip : stripPoints (a ++ dot :: b) = a ++ dot :: b := by
    rw [stripPoints, htrim _ hvalid, htrim _ fun c hc => hvalid c (List.mem_reverse.mp hc), List.reverse_reverse]
  have hdots : rstripDots (a ++ dot :: b) = a ++ dot :: b := by
    obtain ⟨front, c, rfl⟩ := (List.eq_nil_or_concat' b).resolve_left hb.ne_nil
    have hc : c ≠ dot := fun heq => hb.dot_not_mem (by simp [heq])
    rw [rstripDots, ← List.cons_append, ← List.append_assoc, List.reverse_append, List.reverse_singleton,
      List.singleton_append, List.dropWhile_cons, if_neg (by simpa using hc), List.reverse_cons,
      List.reverse_reverse]
  rw [cleanQuery, hstrip, hdots, hlower _ hvalid]

theorem extract_registrable {sld : Text} (h : IsRegistrable sld) :
    extractRegistrableDomain lower sld = some sld := by
  obtain ⟨a, b, rfl, ha, hb⟩ := h
  refine (extract_eq_some_iff lower).mpr ⟨by simp, [], a, b, ?_, labelMatches_iff.mpr (.inl ha),
    labelMatches_iff.mpr (.inl hb), rfl⟩
  rw [cleanQuery_registrable hlower ha hb, labels_append_dot, labels_label ha.ne_nil ha.dot_not_mem,
    labels_label hb.ne_nil hb.dot_not_mem]
  rfl

/-- The answer is a registrable domain and its own answer exactly when no newline slips through the pattern. -/
theorem registrable_domain_iff (query : Text) :
    (∀ sld, extractRegistrableDomain lower query = some sld →
      IsRegistrable sld ∧ extractRegistrableDomain lower sld = some sld) ↔ ¬ EndsInNewline lower query := by
  constructor
  · rintro h ⟨front, a, b, hlabels, ha, hb, hnewline⟩
    have hquery : query ≠ [] := by
      rintro rfl
      have hnil : cleanQuery lower [] = [] := hlower [] nofun
      simp [hnil, labels_nil] at hlabels
    have hgood := (h _ ((extract_eq_some_iff lower).mpr ⟨hquery, front, a, b, hlabels, ha, hb, rfl⟩)).1
    apply hgood.newline_not_mem
    rw [List.mem_append, List.mem_cons]
    exact hnewline.imp_right .inr
  · intro hclean sld h
    obtain ⟨-, front, a, b, hlabels, ha, hb, rfl⟩ := (extract_eq_some_iff lower).mp h
    have hgood : IsRegistrable (a ++ dot :: b) := by
      refine ⟨a, b, rfl, ?_, ?_⟩
      · by_contra hbad
        exact hclean ⟨front, a, b, hlabels, ha, hb, .inl (newline_mem_of_labelMatches ha hbad)⟩
      · by_contra hbad
        exact hclean ⟨front, a, b, hlabels, ha, hb, .inr (newline_mem_of_labelMatches hb hbad)⟩
    exact ⟨hgood, extract_registrable hlower hgood⟩

end

theorem keepsDomains_asciiLower : KeepsDomains asciiLower := by
  have hlower : ∀ c ∈ validChars, (if 65 ≤ c ∧ c ≤ 90 then c + 32 else c) = c := by decide +kernel
  intro text htext
  rw [asciiLower, List.map_congr_left fun c hc => hlower c (htext c hc), List.map_id']

theorem registrable_domain_of_subdomain :
    extractRegistrableDomain asciiLower (points "www.Example.com.") = some (points "example.com") ∧
      IsRegistrable (points "example.com") ∧
      extractRegistrableDomain asciiLower (points "example.com") = some (points "example.com") := by
  have hanswer : extractRegistrableDomain asciiLower (points "www.Example.com.") =
      some (points "example.com") := by decide +kernel
  have hlabels : labels (cleanQuery asciiLower (points "www.Example.com.")) =
      [points "www"] ++ [points "example", points "com"] := by decide +kernel
  have hclean : ¬ EndsInNewline asciiLower (points "www.Example.com.") := by
    rintro ⟨front, a, b, hparts, -, -, hnewline⟩
    rw [hlabels] at hparts
    obtain ⟨-, hlast⟩ := List.append_inj' hparts rfl
    cases hlast
    exact absurd hnewline (by decide +kernel)
  exact ⟨hanswer, (registrable_domain_iff keepsDomains_asciiLower _).mpr hclean _ hanswer⟩

theorem registrable_domain_with_newline :
    ¬ ∀ lower : Text → Text, KeepsDomains lower → ∀ query sld, extractRegistrableDomain lower query = some sld →
      IsRegistrable sld ∧ extractRegistrableDomain lower sld = some sld := by
  intro h
  have hanswer : extractRegistrableDomain asciiLower (points "a.com\n.") = some (points "a.com\n") := by
    decide +kernel
  have hgood := (h _ keepsDomains_asciiLower _ _ hanswer).1
  exact hgood.newline_not_mem (by decide +kernel)

end NeuralSoc.Dga
