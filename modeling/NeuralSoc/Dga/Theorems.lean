import NeuralSoc.Dga.Lemmas.Slices

/-! # Blind spots of the DGA model. -/

namespace NeuralSoc.Dga

open Shell

/-- Every character of a label is in a slice of the whole name, of its last two labels or of the label. -/
def NoBlindSpot (name : Text) (domains : List Text) : Prop :=
  ∀ pre label post, name = pre ++ label ++ post → IsLabel pre label post → ∀ j < label.length,
    Inspects domains name (pre.length + j) ∨
      (∃ offset, lastTwoOffset pre post = some offset ∧
        Inspects domains (lastTwo (labels name)) (offset + j)) ∨
      Inspects domains label j

/-- The texts that share the budget: the first eight different ones. -/
def sharing (name clean : Text) : List Text := (candidates name clean).eraseDups.take 8

/-- Every label ends within reach in the name, or in its last two labels, or is one of the texts that share the
budget and no longer than the reach. -/
def LabelsFit (name clean : Text) : Prop :=
  ∀ pre label post, name = pre ++ label ++ post → IsLabel pre label post →
    pre.length + label.length ≤ reach (sharing name clean).length ∨
      (∃ offset, lastTwoOffset pre post = some offset ∧
        offset + label.length ≤ reach (sharing name clean).length) ∨
      label ∈ sharing name clean ∧ label.length ≤ reach (sharing name clean).length

variable {rt : Runtime}

theorem variants_eq {call : Call} {domains : List Text} (h : variants rt call = some domains) :
    ∃ ascii, asciiDomain rt call.domain = some ascii ∧ sanitizeDomainChars ascii ≠ [] ∧
      domains = domainsToCheck ascii (cleanDomain rt call.domain) := by
  unfold variants at h
  split at h
  · cases h
  · split at h
    · cases h
    · split at h
      · cases h
      · next ascii hascii =>
          split at h
          · cases h
          · next hne =>
              split at h
              · cases h
              · cases h
                exact ⟨ascii, hascii, hne, rfl⟩

/-- What the model is called with holds the windows, each as text and as row. -/
theorem ne_nil_of_variants {call : Call} {domains : List Text} (h : variants rt call = some domains) :
    ∀ d ∈ domains, d ≠ [] := by
  obtain ⟨ascii, -, hsanitized, rfl⟩ := variants_eq h
  exact fun d hd => ne_nil_of_mem_domainsToCheck hsanitized hd

theorem variants_batch {call : Call} {domains : List Text} (h : variants rt call = some domains) :
    buildBatch domains =
      ⟨(windows domains).map fun w => paddedCodes (Window.text w), (windows domains).map Window.text⟩ := by
  rw [buildBatch_eq (ne_nil_of_variants h), uncut_eq (ne_nil_of_variants h)]

theorem mem_sharing_name (name clean : Text) : name ∈ sharing name clean := by
  have h : candidates name clean = name :: (candidates name clean).tail := rfl
  rw [sharing, h, List.eraseDups_cons, List.take_succ_cons]
  exact List.mem_cons_self

/-- The last two labels come third at most. -/
theorem mem_sharing_lastTwo {name : Text} (clean : Text) (h : 2 ≤ (labels name).length) :
    lastTwo (labels name) ∈ sharing name clean := by
  let early := [name] ++ (if clean = [] then [] else [clean]) ++ [lastTwo (labels name)]
  obtain ⟨rest, hrest⟩ : ∃ rest, candidates name clean = early ++ rest :=
    ⟨(labels name).filter (4 ≤ ·.length), by simp [candidates, h, early]⟩
  have hshort : early.eraseDups.length ≤ 8 := by
    refine (length_eraseDups_le _).trans ?_
    simp only [early, List.length_append, List.length_singleton]
    split <;> simp
  rw [sharing, hrest, List.eraseDups_append, List.take_append, List.take_of_length_le hshort]
  exact List.mem_append_left _ (List.mem_eraseDups.mpr (by simp [early]))

theorem sharing_eq (ascii clean : Text) :
    (domainsToCheck ascii clean).take 8 = sharing (sanitizeDomainChars ascii) (sanitizeDomainChars clean) := by
  rw [domainsToCheck_eq, sharing]

/-- What is seen up to a bound is seen whole when its last character is. -/
theorem forall_lt_iff {n a bound : ℕ} {place : Option ℕ} {among : Prop} (hn : 0 < n) :
    (∀ j < n, a + j < bound ∨ (∃ b, place = some b ∧ b + j < bound) ∨ (among ∧ j < bound)) ↔
      a + n ≤ bound ∨ (∃ b, place = some b ∧ b + n ≤ bound) ∨ (among ∧ n ≤ bound) := by
  constructor
  · intro h
    rcases h (n - 1) (by omega) with h | ⟨b, hb, h⟩ | ⟨hamong, h⟩
    · exact .inl (by omega)
    · exact .inr (.inl ⟨b, hb, by omega⟩)
    · exact .inr (.inr ⟨hamong, by omega⟩)
  · rintro (h | ⟨b, hb, h⟩ | ⟨hamong, h⟩) j hj
    · exact .inl (by omega)
    · exact .inr (.inl ⟨b, hb, by omega⟩)
    · exact .inr (.inr ⟨hamong, by omega⟩)

section Positions

variable {domains : List Text} {name clean pre label post : Text}

theorem inspects_name_iff (hdomains : domains.take 8 = sharing name clean)
    (hname : name = pre ++ label ++ post) {j : ℕ} (hj : j < label.length) :
    Inspects domains name (pre.length + j) ↔ pre.length + j < reach (sharing name clean).length := by
  have hlt : pre.length + j < name.length := by
    rw [hname, List.length_append, List.length_append]
    omega
  rw [inspects_iff (hdomains ▸ mem_sharing_name name clean) hlt, hdomains]

theorem inspects_label_iff (hdomains : domains.take 8 = sharing name clean) {j : ℕ} (hj : j < label.length) :
    Inspects domains label j ↔ label ∈ sharing name clean ∧ j < reach (sharing name clean).length := by
  constructor
  · intro h
    have hmem := h.mem
    rw [inspects_iff hmem hj, hdomains] at h
    exact ⟨hdomains ▸ hmem, h⟩
  · rintro ⟨hmem, h⟩
    rw [inspects_iff (hdomains ▸ hmem) hj, hdomains]
    exact h

theorem inspects_lastTwo_iff (hdomains : domains.take 8 = sharing name clean)
    (hname : name = pre ++ label ++ post) (hlabel : IsLabel pre label post) {offset : ℕ}
    (hoffset : lastTwoOffset pre post = some offset) {j : ℕ} (hj : j < label.length) :
    Inspects domains (lastTwo (labels name)) (offset + j) ↔
      offset + j < reach (sharing name clean).length := by
  obtain ⟨htwo, before, after, hlast, hbefore⟩ := hlabel.lastTwo_eq hoffset
  rw [← hname] at htwo hlast
  have hlt : offset + j < (lastTwo (labels name)).length := by
    rw [hlast, List.length_append, List.length_append, hbefore]
    omega
  rw [inspects_iff (hdomains ▸ mem_sharing_lastTwo clean htwo) hlt, hdomains]

end Positions

/-- The slices leave no blind spot exactly when the labels fit: of each of the `n` texts that share the budget
only the first `15 * (32 / n) + 20` characters are looked at. -/
theorem no_blind_spot_iff (rt : Runtime) (call : Call) (name : Text) (domains : List Text)
    (hname : sanitizedAscii rt call.domain = some name) (h : variants rt call = some domains) :
    NoBlindSpot name domains ↔
      LabelsFit name (sanitizeDomainChars (cleanDomain rt call.domain)) := by
  obtain ⟨ascii, hascii, -, rfl⟩ := variants_eq h
  obtain rfl : sanitizeDomainChars ascii = name := by
    rw [sanitizedAscii, hascii] at hname
    exact Option.some.inj hname
  have hdomains := sharing_eq ascii (cleanDomain rt call.domain)
  refine forall₃_congr fun pre label post => forall₂_congr fun hsplit hlabel => ?_
  rw [← forall_lt_iff (List.length_pos_iff.mpr hlabel.nonempty)]
  refine forall₂_congr fun j hj => ?_
  rw [inspects_name_iff hdomains hsplit hj, inspects_label_iff hdomains hj]
  refine or_congr Iff.rfl (or_congr (exists_congr fun offset => and_congr_right fun hoffset => ?_) Iff.rfl)
  exact inspects_lastTwo_iff hdomains hsplit hlabel hoffset hj

/-! ## A hidden label -/

def asciiRuntime : Runtime where
  nfkc text := text
  lower text := text
  idnaEncode text := .ok text

/-- Seven labels fill the first 80 characters. -/
def hidingDomain : Text :=
  points "aaaa.bbbb.cccc.dddd.eeee.ffff." ++ List.replicate 50 97 ++ points ".x7q2kz9.evil.com"

def callOf (domain : Text) : Call := ⟨domain, true, false, false⟩

theorem no_blind_spot_iff_short :
    NoBlindSpot (points "x7q2kz9.evil.com")
        (domainsToCheck (points "x7q2kz9.evil.com") (points "x7q2kz9.evil.com")) ↔
      LabelsFit (points "x7q2kz9.evil.com") (points "x7q2kz9.evil.com") :=
  no_blind_spot_iff asciiRuntime (callOf (points "x7q2kz9.evil.com")) _ _ (by decide) (by decide)

theorem hidden_label :
    ¬ ∀ (rt : Runtime) (call : Call) (name : Text) (domains : List Text), call.domain.length ≤ 253 →
      sanitizedAscii rt call.domain = some name → variants rt call = some domains →
      NoBlindSpot name domains := by
  intro h
  have hseen := h asciiRuntime (callOf hidingDomain) hidingDomain (domainsToCheck hidingDomain hidingDomain)
    (by decide +kernel) (by decide +kernel) (by decide +kernel)
    (points "aaaa.bbbb.cccc.dddd.eeee.ffff." ++ List.replicate 50 97 ++ [dot]) (points "x7q2kz9")
    (points ".evil.com") (by decide +kernel) ⟨by decide, by decide, by decide +kernel, by decide⟩ 0 (by decide)
  rcases hseen with hname | ⟨offset, hoffset, -⟩ | hlabel
  · exact absurd hname (by decide +kernel)
  · have hnone : lastTwoOffset (points "aaaa.bbbb.cccc.dddd.eeee.ffff." ++ List.replicate 50 97 ++ [dot])
        (points ".evil.com") = none := by decide +kernel
    rw [hnone] at hoffset
    cases hoffset
  · exact absurd hlabel (by decide +kernel)

end NeuralSoc.Dga
