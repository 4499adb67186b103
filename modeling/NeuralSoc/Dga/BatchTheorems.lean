import NeuralSoc.Dga.Theorems
import NeuralSoc.Dga.Training

/-! # The batch of a domain, and the rows the model was trained on. -/

namespace NeuralSoc.Dga

open Shell

variable {rt : Runtime} {lx : LexRuntime} {domains : List Text} {call : Call}

/-! ## Rows -/

theorem length_paddedCodes {text : Text} (h : text.length ≤ 35) : (paddedCodes text).length = 35 := by
  rw [paddedCodes, List.length_append, List.length_map, List.length_replicate]
  omega

theorem length_windowText_le (w : Text × ℕ) : (Window.text w).length ≤ 35 := by
  rw [Window.text, List.length_take]
  omega

theorem sliceStarts_ne_nil {budget : ℕ} (h : 0 < budget) (len : ℕ) : sliceStarts budget len ≠ [] := by
  unfold sliceStarts
  split
  · next hlong =>
      have hfirst : 0 ∈ windowStarts 35 15 budget len :=
        (mem_windowStarts (by decide) h).mpr (.inl ⟨0, h, Nat.zero_le _, (Nat.zero_mul _).symm⟩)
      exact List.ne_nil_of_mem hfirst
  · exact List.cons_ne_nil _ _

/-- The rows of a batch are the texts of a batch, and all of them as wide as the model wants. -/
structure WellFormed (domains : List Text) (batch : Batch) : Prop where
  bounded : batch.slices.length ≤ 32
  width : ∀ row ∈ batch.slices, row.length = 35
  aligned : batch.slices = batch.texts.map paddedCodes
  represented : ∀ d ∈ domains.take 8, (domainSlices (budgetPerDomain (domains.take 8)) d).slices ≠ []
  whole : batch = uncut domains

theorem wellFormed_buildBatch {domains : List Text} (hne : ∀ d ∈ domains, d ≠ []) :
    WellFormed domains (buildBatch domains) := by
  have hbatch := (buildBatch_eq hne).trans (uncut_eq hne)
  constructor
  · rw [hbatch, List.length_map]
    exact length_windows_le domains
  · intro row hrow
    rw [hbatch] at hrow
    obtain ⟨w, -, rfl⟩ := List.mem_map.mp hrow
    exact length_paddedCodes (length_windowText_le w)
  · rw [hbatch, List.map_map]
    rfl
  · intro d hd
    rw [domainSlices_eq (budgetPerDomain_pos _) (hne d (List.mem_of_mem_take hd)), Ne, List.map_eq_nil_iff]
    exact sliceStarts_ne_nil (budgetPerDomain_pos _) _
  · exact buildBatch_eq hne

theorem batch_well_formed (rt : Runtime) (call : Call) (domains : List Text)
    (h : variants rt call = some domains) : WellFormed domains (buildBatch domains) :=
  wellFormed_buildBatch (ne_nil_of_variants h)

theorem batch_well_formed_long :
    WellFormed (domainsToCheck hidingDomain hidingDomain) (buildBatch (domainsToCheck hidingDomain hidingDomain)) :=
  batch_well_formed asciiRuntime (callOf hidingDomain) _ (by decide +kernel)

/-- The model is only asked about well-formed batches. -/
theorem predictImpl_congr (rt : Runtime) (threshold : ℚ) {model model' : Batch → Option PyFloat}
    (h : ∀ domains batch, WellFormed domains batch → model batch = model' batch) (call : Call) :
    predictImpl rt threshold model call = predictImpl rt threshold model' call := by
  unfold predictImpl
  cases hvariants : variants rt call with
  | none => rfl
  | some domains =>
      dsimp only
      rw [h domains (buildBatch domains) (wellFormed_buildBatch (ne_nil_of_variants hvariants))]

/-! ## The row of a short domain -/

def IsAscii (text : Text) : Prop := ∀ c ∈ text, c < 128

/-- `c.lower()` of an ASCII character. -/
def lowerAscii (c : ℕ) : ℕ := if 65 ≤ c ∧ c ≤ 90 then c + 32 else c

/-- What the built-ins and `idna.encode` with `uts46` do with ASCII texts. -/
structure ReadsAscii (rt : Runtime) : Prop where
  nfkc : ∀ text, IsAscii text → rt.nfkc text = text
  lower : ∀ text, IsAscii text → rt.lower text = text.map lowerAscii
  idna : ∀ text, IsAscii text → rt.idnaEncode text = .ok (rt.lower text) ∨ rt.idnaEncode text = .error .refused

theorem lowerAscii_lt {c : ℕ} (h : c < 128) : lowerAscii c < 128 := by
  unfold lowerAscii
  split <;> omega

theorem lowerAscii_twice (c : ℕ) : lowerAscii (lowerAscii c) = lowerAscii c := by
  unfold lowerAscii
  split
  · rw [if_neg (by omega)]
  · rfl

theorem isAscii_map_lower {text : Text} (h : IsAscii text) : IsAscii (text.map lowerAscii) := by
  intro c hc
  obtain ⟨d, hd, rfl⟩ := List.mem_map.mp hc
  exact lowerAscii_lt (h d hd)

theorem rstripDots_of_getLast {text : Text} (h : text.getLast? ≠ some dot) : rstripDots text = text := by
  have hhead : text.reverse.head? ≠ some dot := by rwa [List.head?_reverse]
  rw [rstripDots]
  cases hrev : text.reverse with
  | nil => rw [List.dropWhile_nil, ← hrev, List.reverse_reverse]
  | cons c cs =>
      rw [hrev] at hhead
      have hne : ¬(decide (c = dot) = true) := fun hc => hhead (congrArg some (of_decide_eq_true hc))
      rw [List.dropWhile_cons, if_neg hne, ← hrev, List.reverse_reverse]

section

variable (h : ReadsAscii rt) {domain : Text} (hascii : IsAscii domain)

include h hascii

theorem cleanDomain_of_ascii (hdot : domain.getLast? ≠ some dot) :
    cleanDomain rt domain = domain.map lowerAscii := by
  rw [cleanDomain, h.nfkc domain hascii, rstripDots_of_getLast hdot, h.lower domain hascii]

/-- With or without IDNA. -/
theorem asciiDomain_of_ascii (hdot : domain.getLast? ≠ some dot) :
    asciiDomain rt domain = some (domain.map lowerAscii) := by
  have hlower := isAscii_map_lower hascii
  have htwice : rt.lower (domain.map lowerAscii) = domain.map lowerAscii := by
    rw [h.lower _ hlower, List.map_map]
    exact List.map_congr_left fun c _ => lowerAscii_twice c
  rw [asciiDomain, cleanDomain_of_ascii h hascii hdot]
  rcases h.idna _ hlower with hidna | hidna
  · rw [hidna, htwice]
    exact congrArg some htwice
  · rw [hidna]

end

/-- The first text to check is the lower-cased domain. -/
theorem variants_of_ascii (h : ReadsAscii rt) (hascii : IsAscii call.domain) (hne : call.domain ≠ [])
    (hlength : call.domain.length ≤ 512) (hdot : call.domain.getLast? ≠ some dot)
    (hserved : call.loaded = true ∧ call.expired = false ∧ call.expiredLater = false) :
    variants rt call =
      some (domainsToCheck (call.domain.map lowerAscii) (call.domain.map lowerAscii)) := by
  obtain ⟨hloaded, hexpired, hlater⟩ := hserved
  have hguard : ¬(call.domain = [] ∨ call.loaded = false ∨ 512 < call.domain.length) := by
    rw [hloaded]
    simp only [hne, false_or, reduceCtorEq]
    omega
  have hsanitized : sanitizeDomainChars (call.domain.map lowerAscii) ≠ [] := by
    rw [sanitizeDomainChars, Ne, List.map_eq_nil_iff, List.map_eq_nil_iff]
    exact hne
  rw [variants, if_neg hguard, hexpired, asciiDomain_of_ascii h hascii hdot, cleanDomain_of_ascii h hascii hdot,
    hlater]
  simp only [Bool.false_eq_true, ↓reduceIte]
  exact if_neg hsanitized

theorem charMapAt_sanitized (text : Text) :
    (sanitizeDomainChars text).mapM charMapAt = some ((sanitizeDomainChars text).map charCode) := by
  have hknown : ∀ c ∈ sanitizeDomainChars text, charMapAt c = some (charCode c) := by
    intro c hc
    have hvalid : c ∈ validChars := by
      obtain ⟨d, -, rfl⟩ := List.mem_map.mp hc
      split
      · assumption
      · decide
    rw [charMapAt, if_pos hvalid, charCode, if_pos hvalid]
  generalize sanitizeDomainChars text = sanitized at hknown
  induction sanitized with
  | nil => rfl
  | cons c cs ih =>
      rw [List.mapM_cons, hknown c List.mem_cons_self, ih fun d hd => hknown d (List.mem_cons_of_mem c hd)]
      rfl

/-- What both data sets make of a domain. -/
def trained (rt : Runtime) (lx : LexRuntime) (d : Text) : Row :=
  let sanitized := sanitizeDomainChars ((rt.lower d).take 35)
  ⟨paddedCodes sanitized, lexicalFeatures lx sanitized⟩

theorem trained_of_short {d lowered : Text} (hlower : rt.lower d = lowered) (hlength : lowered.length ≤ 35) :
    trained rt lx d =
      ⟨paddedCodes (sanitizeDomainChars lowered), lexicalFeatures lx (sanitizeDomainChars lowered)⟩ := by
  rw [trained, hlower, List.take_of_length_le hlength]

theorem length_sanitized_take_le (text : Text) : (sanitizeDomainChars (text.take 35)).length ≤ 35 := by
  rw [sanitizeDomainChars, List.length_map]
  exact List.length_take_le 35 text

theorem trainingRow_eq (rt : Runtime) (lx : LexRuntime) (d : Text) :
    trainingRow rt lx 35 d = some (trained rt lx d) := by
  have hlength := length_sanitized_take_le (rt.lower d)
  have hwidth := length_paddedCodes hlength
  have hpadded : (if (sanitizeDomainChars ((rt.lower d).take 35)).length < 35 then
        (sanitizeDomainChars ((rt.lower d).take 35)).map charCode ++
          List.replicate (35 - (sanitizeDomainChars ((rt.lower d).take 35)).length) 0
      else (sanitizeDomainChars ((rt.lower d).take 35)).map charCode) =
      paddedCodes (sanitizeDomainChars ((rt.lower d).take 35)) := by
    rw [paddedCodes]
    split
    · rfl
    · rw [Nat.sub_eq_zero_of_le (by omega), List.replicate_zero, List.append_nil]
  rw [trainingRow, charMapAt_sanitized]
  simp only [Option.bind_eq_bind, Option.bind_some, List.length_map, hpadded, Option.pure_def]
  rw [List.take_of_length_le hwidth.le]
  rfl

theorem mapM_trainingRow (rt : Runtime) (lx : LexRuntime) (data : List Text) :
    data.mapM (trainingRow rt lx 35) = some (data.map (trained rt lx)) := by
  induction data with
  | nil => rfl
  | cons d data ih =>
      rw [List.mapM_cons, trainingRow_eq, ih]
      rfl

theorem windows_head {first : Text} {rest : List Text} (h : first.length ≤ 35) :
    (windows (first :: rest)).head? = some (first, 0) := by
  rw [windows, List.take_succ_cons, List.flatMap_cons, sliceStarts, if_neg (Nat.not_lt.mpr h)]
  rfl

theorem exists_domainsToCheck (ascii clean : Text) :
    ∃ rest, domainsToCheck ascii clean = sanitizeDomainChars ascii :: rest := by
  have h : candidates (sanitizeDomainChars ascii) (sanitizeDomainChars clean) =
      sanitizeDomainChars ascii :: (candidates (sanitizeDomainChars ascii) (sanitizeDomainChars clean)).tail := rfl
  rw [domainsToCheck_eq, h, List.eraseDups_cons]
  exact ⟨_, rfl⟩

/-- The first slice of a short ASCII domain and its features are its row of both data sets. -/
theorem first_slice_as_trained (rt : Runtime) (lx : LexRuntime) (call : Call) (hreads : ReadsAscii rt)
    (hne : call.domain ≠ []) (hascii : IsAscii call.domain) (hlength : call.domain.length ≤ 35)
    (hdot : call.domain.getLast? ≠ some dot)
    (hserved : call.loaded = true ∧ call.expired = false ∧ call.expiredLater = false) :
    ∃ (domains : List Text) (row : Row), variants rt call = some domains ∧
      (buildBatch domains).slices.head? = some row.codes ∧
      (lexRows lx (buildBatch domains)).head? = some row.features ∧
      ∀ (data : List Text) (i : ℕ), data[i]? = some call.domain →
        (generateHardDataset rt lx data).bind (·[i]?) = some row ∧
          (generateDynamicDataset rt lx data).bind (·[i]?) = some row := by
  have hlower := hreads.lower call.domain hascii
  have hvariants := variants_of_ascii hreads hascii hne (by omega) hdot hserved
  have hlen : (call.domain.map lowerAscii).length ≤ 35 := by rwa [List.length_map]
  generalize call.domain.map lowerAscii = lowered at hlower hvariants hlen
  have hshort : (sanitizeDomainChars lowered).length ≤ 35 := by rwa [sanitizeDomainChars, List.length_map]
  have htrained : trained rt lx call.domain = _ := trained_of_short hlower hlen
  have htext : Window.text (sanitizeDomainChars lowered, 0) = sanitizeDomainChars lowered :=
    List.take_of_length_le (by simpa using hshort)
  obtain ⟨rest, hrest⟩ := exists_domainsToCheck lowered lowered
  refine ⟨_, trained rt lx call.domain, hvariants, ?_, ?_, fun data i hi => ?_⟩
  · rw [variants_batch hvariants, hrest, List.head?_map, windows_head hshort, htrained, Option.map_some, htext]
  · rw [lexRows, variants_batch hvariants, hrest, List.head?_map, List.head?_map, windows_head hshort, htrained,
      Option.map_some, Option.map_some, htext]
  · have hrow : (data.map (trained rt lx))[i]? = some (trained rt lx call.domain) := by
      rw [List.getElem?_map, hi, Option.map_some]
    rw [generateHardDataset, generateDynamicDataset, mapM_trainingRow, Option.bind_some]
    exact ⟨hrow, hrow⟩

/-- It refuses a text that IDNA would, and knows ASCII letters and digits only. -/
def refusingRuntime : Runtime where
  nfkc text := text
  lower text := text.map lowerAscii
  idnaEncode text := if text.contains 95 then .error .refused else .ok (text.map lowerAscii)

def digitRuntime : LexRuntime := ⟨fun _ => 0, fun c => 48 ≤ c && c ≤ 57⟩

theorem refusingRuntime_readsAscii : ReadsAscii refusingRuntime where
  nfkc _ _ := rfl
  lower _ _ := rfl
  idna text _ := by
    change (if text.contains 95 then _ else _) = _ ∨ (if text.contains 95 then _ else _) = _
    split
    · exact .inr rfl
    · exact .inl rfl

theorem first_slice_as_trained_service :
    ∃ (domains : List Text) (row : Row), variants refusingRuntime (callOf (points "_LDAP._tcp.Example.com")) = some domains ∧
      (buildBatch domains).slices.head? = some row.codes ∧
      (lexRows digitRuntime (buildBatch domains)).head? = some row.features ∧
      ∀ (data : List Text) (i : ℕ), data[i]? = some (points "_LDAP._tcp.Example.com") →
        (generateHardDataset refusingRuntime digitRuntime data).bind (·[i]?) = some row ∧
          (generateDynamicDataset refusingRuntime digitRuntime data).bind (·[i]?) = some row :=
  first_slice_as_trained refusingRuntime digitRuntime (callOf (points "_LDAP._tcp.Example.com"))
    refusingRuntime_readsAscii (by decide) (by unfold IsAscii; decide) (by decide) (by decide)
    ⟨rfl, rfl, rfl⟩

end NeuralSoc.Dga
