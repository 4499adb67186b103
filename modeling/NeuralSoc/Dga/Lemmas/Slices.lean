import Mathlib.Algebra.Order.BigOperators.Group.List
import NeuralSoc.Dga.Lemmas.Variants

/-! # The slices of a batch, and the positions they show the model. -/

namespace NeuralSoc.Dga

open Shell

/-- Where the slices of a text of length `len` start. -/
def sliceStarts (budget len : ℕ) : List ℕ := if 35 < len then windowStarts 35 15 budget len else [0]

/-- The slices of a batch in order: the variant each is cut from and where. -/
def windows (domains : List Text) : List (Text × ℕ) :=
  (domains.take 8).flatMap fun d => (sliceStarts (budgetPerDomain (domains.take 8)) d.length).map (d, ·)

/-- Position `j` of `d` is in a slice of `d`. -/
def Inspects (domains : List Text) (d : Text) (j : ℕ) : Prop :=
  ∃ start, (d, start) ∈ windows domains ∧ start ≤ j ∧ j < start + 35

instance (domains : List Text) (d : Text) (j : ℕ) : Decidable (Inspects domains d j) :=
  decidable_of_iff (∃ w ∈ windows domains, w.1 = d ∧ w.2 ≤ j ∧ j < w.2 + 35)
    ⟨fun ⟨⟨_, start⟩, hw, hd, h⟩ => ⟨start, hd ▸ hw, h⟩, fun ⟨start, hw, h⟩ => ⟨(d, start), hw, rfl, h⟩⟩

/-- The characters of a variant that the slices reach when `n` texts share the budget. -/
def reach (n : ℕ) : ℕ := 15 * (32 / n) + 20

theorem length_sliceStarts_le {budget : ℕ} (h : 0 < budget) (len : ℕ) :
    (sliceStarts budget len).length ≤ budget := by
  unfold sliceStarts
  split
  · exact length_windowStarts_le (by decide) h
  · exact h

theorem exists_sliceStart_iff {budget len j : ℕ} (h : 0 < budget) (hj : j < len) :
    (∃ start ∈ sliceStarts budget len, start ≤ j ∧ j < start + 35) ↔ j < 15 * budget + 20 := by
  unfold sliceStarts
  split
  · next hlong =>
      rw [exists_windowStart_iff (by decide) (by decide) h hlong.le hj]
      omega
  · next hshort =>
      simp only [List.mem_singleton, exists_eq_left]
      omega

variable {domains : List Text}

theorem budgetPerDomain_eq (h : domains ≠ []) : budgetPerDomain (domains.take 8) = 32 / (domains.take 8).length := by
  have hlength := List.length_pos_iff.mpr h
  have hne : domains.take 8 ≠ [] := by simp [h]
  have hle : (domains.take 8).length ≤ 8 := by simp
  rw [budgetPerDomain, if_neg hne, max_eq_right]
  exact (Nat.le_div_iff_mul_le (List.length_pos_iff.mpr hne)).mpr (by omega)

theorem budgetPerDomain_pos (subset : List Text) : 0 < budgetPerDomain subset := by
  unfold budgetPerDomain
  split
  · decide
  · exact lt_of_lt_of_le one_pos (le_max_left _ _)

theorem inspects_iff {d : Text} {j : ℕ} (hd : d ∈ domains.take 8) (hj : j < d.length) :
    Inspects domains d j ↔ j < reach (domains.take 8).length := by
  have hne : domains ≠ [] := by
    rintro rfl
    cases hd
  rw [reach, ← budgetPerDomain_eq hne, ← exists_sliceStart_iff (budgetPerDomain_pos _) hj]
  constructor
  · rintro ⟨start, hmem, hbounds⟩
    obtain ⟨d', -, hstart⟩ := List.mem_flatMap.mp hmem
    obtain ⟨start', hstart', heq⟩ := List.mem_map.mp hstart
    cases heq
    exact ⟨start, hstart', hbounds⟩
  · rintro ⟨start, hstart, hbounds⟩
    exact ⟨start, List.mem_flatMap.mpr ⟨d, hd, List.mem_map.mpr ⟨start, hstart, rfl⟩⟩, hbounds⟩

theorem Inspects.mem {d : Text} {j : ℕ} (h : Inspects domains d j) : d ∈ domains.take 8 := by
  obtain ⟨start, hmem, -⟩ := h
  obtain ⟨d', hd', hstart⟩ := List.mem_flatMap.mp hmem
  obtain ⟨start', -, heq⟩ := List.mem_map.mp hstart
  cases heq
  exact hd'

/-! ## Batches -/

def Window.text (w : Text × ℕ) : Text := (w.1.drop w.2).take 35

/-- The codes of a text, padded to a row of the model. -/
def paddedCodes (text : Text) : List ℕ := text.map charCode ++ List.replicate (35 - text.length) 0

theorem length_windows_le (domains : List Text) : (windows domains).length ≤ 32 := by
  by_cases h : domains = []
  · subst h
    decide
  · have hsum : (windows domains).length ≤ (domains.take 8).length * budgetPerDomain (domains.take 8) := by
      rw [windows, List.length_flatMap]
      refine (List.sum_le_card_nsmul _ (budgetPerDomain (domains.take 8)) ?_).trans (by simp)
      intro n hn
      obtain ⟨d, -, rfl⟩ := List.mem_map.mp hn
      rw [List.length_map]
      exact length_sliceStarts_le (budgetPerDomain_pos _) _
    rw [budgetPerDomain_eq h] at hsum
    exact hsum.trans (Nat.mul_div_le 32 _)

theorem domainSlices_eq {budget : ℕ} (hbudget : 0 < budget) {d : Text} (hd : d ≠ []) :
    domainSlices budget d =
      ⟨(sliceStarts budget d.length).map fun start => paddedCodes (Window.text (d, start)),
        (sliceStarts budget d.length).map fun start => Window.text (d, start)⟩ := by
  unfold domainSlices sliceStarts
  simp only [List.length_map, List.map_eq_nil_iff, hd, if_false]
  split
  · next hlong =>
      have hlength := @length_windowStarts_le 35 15 budget d.length (by decide) hbudget
      rw [List.take_of_length_le (by simpa using hlength), List.take_of_length_le (by simpa using hlength)]
      congr 1
      refine List.map_congr_left fun start hstart => ?_
      have hend := start_add_width_le (by decide) hbudget hlong.le hstart
      have hfull : 35 - ((d.drop start).take 35).length = 0 := by
        rw [List.length_take, List.length_drop]
        omega
      rw [paddedCodes, Window.text, hfull, List.replicate_zero, List.append_nil, List.map_take, List.map_drop]
  · next hshort =>
      obtain ⟨b, rfl⟩ : ∃ b, budget = b + 1 := ⟨budget - 1, by omega⟩
      have htext : Window.text (d, 0) = d := List.take_of_length_le (by simpa using hshort)
      simp [htext, paddedCodes]

/-- The slices before they are cut to 32. -/
def uncut (domains : List Text) : Batch :=
  let subset := domains.take 8
  ⟨subset.flatMap fun d => (domainSlices (budgetPerDomain subset) d).slices,
    subset.flatMap fun d => (domainSlices (budgetPerDomain subset) d).texts⟩

/-- The windows: their texts, and the padded codes of these. -/
theorem uncut_eq (h : ∀ d ∈ domains, d ≠ []) :
    uncut domains =
      ⟨(windows domains).map fun w => paddedCodes (Window.text w), (windows domains).map Window.text⟩ := by
  have hslices : ∀ d ∈ domains.take 8, domainSlices (budgetPerDomain (domains.take 8)) d = _ := fun d hd =>
    domainSlices_eq (budgetPerDomain_pos _) (h d (List.mem_of_mem_take hd))
  unfold uncut
  dsimp only
  congr 1
  · rw [windows, List.map_flatMap]
    refine List.flatMap_congr fun d hd => ?_
    rw [hslices d hd, List.map_map]
    rfl
  · rw [windows, List.map_flatMap]
    refine List.flatMap_congr fun d hd => ?_
    rw [hslices d hd, List.map_map]
    rfl

/-- The cut to 32 slices takes nothing away. -/
theorem buildBatch_eq (h : ∀ d ∈ domains, d ≠ []) : buildBatch domains = uncut domains := by
  have hlength := length_windows_le domains
  have hcut : buildBatch domains = ⟨(uncut domains).slices.take 32, (uncut domains).texts.take 32⟩ := rfl
  rw [hcut, uncut_eq h, List.take_of_length_le (by simpa using hlength),
    List.take_of_length_le (by simpa using hlength)]

end NeuralSoc.Dga
