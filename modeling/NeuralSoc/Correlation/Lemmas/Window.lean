import NeuralSoc.Correlation.Lemmas.Scripts
import Mathlib.Data.List.TakeDrop

/-!
# Runs of CORRELATE

The keys after a run, in terms of the alerts it admitted: the list holds the newest of them, the
counter their number, and a dedup key the greatest severity of its class.
-/

namespace NeuralSoc.Correlation

variable {τ : Type*}

/-- The keys after the alerts have been correlated one after the other. -/
def window : Keys τ → List (CorrelateArgs τ) → Keys τ
  | k, [] => k
  | k, a :: as => window (correlate a k).2 as

/-- The alerts of the run that are not refused, the oldest first. -/
def admitted : Keys τ → List (CorrelateArgs τ) → List (CorrelateArgs τ)
  | _, [] => []
  | k, a :: as =>
      if refused a k then admitted k as else a :: admitted (correlate a k).2 as

variable {k : Keys τ} {as : List (CorrelateArgs τ)}

theorem admitted_cons_of_refused {a : CorrelateArgs τ} (h : refused a k = true) :
    admitted k (a :: as) = admitted k as := by
  simp [admitted, h]

theorem admitted_cons {a : CorrelateArgs τ} (h : refused a k = false) :
    admitted k (a :: as) = a :: admitted (correlate a k).2 as := by
  simp [admitted, h]

theorem window_cons_of_refused {a : CorrelateArgs τ} (h : refused a k = true) :
    window k (a :: as) = window k as := by
  rw [window, correlate_of_refused h]

theorem window_append (as bs : List (CorrelateArgs τ)) :
    window k (as ++ bs) = window (window k as) bs := by
  induction as generalizing k with
  | nil => rfl
  | cons a as ih => exact ih

theorem mem_of_mem_admitted {b : CorrelateArgs τ} (h : b ∈ admitted k as) : b ∈ as := by
  induction as generalizing k with
  | nil => exact h
  | cons a as ih =>
      cases hadm : refused a k with
      | true => rw [admitted_cons_of_refused hadm] at h; exact List.mem_cons_of_mem _ (ih h)
      | false =>
          rw [admitted_cons hadm] at h
          rcases List.mem_cons.mp h with rfl | h
          · exact List.mem_cons_self
          · exact List.mem_cons_of_mem _ (ih h)

/-! ## The list and the counter -/

theorem take_append_take (n : ℕ) (xs ys : List τ) :
    (xs ++ ys.take n).take n = (xs ++ ys).take n := by
  rw [List.take_append, List.take_append, List.take_take]
  congr 2
  omega

theorem window_alerts (hk : k.alerts.length ≤ maxKept) (as : List (CorrelateArgs τ)) :
    (window k as).alerts =
      (((admitted k as).map CorrelateArgs.alertJson).reverse ++ k.alerts).take maxKept := by
  induction as generalizing k with
  | nil => exact (List.take_of_length_le hk).symm
  | cons a as ih =>
      cases hadm : refused a k with
      | true => rw [window_cons_of_refused hadm, admitted_cons_of_refused hadm, ih hk]
      | false =>
          have halerts := correlate_alerts hadm
          have hlen : (correlate a k).2.alerts.length ≤ maxKept := by
            rw [halerts]; exact List.length_take_le _ _
          rw [window, ih hlen, admitted_cons hadm, halerts, take_append_take]
          simp

theorem window_cnt (as : List (CorrelateArgs τ)) :
    number (window k as).cnt = number k.cnt + (admitted k as).length := by
  induction as generalizing k with
  | nil => rfl
  | cons a as ih =>
      cases hadm : refused a k with
      | true => rw [window_cons_of_refused hadm, admitted_cons_of_refused hadm, ih]
      | false =>
          rw [window, ih, admitted_cons hadm, correlate_cnt hadm, number_some, List.length_cons]
          omega

/-! ## The dedup keys -/

theorem number_recordSeverity (c t : String) (sev : ℕ) (dedup : String → Option ℕ) :
    number (recordSeverity t sev dedup c) =
      if c = t then max (number (dedup t)) sev else number (dedup c) := by
  simp only [recordSeverity, Bool.or_eq_true, beq_iff_eq, decide_eq_true_eq]
  split
  · by_cases hc : c = t
    · simp only [hc, ↓reduceIte, number_some]; omega
    · simp only [hc, ↓reduceIte]
  · by_cases hc : c = t
    · subst hc; simp only [↓reduceIte]; omega
    · simp only [hc, ↓reduceIte]

/-- The dedup key is below `n` when every admitted alert of the class is. -/
theorem window_dedup_lt (c : String) (n : ℕ) (as : List (CorrelateArgs τ)) :
    number ((window k as).dedup c) < n ↔
      number (k.dedup c) < n ∧ ∀ b ∈ admitted k as, b.safeThreat = c → b.severityScore < n := by
  induction as generalizing k with
  | nil => simp [window, admitted]
  | cons a as ih =>
      cases hadm : refused a k with
      | true => rw [window_cons_of_refused hadm, admitted_cons_of_refused hadm, ih]
      | false =>
          rw [window, ih, admitted_cons hadm, correlate_dedup hadm, number_recordSeverity]
          simp only [List.forall_mem_cons]
          by_cases hc : c = a.safeThreat
          · subst hc
            simp only [↓reduceIte, sup_lt_iff, forall_const, and_assoc]
          · have hc' : a.safeThreat ≠ c := fun h => hc h.symm
            simp only [hc, hc', ↓reduceIte, IsEmpty.forall_iff, true_and]

/-! ## The ids -/

theorem mem_correlate_seen {a : CorrelateArgs τ} {x : String} (h : x ∈ (correlate a k).2.seen) :
    x = a.alertId ∨ x ∈ k.seen := by
  cases hadm : refused a k with
  | true => rw [correlate_of_refused hadm] at h; exact Or.inr h
  | false =>
      rw [correlate_seen hadm] at h
      unfold admitSeen at h
      split at h
      · exact Or.inr h
      · dsimp only at h
        split at h
        · exact SortedSet.mem_zadd.mp (SortedSet.mem_popMin.mp h).1
        · exact SortedSet.mem_zadd.mp h

theorem admitted_of_fresh (as : List (CorrelateArgs τ))
    (hnodup : (as.map CorrelateArgs.alertId).Nodup) (hnew : ∀ a ∈ as, a.alertId ∉ k.seen) :
    admitted k as = as := by
  induction as generalizing k with
  | nil => rfl
  | cons a as ih =>
      obtain ⟨hne, hnodup⟩ := List.nodup_cons.mp hnodup
      rw [admitted_cons (admitted_of_not_mem (hnew a List.mem_cons_self))]
      congr 1
      apply ih hnodup
      intro b hb hmem
      rcases mem_correlate_seen hmem with he | hmem
      · exact hne (List.mem_map.mpr ⟨b, hb, he⟩)
      · exact hnew b (List.mem_cons_of_mem _ hb) hmem

/-! ## The flag -/

/-- When the flag is set for `a` after `earlier`: `a` is more severe than all of its class, or the
second alert, or a fifth one. -/
def Gate (earlier : List (CorrelateArgs τ)) (a : CorrelateArgs τ) : Prop :=
  (∀ b ∈ earlier, b.safeThreat = a.safeThreat → b.severityScore < a.severityScore) ∨
    earlier.length + 1 = 2 ∨ 5 ∣ earlier.length + 1

theorem incidentFlag_iff {total currentMax sev : ℕ} (hsev : 0 < sev) (htotal : 2 ≤ total) :
    incidentFlag total currentMax sev = true ↔ currentMax < sev ∨ total = 2 ∨ 5 ∣ total := by
  simp only [incidentFlag, Bool.and_eq_true, decide_eq_true_eq, Bool.or_eq_true, beq_iff_eq,
    ge_iff_le, htotal, true_and, Nat.dvd_iff_mod_eq_zero]
  omega

theorem two_le_of_alerts {a : CorrelateArgs τ} (hadm : refused a (window .none as) = false)
    (htwo : 2 ≤ (correlate a (window .none as)).2.alerts.length) :
    2 ≤ (admitted .none as).length + 1 := by
  rw [correlate_alerts hadm, window_alerts (Nat.zero_le _)] at htwo
  simp only [List.length_take, List.length_cons, List.length_append, List.length_reverse,
    List.length_map, Keys.none_alerts, List.length_nil] at htwo
  omega

theorem incident_iff_of_window {a : CorrelateArgs τ} (hsev : 0 < a.severityScore)
    (hadm : refused a (window .none as) = false) (htotal : 2 ≤ (admitted .none as).length + 1) :
    (correlate a (window .none as)).1.incident = 1 ↔ Gate (admitted .none as) a := by
  have hzero : number ((Keys.none : Keys τ).dedup a.safeThreat) < a.severityScore := hsev
  rw [correlate_incident hadm, window_cnt, Keys.none_cnt, number_none, Nat.zero_add,
    incidentFlag_iff hsev htotal, window_dedup_lt]
  simp only [hzero, true_and]
  rfl

end NeuralSoc.Correlation
