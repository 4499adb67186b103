import NeuralSoc.Base.Runs
import NeuralSoc.Correlation.Lemmas.Compensation
import NeuralSoc.Correlation.Lemmas.Window

/-!
# The counter of the window

A run is tallied beside the keys: how many alerts were admitted and how many rolled back. ROLLBACK
counts down only when it finds its alert in the list, and the list forgets all but the newest alerts.
-/

namespace NeuralSoc.Correlation

variable {τ : Type*}

structure Tally (τ : Type*) where
  keys : Keys τ
  admitted : ℕ
  rolledBack : ℕ

def Tally.start : Tally τ := ⟨.none, 0, 0⟩

/-- `:cnt` is the number of admitted alerts minus the number of rolled-back alerts. -/
def Tally.Counted (s : Tally τ) : Prop := (number s.keys.cnt : ℤ) = s.admitted - s.rolledBack

/-- A rollback finds its alert in the list. -/
def Tally.Found (s : Tally τ) : Call τ → Prop
  | .correlate _ => True
  | .rollback r => r.alertJson ∈ s.keys.alerts

def CorrelateArgs.undo (a : CorrelateArgs τ) : RollbackArgs τ := ⟨a.alertJson, a.alertId, a.safeThreat⟩

/-- Every CORRELATE brings a new alert, and every ROLLBACK is of one that has come and not been rolled
back yet. -/
def Orderly : List (CorrelateArgs τ) → List (CorrelateArgs τ) → List (Call τ) → Prop
  | _, _, [] => True
  | come, undone, .correlate a :: cs =>
      (∀ b ∈ come, b.alertId ≠ a.alertId ∧ b.alertJson ≠ a.alertJson) ∧ Orderly (a :: come) undone cs
  | come, undone, .rollback r :: cs =>
      ∃ a ∈ come, a ∉ undone ∧ r = a.undo ∧ Orderly come (a :: undone) cs

/-! ## A burst of alerts before a rollback -/

theorem not_mem_alerts_of_burst {a : CorrelateArgs τ} {as : List (CorrelateArgs τ)}
    (hids : ((a :: as).map CorrelateArgs.alertId).Nodup)
    (hjson : a.alertJson ∉ as.map CorrelateArgs.alertJson) (hlen : maxKept ≤ as.length) :
    a.alertJson ∉ (window .none (a :: as)).alerts := by
  have hadm : admitted .none (a :: as) = a :: as :=
    admitted_of_fresh _ hids fun _ _ => SortedSet.not_mem_empty _
  rw [window_alerts (Nat.zero_le _), hadm]
  intro hmem
  rw [List.map_cons, List.reverse_cons, List.append_assoc,
    List.take_append_of_le_length (by simpa using hlen)] at hmem
  exact hjson (List.mem_reverse.mp (List.mem_of_mem_take hmem))

theorem orderly_burst {a : CorrelateArgs τ} {as come : List (CorrelateArgs τ)} (ha : a ∈ come ∨ a ∈ as)
    (hids : (as.map CorrelateArgs.alertId).Nodup) (hjsons : (as.map CorrelateArgs.alertJson).Nodup)
    (hnew : ∀ b ∈ come, ∀ c ∈ as, b.alertId ≠ c.alertId ∧ b.alertJson ≠ c.alertJson) :
    Orderly come [] (as.map Call.correlate ++ [.rollback a.undo]) := by
  induction as generalizing come with
  | nil => exact ⟨a, by simpa using ha, List.not_mem_nil, rfl, trivial⟩
  | cons c as ih =>
      obtain ⟨hid, hids⟩ := List.nodup_cons.mp hids
      obtain ⟨hjson, hjsons⟩ := List.nodup_cons.mp hjsons
      refine ⟨fun b hb => hnew b hb c List.mem_cons_self, ih ?_ hids hjsons ?_⟩
      · rcases ha with ha | ha
        · exact Or.inl (List.mem_cons_of_mem _ ha)
        · exact (List.mem_cons.mp ha).imp_left fun h => List.mem_cons.mpr (Or.inl h)
      · intro b hb d hd
        rcases List.mem_cons.mp hb with rfl | hb
        · exact ⟨fun h => hid (List.mem_map.mpr ⟨d, hd, h.symm⟩),
            fun h => hjson (List.mem_map.mpr ⟨d, hd, h.symm⟩)⟩
        · exact hnew b hb d (List.mem_cons_of_mem _ hd)

variable [DecidableEq τ]

def tally (s : Tally τ) : Call τ → Tally τ
  | .correlate a =>
      { keys := (correlate a s.keys).2
        admitted := if refused a s.keys then s.admitted else s.admitted + 1
        rolledBack := s.rolledBack }
  | .rollback r =>
      { keys := rollback r s.keys
        admitted := s.admitted
        rolledBack := s.rolledBack + 1 }

/-! ## One step -/

theorem length_le_cnt (s : Tally τ) (c : Call τ) (h : s.keys.alerts.length ≤ number s.keys.cnt) :
    (tally s c).keys.alerts.length ≤ number (tally s c).keys.cnt := by
  cases c with
  | correlate a =>
      cases hadm : refused a s.keys with
      | true => simp only [tally, correlate_of_refused hadm]; exact h
      | false =>
          simp only [tally, correlate_alerts hadm, correlate_cnt hadm, number_some,
            List.length_take, List.length_cons]
          omega
  | rollback r =>
      simp only [tally, rollback_alerts, number_rollback]
      split
      · rw [List.length_erase_of_mem ‹_›]; omega
      · rw [List.erase_of_not_mem ‹_›]; exact h

theorem counted_tally (s : Tally τ) (c : Call τ) (h : s.keys.alerts.length ≤ number s.keys.cnt)
    (hc : s.Counted) : (tally s c).Counted ↔ s.Found c := by
  unfold Tally.Counted at hc ⊢
  cases c with
  | correlate a =>
      cases hadm : refused a s.keys with
      | true => simp only [tally, correlate_of_refused hadm, hadm, ↓reduceIte, Tally.Found, hc]
      | false =>
          simp only [tally, correlate_cnt hadm, number_some, hadm, Bool.false_eq_true, ↓reduceIte,
            Tally.Found, iff_true]
          omega
  | rollback r =>
      simp only [tally, number_rollback, Tally.Found]
      by_cases hmem : r.alertJson ∈ s.keys.alerts
      · have hpos := List.length_pos_of_mem hmem
        simp only [hmem, ↓reduceIte, iff_true]
        omega
      · simp only [hmem, ↓reduceIte, iff_false]
        omega

/-! ## The run of a burst -/

theorem tally_correlates (s : Tally τ) (as : List (CorrelateArgs τ)) :
    (as.map Call.correlate).foldl tally s =
      ⟨window s.keys as, s.admitted + (admitted s.keys as).length, s.rolledBack⟩ := by
  induction as generalizing s with
  | nil => rfl
  | cons a as ih =>
      rw [List.map_cons, List.foldl_cons, ih]
      cases hadm : refused a s.keys with
      | true =>
          simp only [tally, correlate_of_refused hadm, hadm, ↓reduceIte,
            window_cons_of_refused hadm, admitted_cons_of_refused hadm]
      | false =>
          simp only [tally, hadm, Bool.false_eq_true, ↓reduceIte, window, admitted_cons hadm,
            List.length_cons, Tally.mk.injEq, true_and, and_true]
          omega

theorem not_counted_of_burst {a : CorrelateArgs τ} {as : List (CorrelateArgs τ)}
    (hids : ((a :: as).map CorrelateArgs.alertId).Nodup)
    (hjson : a.alertJson ∉ as.map CorrelateArgs.alertJson) (hlen : maxKept ≤ as.length) :
    ¬ (((a :: as).map Call.correlate ++ [Call.rollback a.undo]).foldl tally .start).Counted := by
  have hadm : admitted Keys.none (a :: as) = a :: as :=
    admitted_of_fresh _ hids fun _ _ => SortedSet.not_mem_empty _
  rw [List.foldl_append, tally_correlates, List.foldl_cons, List.foldl_nil, counted_tally]
  · exact not_mem_alerts_of_burst hids hjson hlen
  · rw [Tally.start, window_cnt, window_alerts (Nat.zero_le _), List.length_take]
    simp only [Keys.none_alerts, List.length_append, List.length_reverse, List.length_map,
      List.length_nil]
    omega
  · simp [Tally.Counted, Tally.start, window_cnt]

end NeuralSoc.Correlation
