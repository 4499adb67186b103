import NeuralSoc.Correlation.Dedup
import NeuralSoc.Correlation.Lemmas.Window

/-!
# Escalation is not suppressed

A run of both scripts on one source is scored beside its keys: a class lists the severity scores of the alerts
admitted since it was last rolled back. Its dedup key holds the greatest of them.
-/

namespace NeuralSoc.Correlation

variable {τ : Type*}

/-- One script; a CORRELATE with the reply of TTL to it. -/
inductive TextCall (τ : Type*) where
  | correlate (ttl : ℤ) (a : CorrelateArgs τ)
  | rollback (r : RollbackArgs τ)

structure Scored (τ : Type*) where
  keys : TextKeys τ
  scores : String → List ℕ

def Scored.start : Scored τ := ⟨.none, fun _ => []⟩

def score [DecidableEq τ] (s : Scored τ) : TextCall τ → Scored τ
  | .correlate ttl a =>
      { keys := (textCorrelate ttl a s.keys).2
        scores := if refused a s.keys.read then s.scores
          else fun c => if c = a.safeThreat then a.severityScore :: s.scores c else s.scores c }
  | .rollback r =>
      { keys := textRollback r s.keys
        scores := fun c => if c = r.safeThreat then [] else s.scores c }

/-! ## The running maximum -/

def Scored.Maximal (s : Scored τ) : Prop := ∀ c, s.keys.read.dedup c = (s.scores c).max?

theorem recordSeverity_max? {dedup : String → Option ℕ} {c : String} {scores : List ℕ} (sev : ℕ)
    (h : dedup c = scores.max?) : recordSeverity c sev dedup c = (sev :: scores).max? := by
  have hnumber := number_recordSeverity c c sev dedup
  rw [if_pos rfl, h] at hnumber
  have hsome : (recordSeverity c sev dedup c).isSome := by
    simp only [recordSeverity, Bool.or_eq_true, beq_iff_eq, decide_eq_true_eq]
    split
    · simp only [↓reduceIte, Option.isSome_some]
    · next hkept =>
        cases hdedup : dedup c with
        | none => simp [hdedup] at hkept
        | some m => rfl
  obtain ⟨m, hm⟩ := Option.isSome_iff_exists.mp hsome
  rw [hm, number_some] at hnumber
  rw [hm, hnumber, List.max?_cons]
  cases scores.max? with
  | none => simp
  | some n => simp [max_comm]

theorem recordSeverity_of_ne {dedup : String → Option ℕ} {c t : String} (h : c ≠ t) (sev : ℕ) :
    recordSeverity t sev dedup c = dedup c := by
  rw [recordSeverity]
  split
  · exact if_neg h
  · rfl

variable [DecidableEq τ]

theorem maximal_score (s : Scored τ) (call : TextCall τ) (h : s.Maximal) : (score s call).Maximal := by
  intro c
  cases call with
  | correlate ttl a =>
      simp only [score, (textCorrelate_read ttl a s.keys).2]
      cases hadm : refused a s.keys.read with
      | true =>
          rw [correlate_of_refused hadm, if_pos rfl]
          exact h c
      | false =>
          rw [correlate_dedup hadm, if_neg Bool.false_ne_true]
          by_cases hc : c = a.safeThreat
          · rw [if_pos hc, ← hc]
            exact recordSeverity_max? a.severityScore (h c)
          · rw [if_neg hc, recordSeverity_of_ne hc]
            exact h c
  | rollback r =>
      simp only [score, textRollback_read, rollback]
      by_cases hc : c = r.safeThreat
      · rw [if_pos hc, if_pos hc]
        rfl
      · rw [if_neg hc, if_neg hc]
        exact h c

theorem maximal_run (run : List (TextCall τ)) : (run.foldl score .start).Maximal := by
  induction run using List.reverseRecOn with
  | nil => exact fun _ => rfl
  | append_singleton run call ih =>
      rw [List.foldl_concat]
      exact maximal_score _ call ih

/-! ## The flag -/

/-- What holds of the keys after a run, and of the next CORRELATE. -/
structure Scored.Escalates (s : Scored τ) : Prop where
  dedup : ∀ c, (s.keys.dedup c).map Entry.text = (s.scores c).max?.map tostring
  duplicate : ∀ ttl a, refused a s.keys.read = true → textCorrelate ttl a s.keys = (⟨0, 0, []⟩, s.keys)
  flagged : ∀ ttl a, refused a s.keys.read = false → 1 ≤ number s.keys.cnt →
    (∀ n ∈ s.scores a.safeThreat, n < a.severityScore) → (textCorrelate ttl a s.keys).1.incident = 1

theorem incidentFlag_of_max {total sev : ℕ} {scores : List ℕ} (htotal : 2 ≤ total) (hmax : ∀ n ∈ scores, n < sev) :
    incidentFlag total (number scores.max?) sev = true := by
  have hlt : number scores.max? = 0 ∨ number scores.max? < sev := by
    cases hm : scores.max? with
    | none => exact .inl rfl
    | some m => exact .inr (hmax m (List.max?_mem hm))
  simp only [incidentFlag, Bool.and_eq_true, Bool.or_eq_true, decide_eq_true_eq, beq_iff_eq]
  exact ⟨htotal, .inl (.inl hlt)⟩

/-- Every first and every more severe alert of its class sets the flag, once another one is counted. -/
theorem escalation_not_suppressed (run : List (TextCall τ)) : (run.foldl score .start).Escalates := by
  have hmax := maximal_run run
  refine ⟨fun c => ?_, fun ttl a h => ?_, fun ttl a h hcnt hnew => ?_⟩
  · rw [map_text, hmax c]
  · rw [textCorrelate, if_pos h]
  · rw [(textCorrelate_read ttl a _).1, correlate_incident h, hmax a.safeThreat]
    exact incidentFlag_of_max (Nat.succ_le_succ hcnt) hnew

end NeuralSoc.Correlation
