import NeuralSoc.Correlation.Scripts

/-!
# What the scripts do to each key

One lemma for each key and script. Everything later about runs of scripts is derived from these.
-/

namespace NeuralSoc.Correlation

variable {τ : Type*}

/-! ## CORRELATE -/

theorem correlate_of_refused {a : CorrelateArgs τ} {k : Keys τ} (h : refused a k = true) :
    correlate a k = (⟨0, 0, []⟩, k) := by
  simp [correlate, h]

theorem refused_iff {a : CorrelateArgs τ} {k : Keys τ} :
    refused a k = true ↔ a.alertId ≠ "" ∧ a.alertId ∈ k.seen ∧ a.isReplay = false := by
  simp [refused, SortedSet.zscore_isSome, and_assoc]

theorem admitted_of_not_mem {a : CorrelateArgs τ} {k : Keys τ} (hseen : a.alertId ∉ k.seen) :
    refused a k = false := by
  cases hadm : refused a k with
  | false => rfl
  | true => exact absurd (refused_iff.mp hadm).2.1 hseen

section Admitted

variable {a : CorrelateArgs τ} {k : Keys τ} (h : refused a k = false)

include h

theorem correlate_seen : (correlate a k).2.seen = admitSeen a.alertId k.seen := by
  simp [correlate, h]

theorem correlate_alerts : (correlate a k).2.alerts = (a.alertJson :: k.alerts).take maxKept := by
  simp [correlate, h]

theorem correlate_cnt : (correlate a k).2.cnt = some (number k.cnt + 1) := by
  simp [correlate, h]

theorem correlate_dedup :
    (correlate a k).2.dedup = recordSeverity a.safeThreat a.severityScore k.dedup := by
  simp [correlate, h]

theorem correlate_incident :
    (correlate a k).1.incident = 1 ↔
      incidentFlag (number k.cnt + 1) (number (k.dedup a.safeThreat)) a.severityScore = true := by
  simp only [correlate, h, Bool.false_eq_true, ↓reduceIte]
  split <;> simp_all

theorem correlate_snapshot (hi : (correlate a k).1.incident = 1) :
    (correlate a k).1.alertsSnapshot = (correlate a k).2.alerts := by
  simp only [correlate_incident h] at hi
  simp [correlate, h, hi]

end Admitted

@[simp] theorem number_some (n : ℕ) : number (some n) = n := rfl

@[simp] theorem number_none : number none = 0 := rfl

@[simp] theorem Keys.none_cnt : (none : Keys τ).cnt = Option.none := rfl

@[simp] theorem Keys.none_alerts : (none : Keys τ).alerts = [] := rfl

/-! ## The seen set -/

theorem admitSeen_empty (seen : SortedSet ℕ String) : admitSeen "" seen = seen := rfl

/-- An id the set holds stays; only its score changes. -/
theorem mem_admitSeen_of_mem {id x : String} {seen : SortedSet ℕ String} (hid : id ∈ seen)
    (hle : seen.zcard ≤ maxSeen) : x ∈ admitSeen id seen ↔ x ∈ seen := by
  unfold admitSeen
  split
  · rfl
  · have hcard : ¬ (seen.zadd seen.zcard id).zcard > maxSeen := by
      rw [SortedSet.zcard_zadd_of_mem hid]; omega
    simp only [hcard, ↓reduceIte, SortedSet.mem_zadd]
    exact ⟨fun h => h.elim (fun h => h ▸ hid) (fun h => h), Or.inr⟩

theorem admitSeen_of_room {id : String} {seen : SortedSet ℕ String} (hne : id ≠ "") (hid : id ∉ seen)
    (hlt : seen.zcard < maxSeen) : admitSeen id seen = seen.zadd seen.zcard id := by
  have hcard : ¬ (seen.zadd seen.zcard id).zcard > maxSeen := by
    rw [SortedSet.zcard_zadd hid]; omega
  simp only [admitSeen, hne, hcard, ↓reduceIte]

theorem admitSeen_of_full {id : String} {seen : SortedSet ℕ String} (hne : id ≠ "") (hid : id ∉ seen)
    (hfull : maxSeen ≤ seen.zcard) : admitSeen id seen = (seen.zadd seen.zcard id).popMin := by
  have hcard : (seen.zadd seen.zcard id).zcard > maxSeen := by
    rw [SortedSet.zcard_zadd hid]; omega
  simp only [admitSeen, hne, hcard, ↓reduceIte]

/-! ## ROLLBACK -/

variable [DecidableEq τ]

theorem mem_rollback_seen {a : RollbackArgs τ} {k : Keys τ} {x : String} (hne : a.alertId ≠ "") :
    x ∈ (rollback a k).seen ↔ x ∈ k.seen ∧ x ≠ a.alertId := by
  simp [rollback, hne, SortedSet.mem_zrem]

theorem number_decrement (cnt : Option ℕ) : number (decrement cnt) = number cnt - 1 := by
  unfold decrement
  split
  · rfl
  · split
    · simp only [number_none]; omega
    · omega

theorem rollback_of_absent {a : RollbackArgs τ} {k : Keys τ} (hid : a.alertId ∉ k.seen)
    (hjson : a.alertJson ∉ k.alerts) :
    (rollback a k).seen = k.seen ∧ (rollback a k).alerts = k.alerts ∧ (rollback a k).cnt = k.cnt := by
  refine ⟨?_, List.erase_of_not_mem hjson, by simp [rollback, hjson]⟩
  simp only [rollback, SortedSet.zrem_of_not_mem hid, ite_self]

end NeuralSoc.Correlation
