import NeuralSoc.Correlation.Correlator
import NeuralSoc.Correlation.Lemmas.Compensation
import NeuralSoc.Correlation.Lemmas.Counter
import NeuralSoc.Correlation.Lemmas.Fifo
import NeuralSoc.Correlation.Lemmas.Description
import NeuralSoc.Correlation.Lemmas.Incident
import Mathlib.Data.List.Permutation
import Mathlib.Tactic.NormNum

/-!
# What holds of the correlation window

The results about the scripts and `add_alert`, assembled from `Lemmas/`. All runs are on one source
address within one unexpired window.
-/

namespace NeuralSoc.Correlation

variable {rt : Runtime}

/-! ## Compensation -/

theorem around_call {a : Object} {s : Script}
    (h : s = .rollback a ∨ ∃ b, s = .correlate b ∧ b ≠ a ∧ alertIdText rt b ≠ alertIdText rt a)
    (hstrip : strip (alertIdText rt a) = alertIdText rt a) :
    Around (rollbackArgs rt a) (s.call rt) := by
  rcases h with rfl | ⟨b, rfl, hne, hid⟩
  · exact Or.inl rfl
  · refine Or.inr ⟨_, rfl, hne, ?_⟩
    simp only [correlateArgs, rollbackArgs, hstrip]
    exact hid

theorem without_map_call {a : Object} {steps : List Script}
    (h : ∀ s ∈ steps, s = .rollback a ∨
      ∃ b, s = .correlate b ∧ b ≠ a ∧ alertIdText rt b ≠ alertIdText rt a) :
    without (steps.map (Script.call rt)) =
      (steps.filter (· ≠ .rollback a)).map (Script.call rt) := by
  induction steps with
  | nil => rfl
  | cons s steps ih =>
      have hrest := ih fun s hs => h s (List.mem_cons_of_mem _ hs)
      rcases h s List.mem_cons_self with rfl | ⟨b, rfl, -⟩
      · simpa [without, Script.call] using hrest
      · simpa [without, Script.call] using hrest

/-- Rolling a fresh alert back, once or more, gives the run it was never part of. -/
theorem rollback_compensates (rt : Runtime) (k : Keys Object) (a : Object) (steps : List Script)
    (hid : alertIdText rt a ≠ "") (hstrip : strip (alertIdText rt a) = alertIdText rt a)
    (hseen : alertIdText rt a ∉ k.seen) (hjson : a ∉ k.alerts)
    (hsteps : ∀ s ∈ steps, s = .rollback a ∨
      ∃ b, s = .correlate b ∧ b ≠ a ∧ alertIdText rt b ≠ alertIdText rt a)
    (hback : .rollback a ∈ steps)
    (hfits : Each exec Fits k ((.correlate a :: steps).map (Script.call rt))) :
    Agree (runScripts rt k (.correlate a :: steps))
      (runScripts rt k (steps.filter (· ≠ .rollback a))) := by
  obtain ⟨hfit, hfits⟩ := hfits
  have hne : (rollbackArgs rt a).alertId ≠ "" := by rw [rollbackArgs, hstrip]; exact hid
  have haround : ∀ c ∈ steps.map (Script.call rt), Around (rollbackArgs rt a) c := by
    intro c hc
    obtain ⟨s, hs, rfl⟩ := List.mem_map.mp hc
    exact around_call (hsteps s hs) hstrip
  obtain ⟨hp, hagree⟩ := pending_of_fresh (r := rollbackArgs rt a) hfit rfl hstrip hne hseen hjson
  have hend := agree_run hne _ haround hfits hagree hp
  have hgone := gone_run hne _ haround hfits hp (Or.inr (List.mem_map.mpr ⟨_, hback, rfl⟩))
  rw [without_map_call hsteps] at hend
  exact hgone.agree.symm.trans hend

def sampleAlert (id : String) : Object :=
  [("alert_id", .str id), ("source_ip", .str "10.0.0.5"), ("threat_class", .str "DDoS")]

theorem rollback_compensates_twice :
    Agree
      (runScripts plainRuntime .none [.correlate (sampleAlert "ALT-1"),
        .correlate (sampleAlert "ALT-2"), .rollback (sampleAlert "ALT-1"),
        .rollback (sampleAlert "ALT-1")])
      (runScripts plainRuntime .none [.correlate (sampleAlert "ALT-2")]) := by
  refine rollback_compensates plainRuntime .none (sampleAlert "ALT-1") _ (by decide) (by decide)
    (SortedSet.not_mem_empty _) (by decide) ?_ (by decide) ?_
  · intro s hs
    simp only [List.mem_cons, List.not_mem_nil, or_false] at hs
    rcases hs with rfl | rfl | rfl
    · exact Or.inr ⟨_, rfl, by decide, by decide⟩
    · exact Or.inl rfl
    · exact Or.inl rfl
  · exact ⟨Or.inr ⟨by decide, fun _ => by decide⟩, Or.inr ⟨by decide, fun _ => by decide⟩, trivial,
      trivial, trivial⟩

/-! ## A correlation whose caller has given up

Only if CORRELATE runs before its ROLLBACK, and nothing was trimmed or evicted for the alert. -/

theorem timed_out_correlation_iff (rt : Runtime) (k : Keys Object) (a : Object)
    (hseen : alertIdText rt a ∉ k.seen) (hjson : a ∉ k.alerts) (order : List Script)
    (horder : order.Perm [.correlate a, .rollback a]) :
    Agree (runScripts rt k order) k ↔
      order = [.correlate a, .rollback a] ∧ k.alerts.length < maxKept ∧
        IdComesOut (alertIdText rt a) (strip (alertIdText rt a)) k.seen := by
  rcases List.perm_pair.mp horder with rfl | rfl
  · rw [eq_self, true_and]
    refine agree_correlate_rollback_iff (r := rollbackArgs rt a) (b := correlateArgs rt a) rfl ?_ hseen
    intro hid
    have hid' : alertIdText rt a = "" := hid
    rw [rollbackArgs, hid', strip_empty]
  · have hno : ¬ Agree (runScripts rt k [.rollback a, .correlate a]) k :=
      not_agree_rollback_correlate (b := correlateArgs rt a) hseen hjson
    simp [hno]

theorem timed_out_correlation_iff_none :
    Agree (runScripts plainRuntime .none [.rollback (sampleAlert "ALT-1"),
        .correlate (sampleAlert "ALT-1")]) .none ↔
      [Script.rollback (sampleAlert "ALT-1"), .correlate (sampleAlert "ALT-1")] =
          [.correlate (sampleAlert "ALT-1"), .rollback (sampleAlert "ALT-1")] ∧
        (Keys.none (τ := Object)).alerts.length < maxKept ∧
        IdComesOut (alertIdText plainRuntime (sampleAlert "ALT-1"))
          (strip (alertIdText plainRuntime (sampleAlert "ALT-1"))) (Keys.none (τ := Object)).seen :=
  timed_out_correlation_iff plainRuntime .none (sampleAlert "ALT-1") (SortedSet.not_mem_empty _)
    (by decide) _ (List.Perm.swap _ _ _)

/-- The executor thread reaches Redis after the rollback: the alert stays in the window. -/
theorem late_correlate_leaves_trace :
    ¬ ∀ (rt : Runtime) (k : Keys Object) (a : Object), alertIdText rt a ∉ k.seen → a ∉ k.alerts →
      ∀ order : List Script, order.Perm [.correlate a, .rollback a] →
        Agree (runScripts rt k order) k := by
  intro h
  have hlate := h plainRuntime .none (sampleAlert "ALT-1") (SortedSet.not_mem_empty _) (by decide)
    [.rollback (sampleAlert "ALT-1"), .correlate (sampleAlert "ALT-1")] (List.Perm.swap _ _ _)
  exact absurd hlate.alerts (by decide)

/-! ## The counter -/

theorem cnt_counts_iff {τ : Type*} [DecidableEq τ] (run : List (Call τ)) :
    Always tally Tally.Counted .start run ↔ Each tally Tally.Found .start run :=
  always_iff_each (I := fun s : Tally τ => s.keys.alerts.length ≤ number s.keys.cnt)
    length_le_cnt counted_tally (Nat.zero_le _) (by simp [Tally.Counted, Tally.start, Keys.none])

def tag (i : ℕ) : String := String.ofList (List.replicate (i + 1) 'n')

theorem tag_injective : Function.Injective tag := by
  intro i j h
  have hlen := congrArg String.length h
  simpa [tag] using hlen

def tagged (i : ℕ) : CorrelateArgs String := ⟨tag i, "DDoS", 100, tag i, false⟩

theorem tagged_nodup (f : CorrelateArgs String → String) (hf : ∀ i, f (tagged i) = tag i) (n : ℕ) :
    ((tagged 0 :: (List.range n).map fun i => tagged (i + 1)).map f).Nodup := by
  have htags : (tagged 0 :: (List.range n).map fun i => tagged (i + 1)).map f =
      (List.range (n + 1)).map tag := by
    rw [List.range_succ_eq_map]
    simp only [List.map_cons, List.map_map, hf, Function.comp_def, Nat.succ_eq_add_one]
  rw [htags]
  exact List.nodup_range.map tag_injective

/-- 101 alerts, then the first of them is rolled back. -/
theorem trimmed_alert_stays_counted :
    ¬ ∀ run : List (Call String), Orderly [] [] run → Always tally Tally.Counted .start run := by
  intro h
  have hids := tagged_nodup CorrelateArgs.alertId (fun _ => rfl) 100
  have hjsons := tagged_nodup CorrelateArgs.alertJson (fun _ => rfl) 100
  refine not_counted_of_burst hids (List.nodup_cons.mp hjsons).1 (by simp [maxKept]) (h _ ?_).last
  exact orderly_burst (Or.inr List.mem_cons_self) hids hjsons nofun

/-! ## The replay-defence set -/

theorem seen_fifo_iff {τ : Type*} [DecidableEq τ] (run : List (Call τ)) :
    Always record Ledger.Fifo .start run ↔ Each record Ledger.Ordered .start run :=
  always_iff_each Ledger.Wf.record fifo_record Ledger.start_wf Ledger.start_fifo

def named (id : String) : CorrelateArgs String := ⟨id, "DDoS", 100, id, false⟩

/-- After these `a` and `c` share the score 1, and `c` is the older one. -/
def tieRun : List (Call String) :=
  [.correlate (named "b"), .correlate (named "c"), .rollback (named "b").undo,
    .correlate (named "a")]

theorem tieRun_entries : (tieRun.foldl record .start).keys.seen.entries =
    [toLex (1, "a"), toLex (1, "c")] := by decide

theorem tieRun_log : (tieRun.foldl record .start).log = ["c", "a"] := by decide

theorem tieRun_least : Least "a" 1 (tieRun.foldl record .start).keys.seen := by
  refine ⟨SortedSet.zscore_eq_some.mpr (by rw [tieRun_entries]; decide), fun b m hb => ?_, ?_⟩
  · rw [SortedSet.zscore_eq_some, tieRun_entries] at hb
    simp only [List.mem_cons, List.not_mem_nil, or_false] at hb
    rcases hb with hb | hb
    · rw [hb]
    · rw [hb]; decide
  · rw [SortedSet.zcard, tieRun_entries]; decide

theorem tag_ne {i : ℕ} {s : String} (h : s.toList.head? ≠ some 'n') : tag i ≠ s := by
  rintro rfl
  exact h (by simp [tag, List.replicate_succ])

theorem tag_not_mem_tieRun (i : ℕ) : tag i ∉ (tieRun.foldl record .start).log := by
  rw [tieRun_log]
  intro hmem
  simp only [List.mem_cons, List.not_mem_nil, or_false] at hmem
  exact hmem.elim (tag_ne (by decide)) (tag_ne (by decide))

theorem tag_not_mem_range (n : ℕ) : tag n ∉ (List.range n).map tag := by
  intro hmem
  obtain ⟨i, hi, he⟩ := List.mem_map.mp hmem
  have hlt := List.mem_range.mp hi
  exact absurd (tag_injective he) hlt.ne

def fillers (n : ℕ) : List (CorrelateArgs String) := (List.range n).map tagged

theorem fillers_ids (n : ℕ) : (fillers n).map CorrelateArgs.alertId = (List.range n).map tag := by
  simp [fillers, Function.comp_def, tagged]

theorem fillers_ne (n : ℕ) {a : CorrelateArgs String}
    (ha : .correlate a ∈ tieRun ++ (fillers n).map Call.correlate ++ [.correlate (tagged n)]) :
    a.alertId ≠ "" := by
  rcases List.mem_append.mp ha with ha | ha
  · rcases List.mem_append.mp ha with ha | ha
    · simp only [tieRun, List.mem_cons, Call.correlate.injEq, reduceCtorEq, List.not_mem_nil,
        or_false, false_or] at ha
      rcases ha with rfl | rfl | rfl <;> decide
    · obtain ⟨b, hb, hab⟩ := List.mem_map.mp ha
      cases hab
      obtain ⟨i, -, rfl⟩ := List.mem_map.mp hb
      exact tag_ne (by decide)
  · cases List.mem_singleton.mp ha
    exact tag_ne (by decide)

theorem mem_recent_fillers {n : ℕ} (hn : n + 2 = maxSeen) :
    "a" ∈ recent maxSeen (["c", "a"] ++ (List.range n).map tag ++ [tag n]) := by
  have hsplit : ["c", "a"] ++ (List.range n).map tag ++ [tag n] =
      ["c"] ++ ("a" :: ((List.range n).map tag ++ [tag n])) := by
    simp only [List.cons_append, List.nil_append]
  have hrecent : recent maxSeen (["c"] ++ ("a" :: ((List.range n).map tag ++ [tag n]))) =
      "a" :: ((List.range n).map tag ++ [tag n]) :=
    recent_append (by simp; omega)
  rw [hsplit, hrecent]
  exact List.mem_cons_self

/-- The set is filled up and one id more comes: the newer `a` is evicted and the older `c` stays. -/
theorem tied_id_evicted_first :
    ¬ ∀ run : List (Call String), (∀ a, .correlate a ∈ run → a.alertId ≠ "") →
      Always record Ledger.Fifo .start run := by
  intro h
  obtain ⟨n, hn⟩ : ∃ n, n + 2 = maxSeen := ⟨4998, rfl⟩
  have hseen : (tieRun.foldl record .start).keys.seen.members ⊆ (tieRun.foldl record .start).log := by
    decide
  have hcard : (tieRun.foldl record .start).keys.seen.zcard = 2 := by
    rw [SortedSet.zcard, tieRun_entries]; rfl
  have hfill : ∀ a ∈ fillers n, a.alertId ∉ (tieRun.foldl record .start).log ∧ a.alertId ≠ "" := by
    intro a ha
    obtain ⟨i, -, rfl⟩ := List.mem_map.mp ha
    exact ⟨tag_not_mem_tieRun i, tag_ne (by decide)⟩
  have hlength : (fillers n).length = n := by rw [fillers, List.length_map, List.length_range]
  obtain ⟨hleast, hlog, hfull, hsub⟩ := least_fill (fillers n) _ hseen tieRun_least
    (by rw [fillers_ids]; exact List.nodup_range.map tag_injective) hfill
    (by rw [hcard, hlength]; omega)
  rw [fillers_ids] at hlog
  have hlast := (h _ fun a => fillers_ne n).last
  rw [List.foldl_append, List.foldl_append, List.foldl_cons, List.foldl_nil] at hlast
  refine not_fifo_of_least hsub hleast ?_ (tag_ne (by decide)) ?_ ?_ hlast
  · rw [hlog]
    exact fun hmem => (List.mem_append.mp hmem).elim (tag_not_mem_tieRun n) (tag_not_mem_range n)
  · rw [hfull, hcard, hlength]
    omega
  · rw [hlog, tieRun_log]
    exact mem_recent_fillers hn

/-! ## Which call raises the incident

The script decides when a candidate is built at all: the first alert of a class, one more severe than
all before it in its class, the second alert, and every fifth. -/

def admittedCalls (rt : Runtime) (calls : List (CallEnv × Object)) : List (CorrelateArgs Object) :=
  admitted .none (sentArgs rt calls)

theorem classText_of_mem_alerts {ip : String} {calls : List (CallEnv × Object)}
    (hcalls : ∀ call ∈ calls, Served rt ip call) :
    ∀ b ∈ (window .none (sentArgs rt calls)).alerts, (b.get "threat_class").isStr = true := by
  intro b hb
  rw [window_alerts (Nat.zero_le _), Keys.none_alerts, List.append_nil] at hb
  obtain ⟨a, ha, rfl⟩ := List.mem_map.mp (List.mem_reverse.mp (List.mem_of_mem_take hb))
  obtain ⟨alert, halert, rfl⟩ := List.mem_map.mp (mem_of_mem_admitted ha)
  obtain ⟨call, hcall, rfl⟩ := List.mem_map.mp (List.mem_filter.mp halert).1
  exact (hcalls call hcall).classText

theorem incident_iff_gate (rt : Runtime) (ip : String) (c : Correlator)
    (calls : List (CallEnv × Object)) (env : CallEnv) (alert : Object) (q : ℚ)
    (hstart : c.store.keys ip = .none)
    (hcalls : ∀ call ∈ calls ++ [(env, alert)], Served rt ip call) (hsend : sendable alert = true)
    (hadm : refused (correlateArgs rt alert)
      ((addAlerts rt defaultThreshold c calls).store.keys ip) = false)
    (htwo : 2 ≤ ((addAlerts rt defaultThreshold c (calls ++ [(env, alert)])).store.keys ip).alerts.length)
    (hscore : calculateRiskScore rt
      ((addAlerts rt defaultThreshold c (calls ++ [(env, alert)])).store.keys ip).alerts = .ok (.fin q))
    (hq : defaultThreshold ≤ q) :
    (∃ i, (addAlert rt env alert defaultThreshold (addAlerts rt defaultThreshold c calls)).1 =
        .ok (some i)) ↔
      Gate (admittedCalls rt calls) (correlateArgs rt alert) := by
  have hall : ∀ call ∈ calls ++ [(env, alert)], Answered rt ip call := fun d hd =>
    (hcalls d hd).answered
  have hlast : Served rt ip (env, alert) := hcalls _ (List.mem_append_right _ List.mem_cons_self)
  have hkeys := addAlerts_keys defaultThreshold calls (fun d hd => hall d (List.mem_append_left _ hd)) c
  have hkeys' := addAlerts_keys defaultThreshold (calls ++ [(env, alert)]) hall c
  have hsent : sentArgs rt (calls ++ [(env, alert)]) = sentArgs rt calls ++ [correlateArgs rt alert] := by
    simp [sentArgs, hsend]
  rw [hstart] at hkeys hkeys'
  have hclass := classText_of_mem_alerts hcalls
  rw [hkeys'] at htwo hscore
  rw [hsent, window_append, window, window] at htwo hscore hclass
  rw [hkeys] at hadm
  have htotal := two_le_of_alerts hadm htwo
  have hsev : 0 < (correlateArgs rt alert).severityScore := by
    simp only [correlateArgs]
    exact sevScore_pos rt alert
  have hgate := incident_iff_of_window hsev hadm htotal
  rw [(addAlert_answered hlast.answered defaultThreshold _).1, runCorrelate_sendable hlast.link hsend]
  simp only [Store.correlate, hkeys]
  rw [admittedCalls, ← hgate]
  by_cases hi : (correlate (correlateArgs rt alert) (window .none (sentArgs rt calls))).1.incident = 1
  · simp only [hi, ↓reduceIte, iff_true, correlate_snapshot hadm hi]
    refine buildIncident_ok ?_ hclass hscore hq
    rintro he
    simp [he] at htwo
  · simp [hi]

def detected (id model : String) (conf : ℚ) : Object :=
  [("alert_id", .str id), ("source_ip", .str "10.0.0.5"), ("threat_class", .str "DDoS"),
    ("severity", .str "high"), ("model_name", .str model), ("confidence_score", .float (.fin conf))]

def upEnv : CallEnv := ⟨10, .ok (some "master"), .ok, "INC-1", 0, 0⟩

def coldStart : Correlator := ⟨.empty, 0⟩

def weakCalls : List (CallEnv × Object) :=
  [(upEnv, detected "ALT-1" "A" (3 / 10)), (upEnv, detected "ALT-2" "B" (3 / 10))]

theorem served_detected (id model : String) (conf : ℚ) :
    Served plainRuntime "10.0.0.5" (upEnv, detected id model conf) := by
  have hsrc : (detected id model conf).getD "source_ip" (.str "127.0.0.1") = .str "10.0.0.5" := by
    rfl
  refine ⟨rfl, rfl, ?_, by decide, rfl⟩
  simp only [sourceAddress, hsrc]
  decide

theorem served_weakCalls (a : Object) (ha : Served plainRuntime "10.0.0.5" (upEnv, a)) :
    ∀ call ∈ weakCalls ++ [(upEnv, a)], Served plainRuntime "10.0.0.5" call := by
  intro call hcall
  simp only [weakCalls, List.cons_append, List.nil_append, List.mem_cons, List.not_mem_nil,
    or_false] at hcall
  rcases hcall with rfl | rfl | rfl
  · exact served_detected _ _ _
  · exact served_detected _ _ _
  · exact ha

theorem incident_iff_gate_third :
    (∃ i, (addAlert plainRuntime upEnv (detected "ALT-3" "C" (9 / 10)) defaultThreshold
        (addAlerts plainRuntime defaultThreshold coldStart weakCalls)).1 = .ok (some i)) ↔
      Gate (admittedCalls plainRuntime weakCalls)
        (correlateArgs plainRuntime (detected "ALT-3" "C" (9 / 10))) :=
  incident_iff_gate plainRuntime "10.0.0.5" coldStart weakCalls upEnv _ (810 / 13) rfl
    (served_weakCalls _ (served_detected _ _ _)) rfl (by decide +kernel) (by decide +kernel)
    (by decide +kernel) (by norm_num [defaultThreshold])

/-- The third alert lifts the score of its window over 50, and no incident is raised. -/
theorem score_reached_without_incident :
    ¬ ∀ (rt : Runtime) (ip : String) (c : Correlator) (calls : List (CallEnv × Object))
      (env : CallEnv) (alert : Object) (q : ℚ), c.store.keys ip = .none →
      (∀ call ∈ calls ++ [(env, alert)], Served rt ip call) → sendable alert = true →
      refused (correlateArgs rt alert)
        ((addAlerts rt defaultThreshold c calls).store.keys ip) = false →
      2 ≤ ((addAlerts rt defaultThreshold c (calls ++ [(env, alert)])).store.keys ip).alerts.length →
      calculateRiskScore rt
        ((addAlerts rt defaultThreshold c (calls ++ [(env, alert)])).store.keys ip).alerts =
          .ok (.fin q) →
      defaultThreshold ≤ q →
      (∀ r ∈ addAlertResults rt defaultThreshold c calls, ∀ i, r ≠ .ok (some i)) →
      ∃ i, (addAlert rt env alert defaultThreshold (addAlerts rt defaultThreshold c calls)).1 =
        .ok (some i) := by
  intro h
  have hnone : addAlertResults plainRuntime defaultThreshold coldStart weakCalls =
      [.ok none, .ok none] := by decide +kernel
  have hthird : (addAlert plainRuntime upEnv (detected "ALT-3" "C" (9 / 10)) defaultThreshold
      (addAlerts plainRuntime defaultThreshold coldStart weakCalls)).1 = .ok none := by
    decide +kernel
  obtain ⟨i, hi⟩ := h plainRuntime "10.0.0.5" coldStart weakCalls upEnv
    (detected "ALT-3" "C" (9 / 10)) (810 / 13) rfl (served_weakCalls _ (served_detected _ _ _)) rfl
    (by decide +kernel) (by decide +kernel) (by decide +kernel) (by norm_num [defaultThreshold])
    (by rw [hnone]; simp)
  rw [hthird] at hi
  cases hi

/-! ## What an incident says -/

/-- The incident lists what its window holds. -/
structure Exact (rt : Runtime) (ip : String) (threshold : ℚ) (window : List Object) (alert : Object)
    (i : Incident) : Prop where
  relatedAlertIds : Lists i.relatedAlertIds fun y => y.truthy = true ∧ ∃ b ∈ window, b.get "alert_id" = y
  current : (alert.get "alert_id").truthy = true → Listed (alert.get "alert_id") i.relatedAlertIds
  threatClasses : Lists i.threatClasses fun y => y.truthy = true ∧ ∃ b ∈ window, b.get "threat_class" = y
  tactics : Lists i.tactics fun y => y.truthy = true ∧ ∃ b ∈ window, tacticOf b = y
  affectedEntities : Lists i.affectedEntities fun y =>
    y = .str ip ∨ y.truthy = true ∧ ∃ b ∈ window, b.get "destination_ip" = y
  severity : (∃ b ∈ window, severityWeight rt i.severity = severityWeight rt (severityOf b)) ∧
    ∀ b ∈ window, severityWeight rt (severityOf b) ≤ severityWeight rt i.severity
  riskScore : calculateRiskScore rt window = .ok i.riskScore
  reached : ∃ q, i.riskScore = .fin q ∧ threshold ≤ q

/-- What the incident lists of its window: an alert counts up to the first field that cannot be put into
a set, and a window without a class has that of the alert. -/
structure Described (rt : Runtime) (ip : String) (threshold : ℚ) (window : List Object)
    (alert : Object) (i : Incident) : Prop where
  relatedAlertIds : Lists i.relatedAlertIds fun y => y.truthy = true ∧
    ((∃ b ∈ window, destinationRead b = true ∧ b.get "alert_id" = y) ∨ alert.get "alert_id" = y)
  threatClasses : (∃ b ∈ window, classRead b = true ∧ (b.get "threat_class").truthy = true) →
    Lists i.threatClasses fun y => y.truthy = true ∧
      ∃ b ∈ window, classRead b = true ∧ b.get "threat_class" = y
  noClass : (∀ b ∈ window, classRead b = true → (b.get "threat_class").truthy = false) →
    i.threatClasses = [.str (threatClass rt alert)]
  tactics : Lists i.tactics fun y => y.truthy = true ∧ ∃ b ∈ window, allRead b = true ∧ tacticOf b = y
  affectedEntities : Lists i.affectedEntities fun y =>
    y = .str ip ∨ y.truthy = true ∧ ∃ b ∈ window, destinationRead b = true ∧ b.get "destination_ip" = y
  severity : (alert.lookup "severity").isSome = true →
    (∃ b ∈ window, (allRead b = true ∨ b = alert) ∧
      severityWeight rt i.severity = severityWeight rt (severityOf b)) ∧
    ∀ b ∈ window, allRead b = true ∨ b = alert →
      severityWeight rt (severityOf b) ≤ severityWeight rt i.severity
  riskScore : calculateRiskScore rt window = .ok i.riskScore
  reached : ∀ q, i.riskScore = .fin q → threshold ≤ q

theorem described_of_build {rt : Runtime} (hlower : ∀ s, rt.lower (rt.lower s) = rt.lower s)
    {ip : String} {env : CallEnv} {alert : Object} {threshold : ℚ} {rest : List Object} {i : Incident}
    (h : buildIncident rt env ip alert threshold (alert :: rest) = .ok (some i)) :
    Described rt ip threshold (alert :: rest) alert i := by
  obtain ⟨hscore, hlt, hentities, hclasses, htactics, hsev, hids⟩ := buildIncident_some h
  rw [gather_cons] at hscore hentities hclasses htactics hsev hids
  dsimp only at hscore hentities hclasses htactics hsev hids
  have hread := lists_selected classRead (fun b => b.get "threat_class") (alert :: rest)
  constructor
  · rw [hids]
    refine lists_congr (lists_appendNew (lists_selected _ _ _)) fun y => ?_
    rw [and_or_left, @eq_comm _ y]
  · rintro ⟨b, hb, hclass, ht⟩
    obtain ⟨y, hy, -⟩ := (hread.exactly _).mpr ⟨_, ⟨ht, b, hb, hclass, rfl⟩, sameKey_iff.mpr rfl⟩
    rw [hclasses, if_neg (List.ne_nil_of_mem hy)]
    exact hread
  · intro hno
    have hnil := hread.eq_nil (by
      rintro y ⟨ht, b, hb, hclass, rfl⟩
      rw [hno b hb hclass] at ht
      cases ht)
    rw [hclasses, if_pos hnil]
  · rw [htactics]
    exact lists_selected _ _ _
  · rw [hentities]
    exact lists_congr (lists_collect (lists_singleton (.str ip))) fun y =>
      or_congr_right (and_congr_right fun _ => mem_selected)
  · rw [hsev]
    exact severity_of_window hlower List.mem_cons_self
  · exact hscore
  · intro q hq
    rw [hq, PyFloat.lt_fin] at hlt
    exact not_lt.mp (of_decide_eq_false hlt)

/-- A window with nothing for the loop to stumble over. -/
structure Plain (rt : Runtime) (window : List Object) (alert : Object) : Prop where
  read : ∀ b ∈ window, allRead b = true
  classed : ∃ b ∈ window, (b.get "threat_class").truthy = true
  severity : (alert.lookup "severity").isSome = true
  scored : Scorable rt window

theorem allRead_iff {a : Object} :
    allRead a = true ↔ classRead a = true ∧ destinationRead a = true ∧ addable (tacticOf a) = true := by
  simp only [allRead, destinationRead, Bool.and_eq_true]
  tauto

theorem Described.exact {rt : Runtime} {ip : String} {threshold : ℚ} {window : List Object}
    {alert : Object} {i : Incident} (h : Described rt ip threshold window alert i)
    (hmem : alert ∈ window) (hp : Plain rt window alert) : Exact rt ip threshold window alert i := by
  have hclass : ∀ b ∈ window, classRead b = true := fun b hb => (allRead_iff.mp (hp.read b hb)).1
  have hdest : ∀ b ∈ window, destinationRead b = true := fun b hb => (allRead_iff.mp (hp.read b hb)).2.1
  obtain ⟨classed, hclassed, ht⟩ := hp.classed
  obtain ⟨hsev, hmax⟩ := h.severity hp.severity
  constructor
  · refine lists_congr h.relatedAlertIds fun y => and_congr_right fun _ => ?_
    constructor
    · rintro (⟨b, hb, -, hy⟩ | hy)
      · exact ⟨b, hb, hy⟩
      · exact ⟨alert, hmem, hy⟩
    · rintro ⟨b, hb, hy⟩
      exact .inl ⟨b, hb, hdest b hb, hy⟩
  · intro hid
    exact (h.relatedAlertIds.exactly _).mpr ⟨_, ⟨hid, .inr rfl⟩, sameKey_iff.mpr rfl⟩
  · refine lists_congr (h.threatClasses ⟨classed, hclassed, hclass _ hclassed, ht⟩) fun y => ?_
    refine and_congr_right fun _ => exists_congr fun b => and_congr_right fun hb => ?_
    rw [hclass b hb, eq_self, true_and]
  · refine lists_congr h.tactics fun y => ?_
    refine and_congr_right fun _ => exists_congr fun b => and_congr_right fun hb => ?_
    rw [hp.read b hb, eq_self, true_and]
  · refine lists_congr h.affectedEntities fun y => or_congr_right ?_
    refine and_congr_right fun _ => exists_congr fun b => and_congr_right fun hb => ?_
    rw [hdest b hb, eq_self, true_and]
  · obtain ⟨b, hb, -, heq⟩ := hsev
    exact ⟨⟨b, hb, heq⟩, fun b hb => hmax b hb (.inl (hp.read b hb))⟩
  · exact h.riskScore
  · have hscore := h.riskScore
    rw [hp.scored.score (List.ne_nil_of_mem hmem)] at hscore
    cases hr : i.riskScore with
    | fin q => exact ⟨q, rfl, h.reached q hr⟩
    | nan => rw [hr] at hscore; cases hscore
    | inf neg => rw [hr] at hscore; cases hscore

def keptWindow (ip : String) (c : Correlator) : List Object := (c.store.keys ip).alerts

theorem keptWindow_addAlerts {rt : Runtime} {ip : String} {c : Correlator} (threshold : ℚ)
    {calls : List (CallEnv × Object)} (hstart : c.store.keys ip = .none)
    (hcalls : ∀ call ∈ calls, Answered rt ip call) :
    keptWindow ip (addAlerts rt threshold c calls) =
      (((admittedCalls rt calls).map CorrelateArgs.alertJson).reverse).take maxKept := by
  rw [keptWindow, addAlerts_keys threshold calls hcalls c, hstart, window_alerts (Nat.zero_le _),
    Keys.none_alerts, List.append_nil]
  rfl

theorem addAlerts_append_singleton (rt : Runtime) (threshold : ℚ) (c : Correlator)
    (calls : List (CallEnv × Object)) (call : CallEnv × Object) :
    addAlerts rt threshold c (calls ++ [call]) =
      (addAlert rt call.1 call.2 threshold (addAlerts rt threshold c calls)).2 := by
  rw [addAlerts, List.foldl_append]
  rfl

/-- The window of a call that returns an incident, and what the incident says of it. -/
theorem incident_describes_window (rt : Runtime) (hlower : ∀ s, rt.lower (rt.lower s) = rt.lower s)
    (ip : String) (threshold : ℚ) (c : Correlator) (calls : List (CallEnv × Object)) (env : CallEnv)
    (alert : Object) (i : Incident) (hstart : c.store.keys ip = .none)
    (hcalls : ∀ call ∈ calls ++ [(env, alert)], Answered rt ip call)
    (hi : (addAlert rt env alert threshold (addAlerts rt threshold c calls)).1 = .ok (some i)) :
    keptWindow ip (addAlerts rt threshold c (calls ++ [(env, alert)])) =
        (((admittedCalls rt (calls ++ [(env, alert)])).map CorrelateArgs.alertJson).reverse).take maxKept ∧
      Described rt ip threshold (keptWindow ip (addAlerts rt threshold c (calls ++ [(env, alert)])))
        alert i ∧
      (Plain rt (keptWindow ip (addAlerts rt threshold c (calls ++ [(env, alert)]))) alert →
        Exact rt ip threshold (keptWindow ip (addAlerts rt threshold c (calls ++ [(env, alert)])))
          alert i) := by
  have hlast : Answered rt ip (env, alert) := hcalls _ (List.mem_append_right _ List.mem_cons_self)
  obtain ⟨rest, hkept, hbuild⟩ := addAlert_some hlast hi
  have hwindow : keptWindow ip (addAlerts rt threshold c (calls ++ [(env, alert)])) = alert :: rest := by
    rw [addAlerts_append_singleton]
    exact hkept
  have hdescribed := described_of_build hlower hbuild
  refine ⟨keptWindow_addAlerts threshold hstart hcalls, ?_, ?_⟩
  · rw [hwindow]
    exact hdescribed
  · rw [hwindow]
    exact hdescribed.exact List.mem_cons_self

theorem toLower_toLower (c : Char) : c.toLower.toLower = c.toLower := by
  by_cases h : c.val ≥ 'A'.val ∧ c.val ≤ 'Z'.val
  · have hl : c.toLower.val = c.val + ('a'.val - 'A'.val) := congrArg Char.val (dif_pos h)
    have hno : ¬ (c.toLower.val ≥ 'A'.val ∧ c.toLower.val ≤ 'Z'.val) := by
      rw [hl]
      simp only [ge_iff_le, UInt32.le_iff_toNat_le, Char.reduceVal, UInt32.reduceSub, UInt32.toNat_add,
        UInt32.reduceToNat] at h ⊢
      omega
    exact dif_neg hno
  · have hc : c.toLower = c := dif_neg h
    rw [hc, hc]

theorem plainRuntime_lower (s : String) :
    plainRuntime.lower (plainRuntime.lower s) = plainRuntime.lower s := by
  change (s.map Char.toLower).map Char.toLower = s.map Char.toLower
  rw [String.map_map]
  congr 1
  funext c
  exact toLower_toLower c

theorem answered_pair {a b : Object} (ha : Answered plainRuntime "10.0.0.5" (upEnv, a))
    (hb : Answered plainRuntime "10.0.0.5" (upEnv, b)) :
    ∀ call ∈ [(upEnv, a)] ++ [(upEnv, b)], Answered plainRuntime "10.0.0.5" call := by
  intro call hcall
  simp only [List.cons_append, List.nil_append, List.mem_cons, List.not_mem_nil, or_false] at hcall
  rcases hcall with rfl | rfl
  · exact ha
  · exact hb

def pairIncident (threat : String) (score : ℚ) : Incident where
  incidentId := "INC-1"
  sourceIp := "10.0.0.5"
  affectedEntities := [.str "10.0.0.5"]
  threatClasses := [.str threat]
  tactics := []
  highestRisk := .fin score
  severity := .str "high"
  riskScore := .fin score
  createdTimestamp := 0
  timestamp := 0
  status := "active"
  evidenceSummary := s!"Correlated 1 threat vector(s) ({threat}) across 2 alert(s) involving 10.0.0.5"
  relatedAlertIds := [.str "ALT-2", .str "ALT-1"]
  traceId := .null

theorem incident_describes_window_pair :
    Described plainRuntime "10.0.0.5" defaultThreshold
      (keptWindow "10.0.0.5" (addAlerts plainRuntime defaultThreshold coldStart
        ([(upEnv, detected "ALT-1" "A" (9 / 10))] ++ [(upEnv, detected "ALT-2" "B" (9 / 10))])))
      (detected "ALT-2" "B" (9 / 10)) (pairIncident "DDoS" (4050 / 41)) :=
  (incident_describes_window plainRuntime plainRuntime_lower "10.0.0.5" defaultThreshold coldStart
    [(upEnv, detected "ALT-1" "A" (9 / 10))] upEnv _ _ rfl
    (answered_pair (served_detected _ _ _).answered (served_detected _ _ _).answered)
    (by decide +kernel)).2.1

def unclassed (id : String) : Object :=
  [("alert_id", .str id), ("source_ip", .str "10.0.0.5"), ("severity", .str "high"),
    ("rule_id", .str "RULE_DDOS_CONN_RATE"), ("confidence_score", .float (.fin (9 / 10)))]

theorem answered_unclassed (id : String) :
    Answered plainRuntime "10.0.0.5" (upEnv, unclassed id) := by
  have hsrc : (unclassed id).getD "source_ip" (.str "127.0.0.1") = .str "10.0.0.5" := by
    rfl
  refine ⟨rfl, rfl, ?_, by decide⟩
  simp only [sourceAddress, hsrc]
  decide

/-- Two alerts without a class: the incident names a class that neither of them has. -/
theorem incident_names_unknown_class :
    ¬ ∀ (rt : Runtime) (ip : String) (threshold : ℚ) (c : Correlator) (calls : List (CallEnv × Object))
      (env : CallEnv) (alert : Object) (i : Incident), (∀ s, rt.lower (rt.lower s) = rt.lower s) →
      c.store.keys ip = .none →
      (∀ call ∈ calls ++ [(env, alert)], Answered rt ip call) →
      (addAlert rt env alert threshold (addAlerts rt threshold c calls)).1 = .ok (some i) →
      Exact rt ip threshold (keptWindow ip (addAlerts rt threshold c (calls ++ [(env, alert)])))
        alert i := by
  intro h
  have hexact := h plainRuntime "10.0.0.5" defaultThreshold coldStart [(upEnv, unclassed "ALT-1")] upEnv
    (unclassed "ALT-2") (pairIncident "unknown" 90) plainRuntime_lower rfl
    (answered_pair (answered_unclassed _) (answered_unclassed _)) (by decide +kernel)
  have hwindow : keptWindow "10.0.0.5" (addAlerts plainRuntime defaultThreshold coldStart
      ([(upEnv, unclassed "ALT-1")] ++ [(upEnv, unclassed "ALT-2")])) =
        [unclassed "ALT-2", unclassed "ALT-1"] := by decide +kernel
  obtain ⟨y, ⟨ht, b, hb, rfl⟩, -⟩ := (hexact.threatClasses.exactly (.str "unknown")).mp
    (listed_of_mem List.mem_cons_self)
  rw [hwindow] at hb
  simp only [List.mem_cons, List.not_mem_nil, or_false] at hb
  rcases hb with rfl | rfl <;> exact absurd ht (by decide)

end NeuralSoc.Correlation
