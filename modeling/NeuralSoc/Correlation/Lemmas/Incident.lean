import NeuralSoc.Correlation.Correlator
import NeuralSoc.Correlation.Lemmas.Window

/-!
# add_alert while Redis answers

A run of `add_alert` calls on one source is a run of CORRELATE on its keys, and a call whose flag is
set builds its incident from the kept alerts.
-/

namespace NeuralSoc.Correlation

variable {rt : Runtime} {ip : String}

/-- Redis answers as the master, the alert is on the source, and its class is a text, which
`validate_alert` checks before the call. -/
structure Served (rt : Runtime) (ip : String) (call : CallEnv × Object) : Prop where
  link : call.1.link = .ok
  master : call.1.info = .ok (some "master")
  address : sourceAddress rt call.2 = some ip
  short : ip.length ≤ 45
  classText : (call.2.get "threat_class").isStr = true

structure Answered (rt : Runtime) (ip : String) (call : CallEnv × Object) : Prop where
  link : call.1.link = .ok
  master : call.1.info = .ok (some "master")
  address : sourceAddress rt call.2 = some ip
  short : ip.length ≤ 45

theorem Served.answered {call : CallEnv × Object} (h : Served rt ip call) : Answered rt ip call :=
  ⟨h.link, h.master, h.address, h.short⟩

/-- The id can be sent to Redis. -/
def sendable (alert : Object) : Bool :=
  match alert.get "alert_id" with
  | .lone _ => false
  | _ => true

def addAlerts (rt : Runtime) (threshold : ℚ) (c : Correlator) (calls : List (CallEnv × Object)) :
    Correlator :=
  calls.foldl (fun c call => (addAlert rt call.1 call.2 threshold c).2) c

def addAlertResults (rt : Runtime) (threshold : ℚ) :
    Correlator → List (CallEnv × Object) → List (Except Exc (Option Incident))
  | _, [] => []
  | c, call :: calls =>
      (addAlert rt call.1 call.2 threshold c).1 ::
        addAlertResults rt threshold (addAlert rt call.1 call.2 threshold c).2 calls

/-- The arguments that reach CORRELATE. -/
def sentArgs (rt : Runtime) (calls : List (CallEnv × Object)) : List (CorrelateArgs Object) :=
  ((calls.map Prod.snd).filter sendable).map (correlateArgs rt)

/-! ## One call -/

theorem checkRedisMaster_master (now : ℚ) (c : Correlator) :
    ∃ c', checkRedisMaster now (.ok (some "master")) c = (.ok true, c') ∧ c'.store = c.store := by
  unfold checkRedisMaster
  split
  · exact ⟨c, rfl, rfl⟩
  · exact ⟨{ c with lastMasterCheck := now }, rfl, rfl⟩

theorem addAlert_answered {call : CallEnv × Object} (h : Answered rt ip call) (threshold : ℚ)
    (c : Correlator) :
    (addAlert rt call.1 call.2 threshold c).1 =
        (runCorrelate rt call.1 ip call.2 threshold c.store).1 ∧
      (addAlert rt call.1 call.2 threshold c).2.store =
        (runCorrelate rt call.1 ip call.2 threshold c.store).2 := by
  obtain ⟨c', hcheck, hstore⟩ := checkRedisMaster_master call.1.now c
  simp only [addAlert, h.master, hcheck, h.address, not_lt.mpr h.short, ↓reduceIte, hstore, and_self]

theorem runCorrelate_sendable {env : CallEnv} {alert : Object} (hlink : env.link = .ok)
    (hsend : sendable alert = true) (threshold : ℚ) (s : Store) :
    runCorrelate rt env ip alert threshold s =
      (if (s.correlate rt ip alert).1.incident = 1 then
          buildIncident rt env ip alert threshold (s.correlate rt ip alert).1.alertsSnapshot
        else .ok none, (s.correlate rt ip alert).2) := by
  unfold runCorrelate
  unfold sendable at hsend
  cases hid : alert.get "alert_id" with
  | lone units => simp [hid] at hsend
  | _ =>
      simp only [hlink]
      split <;> rfl

theorem runCorrelate_unsendable {env : CallEnv} {alert : Object} (hsend : sendable alert = false)
    (threshold : ℚ) (s : Store) : (runCorrelate rt env ip alert threshold s).2 = s := by
  unfold runCorrelate
  unfold sendable at hsend
  cases hid : alert.get "alert_id" with
  | lone units => rfl
  | _ => simp [hid] at hsend

theorem addAlert_keys {call : CallEnv × Object} (h : Answered rt ip call) (threshold : ℚ)
    (c : Correlator) :
    (addAlert rt call.1 call.2 threshold c).2.store.keys ip =
      window (c.store.keys ip) (sentArgs rt [call]) := by
  rw [(addAlert_answered h threshold c).2]
  cases hsend : sendable call.2 with
  | true =>
      rw [runCorrelate_sendable h.link hsend]
      simp [Store.correlate, sentArgs, hsend, window]
  | false =>
      rw [runCorrelate_unsendable hsend]
      simp [sentArgs, hsend, window]

theorem sentArgs_cons (call : CallEnv × Object) (calls : List (CallEnv × Object)) :
    sentArgs rt (call :: calls) = sentArgs rt [call] ++ sentArgs rt calls := by
  simp only [sentArgs, List.map_cons, List.map_nil, List.filter_cons, List.filter_nil]
  split <;> rfl

theorem addAlerts_keys (threshold : ℚ) (calls : List (CallEnv × Object))
    (h : ∀ call ∈ calls, Answered rt ip call) (c : Correlator) :
    (addAlerts rt threshold c calls).store.keys ip =
      window (c.store.keys ip) (sentArgs rt calls) := by
  induction calls generalizing c with
  | nil => rfl
  | cons call calls ih =>
      have hrest : ∀ call ∈ calls, Answered rt ip call := fun d hd => h d (List.mem_cons_of_mem _ hd)
      rw [sentArgs_cons, window_append, ← addAlert_keys (h call List.mem_cons_self) threshold]
      exact ih hrest _

theorem sevScore_pos (rt : Runtime) (alert : Object) : 0 < sevScore rt alert := by
  unfold sevScore sevWeights
  split
  · decide
  · split
    · decide
    · split
      · decide
      · split <;> decide

/-! ## Building the incident -/

theorem absorb_fields (w : Window) (a : Object) :
    (w.absorb rt a).parsedAlerts = w.parsedAlerts ++ [a] ∧
      (w.absorb rt a).threatClasses =
        (addTruthy (a.get "threat_class") w.threatClasses).getD w.threatClasses := by
  unfold Window.absorb
  dsimp only
  split
  · rename_i htc; simp only [htc, Option.getD_none, and_self]
  · rename_i tcs htc
    rw [htc]
    split
    · exact ⟨rfl, rfl⟩
    · split
      · exact ⟨rfl, rfl⟩
      · exact ⟨rfl, rfl⟩

theorem foldl_absorb_parsedAlerts (snapshot : List Object) (w : Window) :
    (snapshot.foldl (Window.absorb rt) w).parsedAlerts = w.parsedAlerts ++ snapshot := by
  induction snapshot generalizing w with
  | nil => simp
  | cons a as ih => rw [List.foldl_cons, ih, (absorb_fields w a).1]; simp

theorem addTruthy_isStr {x : Json} {s : List Json} (hx : x.isStr = true)
    (hs : ∀ t ∈ s, t.isStr = true) : ∀ t ∈ (addTruthy x s).getD s, t.isStr = true := by
  unfold addTruthy
  split
  · exact hs
  · split
    · exact hs
    · split
      · exact hs
      · intro t ht
        rcases List.mem_append.mp ht with ht | ht
        · exact hs t ht
        · rw [List.mem_singleton.mp ht]; exact hx

theorem foldl_absorb_isStr (rt : Runtime) (snapshot : List Object) (w : Window)
    (h : ∀ a ∈ snapshot, (a.get "threat_class").isStr = true)
    (hw : ∀ t ∈ w.threatClasses, t.isStr = true) :
    ∀ t ∈ (snapshot.foldl (Window.absorb rt) w).threatClasses, t.isStr = true := by
  induction snapshot generalizing w with
  | nil => exact hw
  | cons a as ih =>
      apply ih _ fun b hb => h b (List.mem_cons_of_mem _ hb)
      rw [(absorb_fields w a).2]
      exact addTruthy_isStr (h a List.mem_cons_self) hw

theorem evidenceSummary_ok (rt : Runtime) (ip : String) {w : Window}
    (h : ∀ t ∈ w.threatClasses, t.isStr = true) :
    ∃ text, evidenceSummary rt ip w = .ok text := by
  have hall : w.threatClasses.all Json.isStr = true := List.all_eq_true.mpr h
  simp only [evidenceSummary, joinThreats, hall, ↓reduceIte]
  exact ⟨_, rfl⟩

theorem buildIncident_ok {env : CallEnv} {alert : Object} {threshold q : ℚ} {snapshot : List Object}
    (hne : snapshot ≠ []) (hclass : ∀ a ∈ snapshot, (a.get "threat_class").isStr = true)
    (hscore : calculateRiskScore rt snapshot = .ok (.fin q)) (hq : threshold ≤ q) :
    ∃ i, buildIncident rt env ip alert threshold snapshot = .ok (some i) := by
  have hparsed : (gather rt ip alert snapshot).parsedAlerts = snapshot := by
    simp only [gather, Window.finish, foldl_absorb_parsedAlerts, Window.start, List.nil_append, hne,
      ↓reduceIte]
  have htexts : ∀ t ∈ (gather rt ip alert snapshot).threatClasses, t.isStr = true := by
    have hw := foldl_absorb_isStr rt snapshot (.start ip alert) hclass nofun
    simp only [gather, Window.finish]
    split
    · intro t ht
      rw [List.mem_singleton.mp ht]; rfl
    · exact hw
  obtain ⟨text, htext⟩ := evidenceSummary_ok rt ip htexts
  have hlt : (PyFloat.fin q).lt (.fin threshold) = false := by
    rw [PyFloat.lt_fin]; simpa using hq
  simp only [buildIncident, hparsed, hscore, htext, bind, Except.bind, hlt, Bool.false_eq_true,
    ↓reduceIte, pure, Except.pure]
  exact ⟨_, rfl⟩

end NeuralSoc.Correlation
