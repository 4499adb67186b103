import NeuralSoc.Stream.Lemmas.Detection
import NeuralSoc.Stream.Lemmas.Lookups
import NeuralSoc.Base.Runs
import Mathlib.Tactic.NormNum

/-!
# What becomes of a published alert, and of the stream
-/

namespace NeuralSoc.Stream

open Correlation

/-- The alert's CORRELATE was executed and no ROLLBACK of it came after. -/
def Kept (alert : Object) (scripts : List Script) : Prop :=
  ∃ pre post, scripts = pre ++ .correlate alert :: post ∧ .rollback alert ∉ post

/-- Between `w` and `w'` the alert was kept in the correlation window or handed to the DLQ. -/
def Accounted (alert : Object) (w w' : World) : Prop :=
  Kept alert (newScripts w w') ∨ ∃ error, .dlqSafely alert error ∈ newEvents w w'

/-- The alert published in an iteration is the one that is correlated. -/
theorem handled_of_published {rt : Runtime} {env : DetectionEnv} {event det alert : Object}
    {traceId : String} {w : World}
    (hpub : .alertPublished alert ∈ newEvents w (processDetection rt env event det traceId w)) :
    processDetection rt env event det traceId w =
      handleCorrelation rt env event alert (w.emit (.alertPublished alert)) := by
  rcases processDetection_cases rt env event det traceId w with
    ⟨-, payload, error, heq⟩ | ⟨alert', -, -, heq⟩
  · rw [heq, newEvents_of_append (sendDlqSafely_log env event payload error w)] at hpub
    exact absurd hpub (alertPublished_not_mem_dlqEvents env event payload error alert)
  · obtain ⟨es, hq⟩ := handleCorrelation_quiet rt env event alert' (w.emit (.alertPublished alert'))
    rw [heq] at hpub ⊢
    rw [newEvents_of_emit hq.log] at hpub
    rcases List.mem_cons.mp hpub with h | h
    · cases h; rfl
    · exact absurd h (hq.quiet alert)

/-- A published alert is accounted for exactly when `add_alert` is not cut short by the role check. -/
theorem published_accounted_iff (rt : Runtime) (env : DetectionEnv) (event det alert : Object)
    (traceId ip : String) (w : World) (haddr : sourceAddress rt alert = some ip)
    (hshort : ip.length ≤ 45)
    (hpub : .alertPublished alert ∈ newEvents w (processDetection rt env event det traceId w)) :
    Accounted alert w (processDetection rt env event det traceId w) ↔
      env.wait ≠ .inTime ∨ MasterAnswers env.call w.correlator := by
  rw [handled_of_published hpub]
  rcases correlateAlert_cases haddr hshort env (w.emit (.alertPublished alert)) with
    ⟨⟨hwait, hno⟩, heq⟩ | ⟨hyes, ⟨e, w', heq, hlog⟩ | ⟨w', es, heq, hq, hexec⟩⟩
  · have hend := handleCorrelation_ok event heq
    have hno' : ¬ MasterAnswers env.call w.correlator := hno
    rw [hend]
    simp [Accounted, Kept, newScripts, newEvents, World.emit, hwait, hno']
  · obtain ⟨w'', error, hend, hlog'⟩ := handleCorrelation_error event heq
    have hnew : newEvents w (handleCorrelation rt env event alert (w.emit (.alertPublished alert))) =
        .alertPublished alert :: (submitted env alert ++ dlqEvents env event alert error) :=
      newEvents_of_emit (by rw [hend, sendDlqSafely_log, hlog', hlog, List.append_assoc])
    refine iff_of_true (Or.inr ⟨error, ?_⟩) hyes
    rw [hnew]
    exact List.mem_cons_of_mem _ (List.mem_append_right _ List.mem_cons_self)
  · refine iff_of_true (Or.inl ⟨[], [], ?_, List.not_mem_nil⟩) hyes
    rw [handleCorrelation_ok event heq, newScripts, hexec]
    simp [World.emit]

/-! ## Redis is a replica -/

def replicaEnv : DetectionEnv where
  alertId := "ALT-1"
  timestamp := "2024-01-01T00:00:00+00:00"
  enrich := .ok
  validateAlert _ := .ok (true, "")
  alertSend := .ok ()
  wait := .inTime
  call := ⟨10, .ok (some "slave"), .ok, "INC-1", 0, 0⟩
  incidentSend := .ok ()
  sendRollback := .ok .ok
  timeoutRollback := .ok .ok
  dlqSend := .ok ()
  dlqTimestamp := "2024-01-01T00:00:00+00:00"

def sampleEvent : Object := [("id.orig_h", .str "10.0.0.5"), ("event_type", .str "conn")]

def sampleDetection : Object :=
  [("threat_class", .str "DDoS"), ("severity", .str "critical"), ("confidence", .float (.fin (19 / 20))),
    ("rule_id", .str "RULE_DDOS_CONN_RATE")]

def freshWorld : World := ⟨⟨.empty, 0⟩, []⟩

def publishedSample : Object :=
  [("alert_id", .str "ALT-1"), ("timestamp", .str "2024-01-01T00:00:00+00:00"),
    ("source_ip", .str "10.0.0.5"), ("destination_ip", .str "127.0.0.1"),
    ("threat_class", .str "DDoS"), ("severity", .str "critical"),
    ("confidence_score", .float (.fin (19 / 20))), ("evidence", .obj []),
    ("event_type", .str "conn"), ("schema_version", .str "1.0"),
    ("model_name", .str "RULE_DDOS_CONN_RATE"), ("model_version", .str "1.0"),
    ("mitre_tactic", .null), ("mitre_technique", .null), ("trace_id", .str "trc-1")]

theorem replica_log :
    (processDetection plainRuntime replicaEnv sampleEvent sampleDetection "trc-1" freshWorld).log =
      [.alertPublished publishedSample, .addAlert publishedSample] := by decide +kernel

theorem replica_scripts :
    (processDetection plainRuntime replicaEnv sampleEvent sampleDetection "trc-1"
      freshWorld).correlator.store.executed = [] := by decide +kernel

theorem replica_published :
    .alertPublished publishedSample ∈ newEvents freshWorld
      (processDetection plainRuntime replicaEnv sampleEvent sampleDetection "trc-1" freshWorld) := by
  rw [newEvents, replica_log]
  exact List.mem_cons_self

theorem published_accounted_iff_replica :
    Accounted publishedSample freshWorld
        (processDetection plainRuntime replicaEnv sampleEvent sampleDetection "trc-1" freshWorld) ↔
      replicaEnv.wait ≠ .inTime ∨ MasterAnswers replicaEnv.call freshWorld.correlator :=
  published_accounted_iff plainRuntime replicaEnv sampleEvent sampleDetection publishedSample "trc-1"
    "10.0.0.5" freshWorld (by decide) (by decide) replica_published

/-- The alert is published and nothing else happens to it. -/
theorem replica_loses_alert :
    ¬ ∀ (rt : Runtime) (env : DetectionEnv) (event det alert : Object) (traceId ip : String)
      (w : World), sourceAddress rt alert = some ip → ip.length ≤ 45 →
      .alertPublished alert ∈ newEvents w (processDetection rt env event det traceId w) →
      Accounted alert w (processDetection rt env event det traceId w) := by
  intro h
  have hacc := h plainRuntime replicaEnv sampleEvent sampleDetection publishedSample "trc-1" "10.0.0.5"
    freshWorld (by decide) (by decide) replica_published
  rcases hacc with ⟨pre, post, hscripts, -⟩ | ⟨error, herror⟩
  · rw [newScripts, replica_scripts] at hscripts
    simp at hscripts
  · rw [newEvents, replica_log] at herror
    simp [freshWorld] at herror

/-! ## The detections of an event -/

/-- Whatever happens in the iterations before it and in its own, a detection is disposed of, and the later
ones are processed from where it left off. -/
theorem detections_disposed (rt : EventRuntime) (env : EventEnv) (event : Object) (s : Coroutine)
    (pre post : List Object) (det : Object) :
    Disposed rt.toRuntime (env.detection pre.length) event det (eventTraceId rt env event)
        (emitFrom rt env event pre 0 s.world) ∧
      (emitAlerts rt env event { s with detections := pre ++ det :: post }).2.world =
        emitFrom rt env event post (pre.length + 1)
          (processDetection rt.toRuntime (env.detection pre.length) event det (eventTraceId rt env event)
            (emitFrom rt env event pre 0 s.world)) := by
  refine ⟨disposed _ _ _ _ _ _, ?_⟩
  have hemit : (emitAlerts rt env event { s with detections := pre ++ det :: post }).2.world =
      emitFrom rt env event (pre ++ det :: post) 0 s.world := rfl
  rw [hemit, emitFrom_append, emitFrom_cons, Nat.zero_add]

def unenrichedEnv : DetectionEnv := { replicaEnv with enrich := fun _ => .error ⟨.other, "no route to host"⟩ }

/-- An enrichment that raises is answered by going on with the alert as it was. -/
theorem failed_enrichment_not_dead_lettered :
    ¬ ∀ (rt : Runtime) (env : DetectionEnv) (event det : Object) (traceId : String) (w : World),
      (StepFailed rt env event det traceId w ∨
        ∃ raw e, rawAlert rt env event det traceId = .ok raw ∧ env.enrich raw = .error e) →
      (newEvents w (processDetection rt env event det traceId w)).countP isDlqCall = 1 := by
  intro h
  have hraw : rawAlert plainRuntime unenrichedEnv sampleEvent sampleDetection "trc-1" =
      .ok publishedSample := by decide +kernel
  have hcount := h plainRuntime unenrichedEnv sampleEvent sampleDetection "trc-1" freshWorld
    (Or.inr ⟨_, _, hraw, rfl⟩)
  revert hcount
  decide +kernel

/-! ## Events that stop the stream -/

def Survives (rt : EventRuntime) (w : World) (stream : List Delivery) : Prop :=
  (processTraffic rt w stream).raised = none ∧
    (processTraffic rt w stream).outcomes.length = stream.length

instance (rt : EventRuntime) (w : World) (stream : List Delivery) : Decidable (Survives rt w stream) :=
  inferInstanceAs (Decidable (_ ∧ _))

/-- The stream survives exactly when the first DNS event whose features can be extracted completes its
inference: that one binds `is_dga` for all later ones. -/
theorem stream_survives_iff (rt : EventRuntime) (w : World) (stream : List Delivery) :
    Survives rt w stream ↔
      ∀ d, stream.find? (readsIsDga rt) = some d → infersInTime rt d = true := by
  have hrun : Survives rt w stream ↔ SurvivesFrom rt (freshAgent w) stream := by
    rw [SurvivesFrom, freshAgent, List.length_nil, Nat.zero_add]
    exact Iff.rfl
  rw [hrun]
  exact survivesFrom_iff_of_unbound rfl rfl

/-- A runtime for lower-case ASCII texts of one repeated character. -/
def plainEventRuntime : EventRuntime where
  toRuntime := { plainRuntime with lower := id }
  intOfStr := String.toInt?
  isDigit n := 48 ≤ n && n ≤ 57
  log2 _ := 0
  lowerLone := id

def quietEnv : EventEnv where
  fingerprints := []
  predict _ _ := .ok (false, .fin 0)
  lookupAgeDays _ := .ok none
  recordQuery _ _ := .ok ()
  isBurst _ := .ok (false, none, [])
  score _ _ _ _ := .ok (false, .fin 0, 1)
  now := 0
  recordConnection _ _ _ _ := .ok ()
  isDdosVolumetric _ _ _ := .ok (false, [])
  isC2Beacon _ _ _ := .ok (false, [])
  isBulkExfil _ _ _ := .ok (false, [])
  recordResponse _ _ := .ok ()
  traceparent := none
  freshTraceId := "trc-0123456789abcdef"
  detection _ := replicaEnv

def missingQuery : List Delivery :=
  [⟨[("event_type", .str "dns"), ("id.orig_h", .str "10.0.0.5")], quietEnv⟩, ⟨sampleEvent, quietEnv⟩]

def timedOutInference : List Delivery :=
  [⟨[("event_type", .str "dns"), ("query", .str "aa")],
      { quietEnv with predict := fun _ _ => .error ⟨.timeoutError, ""⟩ }⟩,
    ⟨sampleEvent, quietEnv⟩]

theorem unbound_is_dga_stops_stream :
    ¬Survives plainEventRuntime freshWorld missingQuery ∧
      ¬Survives plainEventRuntime freshWorld timedOutInference := by
  decide +kernel

/-! ## Domain-age lookups -/

/-- In every run the lookups are made for flagged queries only, exactly when no event finds a stale flag.
Another history changes the lookups of an event exactly when one of the two leaves it a stale flag. -/
theorem lookups_flagged_iff (rt : EventRuntime) (w w' : World) (stream stream' : List Delivery)
    (d : Delivery) :
    (Each (deliver rt) (LookupsFlagged rt) (freshAgent w) stream ↔
        Each (deliver rt) (fun a d => ¬ StaleFlag rt a d) (freshAgent w) stream) ∧
      ((processTraffic rt w stream).raised = none → (processTraffic rt w' stream').raised = none →
        (lookupsMade rt (processTraffic rt w stream) d = lookupsMade rt (processTraffic rt w' stream') d ↔
          (StaleFlag rt (processTraffic rt w stream) d ↔ StaleFlag rt (processTraffic rt w' stream') d))) := by
  refine ⟨⟨?_, ?_⟩, lookupsMade_congr_iff⟩
  · exact Each.mono fun a d => (lookupsFlagged_iff a d).mp
  · exact Each.mono fun a d => (lookupsFlagged_iff a d).mpr

/-- The query of the first event is flagged, the inference of the second one runs out of time. -/
def flaggedBefore : List Delivery :=
  [⟨[("event_type", .str "dns"), ("query", .str "aa")],
      { quietEnv with predict := fun _ _ => .ok (true, .fin (9 / 10)) }⟩,
    ⟨[("event_type", .str "dns"), ("query", .str "bb")],
      { quietEnv with predict := fun _ _ => .error ⟨.timeoutError, ""⟩ }⟩]

/-- The age of a domain is looked up that no inference has flagged. -/
theorem stale_flag_looks_up :
    ¬ ∀ (rt : EventRuntime) (w : World) (stream : List Delivery),
      Each (deliver rt) (LookupsFlagged rt) (freshAgent w) stream := by
  intro h
  have hsecond := (h plainEventRuntime freshWorld flaggedBefore).2.1
  have hlook : .str "bb" ∈ lookupsMade plainEventRuntime
      (processTraffic plainEventRuntime freshWorld (flaggedBefore.take 1)) flaggedBefore[1] := by
    decide +kernel
  have hverdict := (hsecond _ hlook).2
  revert hverdict
  decide +kernel

end NeuralSoc.Stream
