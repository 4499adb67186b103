import NeuralSoc.Stream.Detection

/-!
# The exits of one detection

Every function of the loop body gets one lemma that lists its outcomes. What happened during an
iteration is what the world after it has logged more than the world before.
-/

namespace NeuralSoc.Stream

open Correlation

variable {rt : Runtime} {env : DetectionEnv} {event det alert : Object} {w w' : World}

def newEvents (w w' : World) : List Event := w'.log.drop w.log.length

def newScripts (w w' : World) : List Script :=
  w'.correlator.store.executed.drop w.correlator.store.executed.length

theorem newEvents_of_append {es : List Event} (h : w'.log = w.log ++ es) : newEvents w w' = es := by
  simp [newEvents, h]

theorem newEvents_of_emit {e : Event} {es : List Event} (h : w'.log = (w.emit e).log ++ es) :
    newEvents w w' = e :: es :=
  newEvents_of_append (by rw [h, World.emit, List.append_assoc]; rfl)

/-- The events added since `w` publish no alert. -/
structure Quiet (w w' : World) (es : List Event) : Prop where
  log : w'.log = w.log ++ es
  quiet : ∀ a, Event.alertPublished a ∉ es

/-- A call that is not cut short by the role check. -/
def MasterAnswers (call : CallEnv) (c : Correlator) : Prop :=
  call.now - c.lastMasterCheck < masterCheckInterval ∨ call.info = .ok (some "master") ∨
    ∃ e, call.info = .error e ∧ e.cls ≠ .redisError

/-! ## The dead-letter queue and the rollback -/

/-- The call and where the payload went. -/
def dlqEvents (env : DetectionEnv) (event alert : Object) (error : String) : List Event :=
  [.dlqSafely alert error,
    match env.dlqSend with
    | .ok _ => .deadLetter (dlqPayload env event alert error)
    | .error _ => .localFile (dlqPayload env event alert error)]

theorem sendDlqSafely_log (env : DetectionEnv) (event alert : Object) (error : String) (w : World) :
    (sendDlqSafely env event alert error w).log = w.log ++ dlqEvents env event alert error := by
  unfold sendDlqSafely dlqEvents
  cases env.dlqSend with
  | ok u => exact List.append_assoc ..
  | error e => exact List.append_assoc ..

theorem alertPublished_not_mem_dlqEvents (env : DetectionEnv) (event alert : Object) (error : String)
    (a : Object) : .alertPublished a ∉ dlqEvents env event alert error := by
  unfold dlqEvents
  cases env.dlqSend <;> simp

theorem dispatchRollback_log (outcome : Except Exc Link) (alert : Object) (w : World) :
    (dispatchRollback rt outcome alert w).log = w.log := by
  cases outcome with
  | ok link => rfl
  | error e => rfl

theorem runLate_log (rt : Runtime) (env : DetectionEnv) (alert : Object) (w : World) :
    (runLate rt env alert w).log = w.log := by
  unfold runLate
  split
  · rfl
  · rfl

/-! ## add_alert -/

theorem checkRedisMaster_cases (call : CallEnv) (c : Correlator) :
    ¬ MasterAnswers call c ∧ checkRedisMaster call.now call.info c = (.ok false, c) ∨
    MasterAnswers call c ∧ ∃ r c', checkRedisMaster call.now call.info c = (r, c') ∧
      r ≠ .ok false ∧ c'.store = c.store := by
  unfold checkRedisMaster MasterAnswers
  split
  · rename_i hcached
    exact Or.inr ⟨Or.inl hcached, .ok true, c, rfl, by simp, rfl⟩
  · rename_i hstale
    cases hinfo : call.info with
    | ok role =>
        by_cases hrole : role = some "master"
        · exact Or.inr ⟨Or.inr (Or.inl (by rw [hrole])), .ok true, { c with lastMasterCheck := call.now },
            by simp [hrole], by simp, rfl⟩
        · exact Or.inl ⟨by simp [hstale, hrole], by simp [hrole]⟩
    | error e =>
        by_cases hcls : e.cls = .redisError
        · exact Or.inl ⟨by simp [hstale, hcls], by simp [hcls]⟩
        · exact Or.inr ⟨Or.inr (Or.inr ⟨e, rfl, hcls⟩), .error e, c, by simp [hcls], by simp, rfl⟩

/-- A call that returns has executed CORRELATE, unless the role check cut it short. -/
theorem addAlert_cases {ip : String} (haddr : sourceAddress rt alert = some ip)
    (hshort : ip.length ≤ 45) (call : CallEnv) (threshold : ℚ) (c : Correlator) :
    ¬ MasterAnswers call c ∧ addAlert rt call alert threshold c = (.ok none, c) ∨
    MasterAnswers call c ∧ ∃ r c', addAlert rt call alert threshold c = (r, c') ∧
      ((∃ e, r = .error e) ∨ c'.store.executed = c.store.executed ++ [.correlate alert]) := by
  rcases checkRedisMaster_cases call c with ⟨hno, hcheck⟩ | ⟨hyes, r, c', hcheck, hr, hstore⟩
  · exact Or.inl ⟨hno, by simp only [addAlert, hcheck]⟩
  · obtain ⟨r', c'', hadd⟩ : ∃ r' c'', addAlert rt call alert threshold c = (r', c'') := ⟨_, _, rfl⟩
    refine Or.inr ⟨hyes, r', c'', hadd, ?_⟩
    unfold addAlert at hadd
    rw [hcheck] at hadd
    cases r with
    | error e =>
        cases hadd
        exact Or.inl ⟨e, rfl⟩
    | ok master =>
        cases master with
        | false => exact absurd rfl hr
        | true =>
            simp only [haddr, not_lt.mpr hshort, ↓reduceIte, hstore] at hadd
            unfold runCorrelate at hadd
            split at hadd
            · cases hadd
              exact Or.inl ⟨_, rfl⟩
            · cases hadd
              exact Or.inl ⟨_, rfl⟩
            · cases hadd
              exact Or.inl ⟨_, rfl⟩
            · dsimp only at hadd
              split at hadd
              · cases hadd
                exact Or.inr rfl
              · cases hadd
                exact Or.inr rfl

/-! ## Correlation -/

def submitted (env : DetectionEnv) (alert : Object) : List Event :=
  match env.wait with
  | .refused _ => []
  | _ => [.addAlert alert]

theorem awaitAddAlert_log (rt : Runtime) (env : DetectionEnv) (alert : Object) (w : World) :
    (awaitAddAlert rt env alert w).2.log = w.log ++ submitted env alert := by
  unfold awaitAddAlert submitted
  cases env.wait with
  | inTime => rfl
  | refused e => exact (List.append_nil _).symm
  | timedOut s => cases s <;> rfl

theorem correlateAlert_of_none (h : awaitAddAlert rt env alert w = (.ok none, w')) :
    correlateAlert rt env alert w = (.ok (), w') := by
  simp only [correlateAlert, h]

theorem correlateAlert_of_error {e : Exc} (h : awaitAddAlert rt env alert w = (.error e, w')) :
    correlateAlert rt env alert w = (.error e, w') := by
  simp only [correlateAlert, h]

theorem correlateAlert_of_some {incident : Incident}
    (h : awaitAddAlert rt env alert w = (.ok (some incident), w')) :
    correlateAlert rt env alert w = sendIncident rt env alert incident w' := by
  simp only [correlateAlert, h]

/-- The correlation raises before or in the sending of an incident, or it sends all there is to send. -/
theorem correlateAlert_log (rt : Runtime) (env : DetectionEnv) (alert : Object) (w : World) :
    (∃ e w', correlateAlert rt env alert w = (.error e, w') ∧ w'.log = w.log ++ submitted env alert) ∨
      ∃ w' incident, correlateAlert rt env alert w = (.ok (), w') ∧
        w'.log = w.log ++ (submitted env alert ++ (Option.toList incident).map .incidentPublished) := by
  have hlog := awaitAddAlert_log rt env alert w
  rcases hadd : awaitAddAlert rt env alert w with ⟨r, w'⟩
  rw [hadd] at hlog
  cases r with
  | error e => exact Or.inl ⟨e, w', correlateAlert_of_error hadd, hlog⟩
  | ok incident =>
      cases incident with
      | none =>
          refine Or.inr ⟨w', none, correlateAlert_of_none hadd, hlog.trans ?_⟩
          simp
      | some incident =>
          rw [correlateAlert_of_some hadd]
          unfold sendIncident
          cases env.incidentSend with
          | ok u =>
              have hlog : w'.log = w.log ++ submitted env alert := hlog
              refine Or.inr ⟨_, some incident, rfl, ?_⟩
              rw [World.emit, hlog, List.append_assoc]
              rfl
          | error e => exact Or.inl ⟨e, _, rfl, (dispatchRollback_log _ _ _).trans hlog⟩

theorem alertPublished_not_mem_submitted (env : DetectionEnv) (alert a : Object) :
    .alertPublished a ∉ submitted env alert := by
  unfold submitted
  split <;> simp

theorem quiet_of_correlated {incident : Option Incident}
    (h : w'.log = w.log ++ (submitted env alert ++ incident.toList.map .incidentPublished)) :
    Quiet w w' (submitted env alert ++ incident.toList.map .incidentPublished) := by
  refine ⟨h, fun a ha => ?_⟩
  rcases List.mem_append.mp ha with ha | ha
  · exact alertPublished_not_mem_submitted env alert a ha
  · simp at ha

/-- The three ways the correlation of an alert ends: with an exception, with its script executed, or
cut short by the role check. -/
theorem correlateAlert_cases {ip : String} (haddr : sourceAddress rt alert = some ip)
    (hshort : ip.length ≤ 45) (env : DetectionEnv) (w : World) :
    (env.wait = .inTime ∧ ¬ MasterAnswers env.call w.correlator) ∧
      correlateAlert rt env alert w = (.ok (), w.emit (.addAlert alert)) ∨
    (env.wait ≠ .inTime ∨ MasterAnswers env.call w.correlator) ∧
      ((∃ e w', correlateAlert rt env alert w = (.error e, w') ∧
          w'.log = w.log ++ submitted env alert) ∨
        ∃ w' es, correlateAlert rt env alert w = (.ok (), w') ∧ Quiet w w' es ∧
          w'.correlator.store.executed = w.correlator.store.executed ++ [.correlate alert]) := by
  have hlog := awaitAddAlert_log rt env alert w
  cases hwait : env.wait with
  | refused e =>
      have hadd : awaitAddAlert rt env alert w = (.error e, w) := by simp only [awaitAddAlert, hwait]
      rw [hadd] at hlog
      exact Or.inr ⟨Or.inl nofun, Or.inl ⟨e, w, correlateAlert_of_error hadd, hlog⟩⟩
  | timedOut s =>
      obtain ⟨w', hadd⟩ : ∃ w', awaitAddAlert rt env alert w = (.error ⟨.timeoutError, ""⟩, w') := by
        unfold awaitAddAlert
        rw [hwait]
        cases s <;> exact ⟨_, rfl⟩
      rw [hadd] at hlog
      exact Or.inr ⟨Or.inl nofun, Or.inl ⟨_, w', correlateAlert_of_error hadd, hlog⟩⟩
  | inTime =>
      rcases addAlert_cases haddr hshort env.call defaultThreshold w.correlator with
        ⟨hno, hadd⟩ | ⟨hyes, r, c', hadd, hr⟩
      · refine Or.inl ⟨⟨rfl, hno⟩, correlateAlert_of_none ?_⟩
        simp only [awaitAddAlert, hwait, hadd]
        rfl
      · refine Or.inr ⟨Or.inr hyes, ?_⟩
        have hawait : awaitAddAlert rt env alert w =
            (r, { w.emit (.addAlert alert) with correlator := c' }) := by
          simp only [awaitAddAlert, hwait, hadd]
        rcases correlateAlert_log rt env alert w with herror | ⟨w', incident, hok, hlog'⟩
        · exact Or.inl herror
        · refine Or.inr ⟨w', _, hok, quiet_of_correlated hlog', ?_⟩
          cases r with
          | error e =>
              rw [correlateAlert_of_error hawait] at hok
              cases hok
          | ok incident' =>
              have hexec := hr.resolve_left nofun
              cases incident' with
              | none =>
                  rw [correlateAlert_of_none hawait] at hok
                  cases hok
                  exact hexec
              | some incident' =>
                  rw [correlateAlert_of_some hawait] at hok
                  unfold sendIncident at hok
                  split at hok
                  · cases hok
                    exact hexec
                  · cases hok

theorem handleCorrelation_error (event : Object) {e : Exc} (h : correlateAlert rt env alert w = (.error e, w')) :
    ∃ w'' error, handleCorrelation rt env event alert w = sendDlqSafely env event alert error w'' ∧
      w''.log = w'.log := by
  unfold handleCorrelation
  rw [h]
  dsimp only
  cases e.cls with
  | timeoutError => exact ⟨_, _, rfl, by rw [runLate_log, dispatchRollback_log]⟩
  | redisError => exact ⟨w', _, rfl, rfl⟩
  | typeError => exact ⟨w', _, rfl, rfl⟩
  | valueError => exact ⟨w', _, rfl, rfl⟩
  | other => exact ⟨w', _, rfl, rfl⟩

theorem handleCorrelation_ok (event : Object) {u : Unit} (h : correlateAlert rt env alert w = (.ok u, w')) :
    handleCorrelation rt env event alert w = w' := by
  simp only [handleCorrelation, h]

theorem handleCorrelation_quiet (rt : Runtime) (env : DetectionEnv) (event alert : Object) (w : World) :
    ∃ es, Quiet w (handleCorrelation rt env event alert w) es := by
  rcases correlateAlert_log rt env alert w with ⟨e, w', heq, hlog⟩ | ⟨w', incident, heq, hlog⟩
  · obtain ⟨w'', error, hend, hlog'⟩ := handleCorrelation_error event heq
    rw [hend]
    refine ⟨submitted env alert ++ dlqEvents env event alert error, ?_, fun a ha => ?_⟩
    · rw [sendDlqSafely_log, hlog', hlog, List.append_assoc]
    · rcases List.mem_append.mp ha with ha | ha
      · exact alertPublished_not_mem_submitted env alert a ha
      · exact alertPublished_not_mem_dlqEvents env event alert error a ha
  · rw [handleCorrelation_ok event heq]
    exact ⟨_, quiet_of_correlated hlog⟩

/-! ## The loop body -/

/-- The alert that is checked: an enrichment that raises leaves it as it was. -/
def enriched (env : DetectionEnv) (raw : Object) : Object :=
  match env.enrich raw with
  | .ok alert => alert
  | .error _ => raw

/-- The alert is the one made of the detection, and it passes the schema check. -/
def Checked (rt : Runtime) (env : DetectionEnv) (event det : Object) (traceId : String)
    (alert : Object) : Prop :=
  ∃ raw text, rawAlert rt env event det traceId = .ok raw ∧ enriched env raw = alert ∧
    env.validateAlert alert = .ok (true, text)

/-- A step of the iteration was reached and rejected the alert, timed out or raised. The enrichment and
the rollbacks are no such steps. -/
inductive StepFailed (rt : Runtime) (env : DetectionEnv) (event det : Object) (traceId : String)
    (w : World) : Prop where
  | alert {e} (h : rawAlert rt env event det traceId = .error e)
  | validation {raw e} (h : rawAlert rt env event det traceId = .ok raw)
      (hcheck : env.validateAlert (enriched env raw) = .error e)
  | schema {raw text} (h : rawAlert rt env event det traceId = .ok raw)
      (hcheck : env.validateAlert (enriched env raw) = .ok (false, text))
  | publish {alert e} (h : Checked rt env event det traceId alert) (hsend : env.alertSend = .error e)
  | correlation {alert e} (h : Checked rt env event det traceId alert) (hsend : env.alertSend = .ok ())
      (hawait : (awaitAddAlert rt env alert (w.emit (.alertPublished alert))).1 = .error e)
  | incident {alert incident e} (h : Checked rt env event det traceId alert)
      (hsend : env.alertSend = .ok ())
      (hawait : (awaitAddAlert rt env alert (w.emit (.alertPublished alert))).1 = .ok (some incident))
      (hincident : env.incidentSend = .error e)

/-- After the alert is built: its validation, and then its publication. -/
theorem processDetection_run {raw : Object} (rt : Runtime) (env : DetectionEnv) (event det : Object)
    (traceId : String) (w : World) (hraw : rawAlert rt env event det traceId = .ok raw) :
    processDetection rt env event det traceId w =
      match env.validateAlert (enriched env raw) with
      | .error e => onLoopError rt env event det e w
      | .ok (false, schemaErr) =>
          sendDlqSafely env event (enriched env raw) s!"SchemaValidationError: {schemaErr}" w
      | .ok (true, _) => publishAlert rt env event (enriched env raw) w := by
  simp only [processDetection, hraw]
  rfl

/-- An iteration either hands the detection to the dead-letter queue because a step failed, or ends with
the correlation of the alert it published. -/
theorem processDetection_cases (rt : Runtime) (env : DetectionEnv) (event det : Object)
    (traceId : String) (w : World) :
    (StepFailed rt env event det traceId w ∧ ∃ alert error,
      processDetection rt env event det traceId w = sendDlqSafely env event alert error w) ∨
    ∃ alert, Checked rt env event det traceId alert ∧ env.alertSend = .ok () ∧
      processDetection rt env event det traceId w =
        handleCorrelation rt env event alert (w.emit (.alertPublished alert)) := by
  cases hraw : rawAlert rt env event det traceId with
  | error e => exact Or.inl ⟨.alert hraw, _, _, by simp only [processDetection, hraw]; rfl⟩
  | ok raw =>
      have hrun := processDetection_run rt env event det traceId w hraw
      cases hcheck : env.validateAlert (enriched env raw) with
      | error e => exact Or.inl ⟨.validation hraw hcheck, _, _, by rw [hrun, hcheck]; rfl⟩
      | ok r =>
          obtain ⟨valid, text⟩ := r
          cases valid with
          | false => exact Or.inl ⟨.schema hraw hcheck, _, _, by rw [hrun, hcheck]⟩
          | true =>
              have hchecked : Checked rt env event det traceId (enriched env raw) :=
                ⟨raw, text, hraw, rfl, hcheck⟩
              rw [hrun, hcheck]
              cases hsend : env.alertSend with
              | ok u => exact Or.inr ⟨_, hchecked, rfl, by simp only [publishAlert, hsend]⟩
              | error e =>
                  refine Or.inl ⟨.publish hchecked hsend, enriched env raw, ?_⟩
                  simp only [publishAlert, hsend]
                  split
                  · exact ⟨_, rfl⟩
                  · exact ⟨_, rfl⟩

theorem Checked.unique {alert' : Object} {traceId : String}
    (h : Checked rt env event det traceId alert) (h' : Checked rt env event det traceId alert') :
    alert' = alert := by
  obtain ⟨raw, _, hraw, rfl, -⟩ := h
  obtain ⟨raw', _, hraw', rfl, -⟩ := h'
  cases hraw.symm.trans hraw'
  rfl

/-- Once the alert is published only the correlation and the incident can fail. -/
theorem stepFailed_of_published {traceId : String} (h : Checked rt env event det traceId alert)
    (hsend : env.alertSend = .ok ()) :
    StepFailed rt env event det traceId w ↔
      ∃ e w', correlateAlert rt env alert (w.emit (.alertPublished alert)) = (.error e, w') := by
  constructor
  · intro hfailed
    obtain ⟨raw, text, hraw, rfl, hcheck⟩ := id h
    cases hfailed with
    | alert hraw' => cases hraw.symm.trans hraw'
    | validation hraw' hcheck' =>
        cases hraw.symm.trans hraw'
        cases hcheck.symm.trans hcheck'
    | schema hraw' hcheck' =>
        cases hraw.symm.trans hraw'
        cases hcheck.symm.trans hcheck'
    | publish _ hsend' => cases hsend.symm.trans hsend'
    | correlation h' _ hawait =>
        cases h.unique h'
        exact ⟨_, _, correlateAlert_of_error (Prod.ext hawait rfl)⟩
    | incident h' _ hawait hincident =>
        cases h.unique h'
        rw [correlateAlert_of_some (Prod.ext hawait rfl), sendIncident, hincident]
        exact ⟨_, _, rfl⟩
  · rintro ⟨e, w', herror⟩
    rcases hawait : awaitAddAlert rt env alert (w.emit (.alertPublished alert)) with ⟨r, w''⟩
    cases r with
    | error e' => exact .correlation h hsend (congrArg Prod.fst hawait)
    | ok incident =>
        cases incident with
        | none =>
            rw [correlateAlert_of_none hawait] at herror
            cases herror
        | some incident =>
            rw [correlateAlert_of_some hawait, sendIncident] at herror
            cases hincident : env.incidentSend with
            | ok u =>
                rw [hincident] at herror
                cases herror
            | error e' => exact .incident h hsend (congrArg Prod.fst hawait) hincident

/-! ## What an iteration logs -/

def isDlqCall : Event → Bool
  | .dlqSafely _ _ => true
  | _ => false

@[simp] theorem countP_dlqEvents (env : DetectionEnv) (event alert : Object) (error : String) :
    (dlqEvents env event alert error).countP isDlqCall = 1 := by
  unfold dlqEvents
  cases env.dlqSend <;> rfl

/-- The log of one iteration: the alert published and handed to `add_alert`, then its incident, if any. A
failed step cuts it short and calls the dead-letter queue once. -/
theorem processDetection_log (rt : Runtime) (env : DetectionEnv) (event det : Object)
    (traceId : String) (w : World) :
    ∃ alert, (StepFailed rt env event det traceId w ∧ ∃ es payload error,
        es <+: [.alertPublished alert, .addAlert alert] ∧
          (processDetection rt env event det traceId w).log =
            w.log ++ (es ++ dlqEvents env event payload error)) ∨
      (¬ StepFailed rt env event det traceId w ∧ ∃ incident : Option Incident,
        (processDetection rt env event det traceId w).log =
          w.log ++ ([.alertPublished alert, .addAlert alert] ++
            incident.toList.map .incidentPublished)) := by
  rcases processDetection_cases rt env event det traceId w with
    ⟨hfailed, payload, error, hrun⟩ | ⟨alert, hchecked, hsend, hrun⟩
  · refine ⟨payload, Or.inl ⟨hfailed, [], payload, error, List.nil_prefix, ?_⟩⟩
    rw [hrun, sendDlqSafely_log, List.nil_append]
  · refine ⟨alert, ?_⟩
    have hsubmitted : submitted env alert <+: [.addAlert alert] := by
      unfold submitted
      split
      · exact List.nil_prefix
      · exact List.prefix_rfl
    rcases correlateAlert_log rt env alert (w.emit (.alertPublished alert)) with
      ⟨e, w', heq, hlog⟩ | ⟨w', incident, heq, hlog⟩
    · obtain ⟨w'', error, hend, hlog'⟩ := handleCorrelation_error event heq
      refine Or.inl ⟨(stepFailed_of_published hchecked hsend).mpr ⟨e, w', heq⟩,
        .alertPublished alert :: submitted env alert, alert, error,
        List.cons_prefix_cons.mpr ⟨rfl, hsubmitted⟩, ?_⟩
      rw [hrun, hend, sendDlqSafely_log, hlog', hlog]
      simp only [World.emit, List.append_assoc, List.cons_append, List.nil_append]
    · have hno : ¬ StepFailed rt env event det traceId w := by
        rw [stepFailed_of_published hchecked hsend, heq]
        rintro ⟨_, _, h⟩
        cases h
      refine Or.inr ⟨hno, incident, ?_⟩
      rw [hrun, handleCorrelation_ok event heq, hlog]
      have hsubmit : submitted env alert = [.addAlert alert] := by
        unfold submitted
        split
        · next e hwait =>
            rw [correlateAlert_of_error (e := e) (by simp only [awaitAddAlert, hwait]; rfl)] at heq
            cases heq
        · rfl
      rw [hsubmit]
      simp only [World.emit, List.append_assoc, List.cons_append, List.nil_append]

/-- Every `add_alert` of the list comes after the publication of its alert. -/
def PublishedFirst (es : List Event) : Prop :=
  ∀ alert earlier later, es = earlier ++ .addAlert alert :: later → .alertPublished alert ∈ earlier

theorem publishedFirst_of_not_mem {es : List Event} (h : ∀ a, .addAlert a ∉ es) : PublishedFirst es := by
  rintro a earlier later rfl
  exact absurd (List.mem_append_right _ List.mem_cons_self) (h a)

theorem publishedFirst_cons {rest : List Event} (alert : Object) (h : ∀ a, .addAlert a ∉ rest) :
    PublishedFirst (.alertPublished alert :: .addAlert alert :: rest) := by
  intro a earlier later heq
  cases earlier with
  | nil => cases heq
  | cons e earlier =>
      obtain ⟨rfl, htail⟩ := List.cons.inj heq
      cases earlier with
      | nil =>
          cases htail
          exact List.mem_cons_self
      | cons e earlier =>
          have hrest : rest = earlier ++ .addAlert a :: later := List.tail_eq_of_cons_eq htail
          exact absurd (hrest ▸ List.mem_append_right _ List.mem_cons_self) (h a)

theorem addAlert_not_mem_dlqEvents (env : DetectionEnv) (event alert : Object) (error : String)
    (a : Object) : .addAlert a ∉ dlqEvents env event alert error := by
  unfold dlqEvents
  cases env.dlqSend <;> simp

/-- `add_alert` is called after the alert is published, and the dead-letter queue at most once: exactly when
a step failed. -/
structure Disposed (rt : Runtime) (env : DetectionEnv) (event det : Object) (traceId : String)
    (w : World) : Prop where
  published_first : PublishedFirst (newEvents w (processDetection rt env event det traceId w))
  at_most_once : (newEvents w (processDetection rt env event det traceId w)).countP isDlqCall ≤ 1
  once_iff_failed : (newEvents w (processDetection rt env event det traceId w)).countP isDlqCall = 1 ↔
    StepFailed rt env event det traceId w

theorem disposed (rt : Runtime) (env : DetectionEnv) (event det : Object) (traceId : String)
    (w : World) : Disposed rt env event det traceId w := by
  obtain ⟨alert, ⟨hfailed, es, payload, error, hes, hlog⟩ | ⟨hno, incident, hlog⟩⟩ :=
    processDetection_log rt env event det traceId w
  · have hdlq := addAlert_not_mem_dlqEvents env event payload error
    have hfirst : PublishedFirst (es ++ dlqEvents env event payload error) ∧ es.countP isDlqCall = 0 := by
      obtain rfl | ⟨tail, rfl, htail⟩ := List.prefix_cons_iff.mp hes
      · exact ⟨publishedFirst_of_not_mem hdlq, rfl⟩
      · obtain rfl | ⟨rest, rfl, hrest⟩ := List.prefix_cons_iff.mp htail
        · refine ⟨publishedFirst_of_not_mem fun a ha => ?_, rfl⟩
          rcases List.mem_cons.mp ha with ha | ha
          · cases ha
          · exact hdlq a ha
        · obtain rfl := List.prefix_nil.mp hrest
          exact ⟨publishedFirst_cons alert hdlq, rfl⟩
    have hcount : (es ++ dlqEvents env event payload error).countP isDlqCall = 1 := by
      rw [List.countP_append, hfirst.2, countP_dlqEvents]
    refine ⟨?_, ?_, ?_⟩
    all_goals rw [newEvents_of_append hlog]
    · exact hfirst.1
    · exact hcount.le
    · exact iff_of_true hcount hfailed
  · have hcount : ([Event.alertPublished alert, .addAlert alert] ++
        incident.toList.map Event.incidentPublished).countP isDlqCall = 0 := by
      cases incident <;> rfl
    refine ⟨?_, ?_, ?_⟩
    all_goals rw [newEvents_of_append hlog]
    · refine publishedFirst_cons alert fun a ha => ?_
      cases incident <;> simp at ha
    · exact hcount.le.trans zero_le_one
    · rw [hcount]
      exact iff_of_false nofun hno

end NeuralSoc.Stream
