import NeuralSoc.Stream.Lemmas.Detection
import NeuralSoc.Stream.Lemmas.Events

/-!
# The detections of one event, and its domain-age lookups

The detections are processed one after the other. Only the stage behind the test of `is_dga` asks for the
age of a domain; all others are `Silent`.
-/

namespace NeuralSoc.Stream

variable {rt : EventRuntime} {env : EventEnv} {event features : Object} {s s' s'' : Coroutine}

/-! ## The detections -/

/-- The iterations over `detections`, the first of them being number `i`. -/
def emitFrom (rt : EventRuntime) (env : EventEnv) (event : Object) (detections : List Object) (i : ℕ)
    (w : World) : World :=
  (detections.zipIdx i).foldl (fun w (det, i) =>
    processDetection rt.toRuntime (env.detection i) event det (eventTraceId rt env event) w) w

theorem emitFrom_cons (rt : EventRuntime) (env : EventEnv) (event det : Object) (dets : List Object)
    (i : ℕ) (w : World) : emitFrom rt env event (det :: dets) i w =
      emitFrom rt env event dets (i + 1)
        (processDetection rt.toRuntime (env.detection i) event det (eventTraceId rt env event) w) := rfl

theorem emitFrom_append (rt : EventRuntime) (env : EventEnv) (event : Object) (dets dets' : List Object)
    (i : ℕ) (w : World) : emitFrom rt env event (dets ++ dets') i w =
      emitFrom rt env event dets' (i + dets.length) (emitFrom rt env event dets i w) := by
  unfold emitFrom
  rw [List.zipIdx_append, List.foldl_append]

/-! ## Lookups -/

def ageLookup? : Event → Option Json
  | .ageLookup query => some query
  | _ => none

def ageLookups (es : List Event) : List Json := es.filterMap ageLookup?

theorem ageLookups_append (es es' : List Event) :
    ageLookups (es ++ es') = ageLookups es ++ ageLookups es' := List.filterMap_append

/-- Between `s` and `s'` the log has grown, with these lookups among the new events. -/
def Looks (queries : List Json) (s s' : Coroutine) : Prop :=
  ∃ es, s'.world.log = s.world.log ++ es ∧ ageLookups es = queries

abbrev Silent : Coroutine → Coroutine → Prop := Looks []

theorem looks_of_world (h : s'.world = s.world) : Silent s s' := ⟨[], by rw [h, List.append_nil], rfl⟩

theorem Looks.trans {qs qs' : List Json} (h : Looks qs s s') (h' : Looks qs' s' s'') :
    Looks (qs ++ qs') s s'' := by
  obtain ⟨es, hlog, rfl⟩ := h
  obtain ⟨es', hlog', rfl⟩ := h'
  exact ⟨es ++ es', by rw [hlog', hlog, List.append_assoc], ageLookups_append es es'⟩

instance : IsPreorder Coroutine Silent where
  refl _ := looks_of_world rfl
  trans _ _ _ h h' := h.trans h'

theorem silent_detect (det : Object) : Handler.Keeps Silent (detect det) := fun _ => looks_of_world rfl

/-! ## The stages -/

theorem ageLookups_processDetection (rt : Runtime) (env : DetectionEnv) (event det : Object)
    (traceId : String) (w : World) :
    ∃ es, (processDetection rt env event det traceId w).log = w.log ++ es ∧ ageLookups es = [] := by
  obtain ⟨alert, ⟨-, es, payload, error, hes, hlog⟩ | ⟨-, incident, hlog⟩⟩ :=
    processDetection_log rt env event det traceId w
  · have hpublished : ageLookups es = [] := List.sublist_nil.mp (hes.sublist.filterMap ageLookup?)
    have hdlq : ageLookups (dlqEvents env event payload error) = [] := by
      unfold dlqEvents
      cases env.dlqSend <;> rfl
    exact ⟨_, hlog, by rw [ageLookups_append, hpublished, hdlq, List.append_nil]⟩
  · refine ⟨_, hlog, ?_⟩
    cases incident <;> rfl

theorem ageLookups_emitFrom (rt : EventRuntime) (env : EventEnv) (event : Object)
    (dets : List Object) (i : ℕ) (w : World) :
    ∃ es, (emitFrom rt env event dets i w).log = w.log ++ es ∧ ageLookups es = [] := by
  induction dets generalizing i w with
  | nil => exact ⟨[], (List.append_nil _).symm, rfl⟩
  | cons det dets ih =>
      obtain ⟨es, hlog, hes⟩ := ageLookups_processDetection rt.toRuntime (env.detection i) event det
        (eventTraceId rt env event) w
      obtain ⟨es', hlog', hes'⟩ := ih (i + 1) (processDetection rt.toRuntime (env.detection i) event det
        (eventTraceId rt env event) w)
      rw [emitFrom_cons]
      refine ⟨es ++ es', by rw [hlog', hlog, List.append_assoc], ?_⟩
      rw [ageLookups_append, hes, hes', List.append_nil]

theorem silent_emitAlerts (rt : EventRuntime) (env : EventEnv) (event : Object) :
    Handler.Keeps Silent (emitAlerts rt env event) := fun s =>
  ageLookups_emitFrom rt env event s.detections 0 s.world

theorem silent_inferDns (rt : EventRuntime) (env : EventEnv) (event features : Object) :
    Handler.Keeps Silent (inferDns rt env event features) := by
  unfold inferDns
  refine .bind (.modify fun _ => looks_of_world rfl) fun _ => ?_
  split
  · refine .bind (.lift _) fun r => .bind (.modify fun _ => looks_of_world rfl) fun _ => ?_
    exact keeps_detectIf silent_detect _ _
  · exact .pure ()

theorem inferDns_query (rt : EventRuntime) (env : EventEnv) (event features : Object) (s : Coroutine) :
    (inferDns rt env event features s).2.query = some (queryText rt event) := by
  unfold inferDns
  rw [Handler.modify_bind_run]
  split
  · cases env.predict features (queryText rt event) with
    | error e =>
        rw [Handler.lift_error_bind_run]
    | ok r =>
        obtain ⟨isDga, prob⟩ := r
        rw [Handler.lift_ok_bind_run]
        cases isDga <;> rfl
  · rfl

theorem silent_ageDays (env : EventEnv) (query : Json) : Handler.Keeps Silent (do
    match ← Handler.lift (env.lookupAgeDays query) with
    | some ageDays => detectIf (ageDays ≤ youngDomainDaysThreshold) (domainAgeDetection query ageDays)
    | none => pure () : Body Unit) := by
  refine .bind (.lift _) fun age => ?_
  cases age with
  | some ageDays => exact keeps_detectIf silent_detect _ _
  | none => exact .pure ()

theorem lookupDomainAge_looks {query : Json} (env : EventEnv) (h : s.query = some query) :
    Looks [query] s (lookupDomainAge env s).2 := by
  have hread : readQuery s = (.ok query, s) := by
    rw [readQuery, Handler.get_bind_run, h]
    rfl
  have hlook : Looks [query] s { s with world := s.world.emit (.ageLookup query) } := ⟨[_], rfl, rfl⟩
  rw [lookupDomainAge, Handler.bind_run_ok hread, Handler.modify_bind_run]
  exact hlook.trans (silent_ageDays env query _)

/-- The lookups of the DNS stages: the query, when `is_dga` is true after the inference. -/
theorem dnsStages_looks (rt : EventRuntime) (env : EventEnv) (event features : Object) (s : Coroutine) :
    Looks (if (verdict rt env event features).or s.isDga = some true then [queryText rt event] else []) s
      (dnsStages rt env event features s).2 := by
  have hinfer := silent_inferDns rt env event features s
  have htrack : Handler.Keeps Silent (Handler.attempt (trackDns rt env event)) :=
    (keeps_trackDns silent_detect rt env event).attempt
  rw [dnsStages_run, readIsDga_bind_run, ← inferDns_isDga]
  cases hdga : (inferDns rt env event features s).2.isDga with
  | none => exact hinfer
  | some isDga =>
      cases isDga with
      | false => exact hinfer.trans (htrack _)
      | true =>
          have hlook := lookupDomainAge_looks env (inferDns_query rt env event features s)
          exact (hinfer.trans hlook).trans (htrack _)

/-! ## One event -/

/-- What the inference of the event says of its query; `none` when it is not asked or does not complete. -/
def verdictOf (rt : EventRuntime) (d : Delivery) : Option Bool :=
  match readsIsDga rt d, extractFeatures rt d.event with
  | true, .ok features => verdict rt d.env d.event features
  | _, _ => none

variable {d : Delivery} {a : Agent}

theorem processEvent_looks (rt : EventRuntime) (d : Delivery) (s : Coroutine) :
    Looks (if readsIsDga rt d ∧ (verdictOf rt d).or s.isDga = some true then [queryText rt d.event] else [])
      s (processEvent rt d.env d.event s).2 := by
  have hrest : ∀ features, Handler.Keeps Silent (remainingStages rt d.env d.event features) :=
    fun features => keeps_remainingStages silent_detect rt d.env d.event features
      (silent_emitAlerts rt d.env d.event)
  cases hreads : readsIsDga rt d with
  | false =>
      rw [if_neg (by simp)]
      rcases processEvent_of_not_reads hreads s with hrun | ⟨features, rules, hrun⟩
      · rw [hrun]
        exact looks_of_world rfl
      · rw [hrun]
        exact (looks_of_world rfl : Silent s { s with detections := rules }).trans (hrest features _)
  | true =>
      obtain ⟨features, rules, hfeatures, hrun⟩ := processEvent_of_reads hreads s
      have hdns := dnsStages_looks rt d.env d.event features { s with detections := rules }
      have hstages : Looks (if (verdict rt d.env d.event features).or s.isDga = some true then
          [queryText rt d.event] else []) s (dnsStages rt d.env d.event features
            { s with detections := rules }).2 :=
        (looks_of_world rfl : Silent s { s with detections := rules }).trans hdns
      simp only [verdictOf, hreads, hfeatures, true_and]
      rw [hrun]
      cases hd : dnsStages rt d.env d.event features { s with detections := rules } with
      | mk r s' =>
          rw [hd] at hstages
          cases r with
          | ok u =>
              rw [Handler.bind_run_ok hd]
              have hall := hstages.trans (hrest features s')
              rwa [List.append_nil] at hall
          | error e =>
              rw [Handler.bind_run_error hd]
              exact hstages

def lookupsMade (rt : EventRuntime) (a : Agent) (d : Delivery) : List Json :=
  ageLookups (newEvents a.locals.world (deliver rt a d).locals.world)

/-- The event has no verdict of its own, and one of an earlier event is still bound that says yes. -/
def StaleFlag (rt : EventRuntime) (a : Agent) (d : Delivery) : Prop :=
  a.raised = none ∧ readsIsDga rt d = true ∧ verdictOf rt d = none ∧ a.locals.isDga = some true

theorem lookupsMade_of_raised {e : Exc} (ha : a.raised = some e) : lookupsMade rt a d = [] := by
  have hstay : deliver rt a d = a := by
    unfold deliver
    rw [ha]
  rw [lookupsMade, hstay, newEvents_of_append (List.append_nil _).symm]
  rfl

theorem lookupsMade_eq (ha : a.raised = none) :
    lookupsMade rt a d =
      if readsIsDga rt d ∧ (verdictOf rt d).or a.locals.isDga = some true then [queryText rt d.event]
      else [] := by
  have hlocals : (deliver rt a d).locals = (processEvent rt d.env d.event a.locals).2 := by
    unfold deliver
    rw [ha]
    cases processEvent rt d.env d.event a.locals with
    | mk r s => cases r <;> rfl
  obtain ⟨es, hlog, hes⟩ := processEvent_looks rt d a.locals
  rw [lookupsMade, hlocals, newEvents_of_append hlog, hes]

theorem lookupsMade_of_stale (h : StaleFlag rt a d) : lookupsMade rt a d = [queryText rt d.event] := by
  obtain ⟨ha, hreads, hverdict, hflag⟩ := h
  rw [lookupsMade_eq ha, hverdict, hflag, Option.none_or, if_pos ⟨hreads, rfl⟩]

theorem readsIsDga_of_verdict {isDga : Bool} (h : verdictOf rt d = some isDga) : readsIsDga rt d = true := by
  unfold verdictOf at h
  split at h
  · assumption
  · cases h

/-- Without a stale flag the lookups are those of the event's own verdict. -/
theorem lookupsMade_of_not_stale (ha : a.raised = none) (h : ¬ StaleFlag rt a d) :
    lookupsMade rt a d = if verdictOf rt d = some true then [queryText rt d.event] else [] := by
  rw [lookupsMade_eq ha]
  congr 1
  apply propext
  cases hverdict : verdictOf rt d with
  | none =>
      refine iff_of_false (fun hread => h ⟨ha, hread.1, hverdict, ?_⟩) nofun
      exact (Option.none_or ..).symm.trans hread.2
  | some isDga =>
      rw [Option.some_or, and_iff_right (readsIsDga_of_verdict hverdict)]

/-! ## Lookups for flagged queries only -/

/-- Every lookup made for the event is of its query, flagged during the event. -/
def LookupsFlagged (rt : EventRuntime) (a : Agent) (d : Delivery) : Prop :=
  ∀ query ∈ lookupsMade rt a d, query = queryText rt d.event ∧ verdictOf rt d = some true

theorem lookupsFlagged_iff (a : Agent) (d : Delivery) : LookupsFlagged rt a d ↔ ¬ StaleFlag rt a d := by
  constructor
  · intro hflagged hstale
    obtain ⟨-, hverdict⟩ := hflagged _ (lookupsMade_of_stale hstale ▸ List.mem_singleton_self _)
    rw [hstale.2.2.1] at hverdict
    cases hverdict
  · intro hno query hquery
    cases ha : a.raised with
    | some e =>
        rw [lookupsMade_of_raised ha] at hquery
        cases hquery
    | none =>
        rw [lookupsMade_of_not_stale ha hno] at hquery
        split at hquery
        · next hverdict => exact ⟨List.mem_singleton.mp hquery, hverdict⟩
        · cases hquery

/-- After two histories the lookups of an event are the same when both or neither left a stale flag. -/
theorem lookupsMade_congr_iff {a' : Agent} (ha : a.raised = none) (ha' : a'.raised = none) :
    lookupsMade rt a d = lookupsMade rt a' d ↔ (StaleFlag rt a d ↔ StaleFlag rt a' d) := by
  have hdiffer : ∀ {a a' : Agent}, a'.raised = none → StaleFlag rt a d → ¬ StaleFlag rt a' d →
      lookupsMade rt a d ≠ lookupsMade rt a' d := by
    intro a a' ha' hstale hno
    rw [lookupsMade_of_stale hstale, lookupsMade_of_not_stale ha' hno, hstale.2.2.1, if_neg nofun]
    nofun
  by_cases hstale : StaleFlag rt a d
  · by_cases hstale' : StaleFlag rt a' d
    · refine iff_of_true ?_ (iff_of_true hstale hstale')
      rw [lookupsMade_of_stale hstale, lookupsMade_of_stale hstale']
    · exact iff_of_false (hdiffer ha' hstale hstale') fun h => hstale' (h.mp hstale)
  · by_cases hstale' : StaleFlag rt a' d
    · exact iff_of_false (hdiffer ha hstale' hstale).symm fun h => hstale (h.mpr hstale')
    · refine iff_of_true ?_ (iff_of_false hstale hstale')
      rw [lookupsMade_of_not_stale ha hstale, lookupsMade_of_not_stale ha' hstale']

end NeuralSoc.Stream
