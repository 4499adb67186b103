import NeuralSoc.Stream.Events

/-!
# Which events raise

All stages of an event but the test of `is_dga` are guarded. A stage that is `Total` does not raise, one
that keeps `SameDga` leaves the local alone; only a completed inference binds it.
-/

namespace NeuralSoc.Stream

variable {rt : EventRuntime} {env : EventEnv} {event features : Object} {s s' : Coroutine}

/-! ## Stages that do not raise -/

theorem total_onType {m : Body Unit} (event : Object) (evtType : String) (h : Handler.Total m) :
    Handler.Total (onType event evtType m) := by
  unfold onType
  split
  · exact h
  · exact .pure ()

/-! ## Stages that only add detections

What a detection leaves alone, these stages leave alone. -/

section Keeps

variable {R : Coroutine → Coroutine → Prop} [IsPreorder Coroutine R]

theorem keeps_detectIf (h : ∀ det, Handler.Keeps R (detect det)) (b : Bool) (det : Object) :
    Handler.Keeps R (detectIf b det) := by
  cases b with
  | true => exact h det
  | false => exact .pure ()

theorem keeps_readQuery : Handler.Keeps R readQuery :=
  Handler.Keeps.get.bind fun s => .expect (unbound "query") s.query

theorem keeps_onType {m : Body Unit} (event : Object) (evtType : String) (h : Handler.Keeps R m) :
    Handler.Keeps R (onType event evtType m) := by
  unfold onType
  split
  · exact h
  · exact .pure ()

theorem keeps_trackDns (h : ∀ det, Handler.Keeps R (detect det)) (rt : EventRuntime) (env : EventEnv)
    (event : Object) : Handler.Keeps R (trackDns rt env event) := by
  unfold trackDns
  dsimp only
  split
  · refine .bind keeps_readQuery fun query => ?_
    split
    · exact .bind (.lift _) fun _ => .bind (.lift _) fun _ => keeps_detectIf h _ _
    · exact .pure ()
  · exact .pure ()

theorem keeps_inferFlow (h : ∀ det, Handler.Keeps R (detect det)) (rt : EventRuntime) (env : EventEnv)
    (event features : Object) : Handler.Keeps R (inferFlow rt env event features) :=
  .bind (.lift _) fun _ => .bind (.lift _) fun _ => keeps_detectIf h _ _

theorem keeps_trackConnection (h : ∀ det, Handler.Keeps R (detect det)) (rt : EventRuntime)
    (env : EventEnv) (event features : Object) :
    Handler.Keeps R (trackConnection rt env event features) := by
  unfold trackConnection
  dsimp only
  split
  · refine .bind (.lift _) fun _ => .bind (.lift _) fun _ => .bind (keeps_detectIf h _ _) fun _ => ?_
    refine .bind (.lift _) fun _ => .bind (keeps_detectIf h _ _) fun _ => ?_
    exact .bind (.lift _) fun _ => keeps_detectIf h _ _
  · exact .pure ()

theorem keeps_trackResponse (rt : EventRuntime) (env : EventEnv) (event : Object) :
    Handler.Keeps R (trackResponse rt env event) := by
  unfold trackResponse
  dsimp only
  split
  · exact .bind (.lift _) fun _ => .lift _
  · exact .pure ()

end Keeps

/-! ## The stages after the DNS stages -/

def remainingStages (rt : EventRuntime) (env : EventEnv) (event features : Object) : Body Outcome := do
  onType event "conn" (connStages rt env event features)
  onType event "dns_response" (Handler.attempt (trackResponse rt env event))
  emitAlerts rt env event
  return .finished

theorem total_remainingStages (rt : EventRuntime) (env : EventEnv) (event features : Object) :
    Handler.Total (remainingStages rt env event features) := by
  apply (total_onType event "conn" ((Handler.Total.attempt _).bind fun _ => Handler.Total.attempt _)).bind
  intro _
  apply (total_onType event "dns_response" (Handler.Total.attempt _)).bind
  intro _
  exact (Handler.Total.modify _).bind fun _ => .pure _

theorem keeps_remainingStages {R : Coroutine → Coroutine → Prop} [IsPreorder Coroutine R]
    (h : ∀ det, Handler.Keeps R (detect det)) (rt : EventRuntime) (env : EventEnv)
    (event features : Object) (hemit : Handler.Keeps R (emitAlerts rt env event)) :
    Handler.Keeps R (remainingStages rt env event features) := by
  have hconn : Handler.Keeps R (connStages rt env event features) :=
    (Handler.Keeps.attempt (keeps_inferFlow h rt env event features)).bind fun _ =>
      Handler.Keeps.attempt (keeps_trackConnection h rt env event features)
  have hresponse : Handler.Keeps R (Handler.attempt (trackResponse rt env event)) :=
    (keeps_trackResponse rt env event).attempt
  apply (keeps_onType event "conn" hconn).bind
  intro _
  apply (keeps_onType event "dns_response" hresponse).bind
  intro _
  exact hemit.bind fun _ => Handler.Keeps.pure _

/-! ## Stages that leave `is_dga` alone -/

def SameDga (s s' : Coroutine) : Prop := s'.isDga = s.isDga

instance : IsPreorder Coroutine SameDga where
  refl _ := rfl
  trans _ _ _ h h' := h'.trans h

abbrev KeepsDga {α : Type} (m : Body α) : Prop := Handler.Keeps SameDga m

theorem keepsDga_detect (det : Object) : KeepsDga (detect det) := fun _ => rfl

theorem keepsDga_lookupDomainAge (env : EventEnv) : KeepsDga (lookupDomainAge env) := by
  refine .bind keeps_readQuery fun query => .bind (.modify fun _ => rfl) fun _ => ?_
  refine .bind (.lift _) fun age => ?_
  cases age with
  | some ageDays => exact keeps_detectIf keepsDga_detect _ _
  | none => exact .pure ()

theorem keepsDga_remainingStages (rt : EventRuntime) (env : EventEnv) (event features : Object) :
    KeepsDga (remainingStages rt env event features) :=
  keeps_remainingStages keepsDga_detect rt env event features fun _ => rfl

/-! ## The DNS stages -/

/-- The inference is asked for the query and completes. -/
def infers (rt : EventRuntime) (env : EventEnv) (event features : Object) : Bool :=
  isQueryable (queryText rt event) && (env.predict features (queryText rt event)).isOk

def verdict (rt : EventRuntime) (env : EventEnv) (event features : Object) : Option Bool :=
  if isQueryable (queryText rt event) then
    (env.predict features (queryText rt event)).toOption.map Prod.fst
  else none

theorem isSome_verdict (rt : EventRuntime) (env : EventEnv) (event features : Object) :
    (verdict rt env event features).isSome = infers rt env event features := by
  unfold verdict infers
  split
  · next hq =>
      rw [hq, Bool.true_and, Option.isSome_map]
      cases env.predict features (queryText rt event) <;> rfl
  · next hq => rw [Bool.eq_false_iff.mpr hq, Bool.false_and, Option.isSome_none]

/-- A completed inference binds the local, any other leaves it as it was. -/
theorem inferDns_isDga (rt : EventRuntime) (env : EventEnv) (event features : Object) (s : Coroutine) :
    (inferDns rt env event features s).2.isDga = (verdict rt env event features).or s.isDga := by
  unfold inferDns verdict
  rw [Handler.modify_bind_run]
  split
  · cases hp : env.predict features (queryText rt event) with
    | error e =>
        rw [Handler.lift_error_bind_run]
        rfl
    | ok r =>
        obtain ⟨isDga, prob⟩ := r
        rw [Handler.lift_ok_bind_run]
        exact keeps_detectIf keepsDga_detect isDga (dgaDetection (queryText rt event) prob)
          { s with query := some (queryText rt event), isDga := some isDga }
  · rfl

theorem inferDns_isSome (rt : EventRuntime) (env : EventEnv) (event features : Object) (s : Coroutine) :
    (inferDns rt env event features s).2.isDga.isSome =
      (s.isDga.isSome || infers rt env event features) := by
  rw [inferDns_isDga, ← isSome_verdict, Option.isSome_or, Bool.or_comm]

theorem readIsDga_bind_run {α : Type} (f : Bool → Body α) (s : Coroutine) :
    (readIsDga >>= f) s =
      match s.isDga with
      | some isDga => f isDga s
      | none => (.error (unbound "is_dga"), s) := by
  obtain ⟨isDga, _, _, _⟩ := s
  cases isDga <;> rfl

def testedStages (rt : EventRuntime) (env : EventEnv) (event : Object) (isDga : Bool) : Body Unit := do
  if isDga then Handler.attempt (lookupDomainAge env) else pure ()
  Handler.attempt (trackDns rt env event)

theorem total_testedStages (rt : EventRuntime) (env : EventEnv) (event : Object) (isDga : Bool) :
    Handler.Total (testedStages rt env event isDga) := by
  cases isDga with
  | true => exact (Handler.Total.attempt _).bind fun _ => Handler.Total.attempt _
  | false => exact Handler.Total.attempt _

theorem keepsDga_testedStages (rt : EventRuntime) (env : EventEnv) (event : Object) (isDga : Bool) :
    KeepsDga (testedStages rt env event isDga) := by
  have htrack := Handler.Keeps.attempt (keeps_trackDns keepsDga_detect rt env event)
  cases isDga with
  | true => exact (Handler.Keeps.attempt (keepsDga_lookupDomainAge env)).bind fun _ => htrack
  | false => exact htrack

theorem dnsStages_run (rt : EventRuntime) (env : EventEnv) (event features : Object) (s : Coroutine) :
    dnsStages rt env event features s =
      (readIsDga >>= testedStages rt env event) (inferDns rt env event features s).2 := rfl

/-- Once `is_dga` is bound the DNS stages do not raise, and it stays bound. -/
theorem dnsStages_bound (h : (s.isDga.isSome || infers rt env event features) = true) :
    (dnsStages rt env event features s).1 = .ok () ∧
      (dnsStages rt env event features s).2.isDga.isSome := by
  rw [← inferDns_isSome] at h
  rw [dnsStages_run, readIsDga_bind_run]
  obtain ⟨isDga, hdga⟩ := Option.isSome_iff_exists.mp h
  rw [hdga]
  obtain ⟨u, hu⟩ := total_testedStages rt env event isDga (inferDns rt env event features s).2
  have hkeep : (testedStages rt env event isDga (inferDns rt env event features s).2).2.isDga =
      some isDga := Eq.trans (keepsDga_testedStages rt env event isDga _) hdga
  exact ⟨hu, congrArg Option.isSome hkeep⟩

theorem dnsStages_unbound (h : (s.isDga.isSome || infers rt env event features) = false) :
    (dnsStages rt env event features s).1 = .error (unbound "is_dga") := by
  rw [← inferDns_isSome] at h
  rw [dnsStages_run, readIsDga_bind_run]
  rw [Option.isSome_eq_false_iff, Option.isNone_iff_eq_none] at h
  rw [h]

/-! ## One event -/

/-- A DNS event whose features can be extracted: only it reads `is_dga`. -/
def readsIsDga (rt : EventRuntime) (d : Delivery) : Bool :=
  d.event.get "event_type" = .str "dns" && (extractFeatures rt d.event).isOk

/-- The inference of the event is asked for its query and completes. -/
def infersInTime (rt : EventRuntime) (d : Delivery) : Bool :=
  match extractFeatures rt d.event with
  | .ok features => infers rt d.env d.event features
  | .error _ => false

theorem processEvent_of_error {e : Exc} (h : extractFeatures rt event = .error e) (s : Coroutine) :
    processEvent rt env event s = (.ok .skipped, s) := by
  unfold processEvent
  rw [h]
  rfl

theorem processEvent_of_features (env : EventEnv) (h : extractFeatures rt event = .ok features)
    (s : Coroutine) :
    ∃ rules, processEvent rt env event s =
      (onType event "dns" (dnsStages rt env event features) >>= fun _ =>
        remainingStages rt env event features) { s with detections := rules } := by
  refine ⟨(evaluateRules rt env.fingerprints event features).toOption.getD [], ?_⟩
  unfold processEvent
  rw [h]
  rfl

variable {d : Delivery}

theorem processEvent_of_not_reads (h : readsIsDga rt d = false) (s : Coroutine) :
    processEvent rt d.env d.event s = (.ok .skipped, s) ∨
      ∃ features rules, processEvent rt d.env d.event s =
        remainingStages rt d.env d.event features { s with detections := rules } := by
  cases hfeatures : extractFeatures rt d.event with
  | error e => exact Or.inl (processEvent_of_error hfeatures s)
  | ok features =>
      obtain ⟨rules, hrun⟩ := processEvent_of_features d.env hfeatures s
      have htype : d.event.get "event_type" ≠ .str "dns" := by
        intro htype
        simp [readsIsDga, htype, hfeatures, Except.isOk, Except.toBool] at h
      rw [onType, if_neg htype] at hrun
      exact Or.inr ⟨features, rules, hrun⟩

theorem processEvent_of_reads (h : readsIsDga rt d = true) (s : Coroutine) :
    ∃ features rules, extractFeatures rt d.event = .ok features ∧
      processEvent rt d.env d.event s = (dnsStages rt d.env d.event features >>= fun _ =>
        remainingStages rt d.env d.event features) { s with detections := rules } := by
  obtain ⟨htype, hok⟩ := Bool.and_eq_true_iff.mp h
  cases hfeatures : extractFeatures rt d.event with
  | error e => simp [hfeatures, Except.isOk, Except.toBool] at hok
  | ok features =>
      obtain ⟨rules, hrun⟩ := processEvent_of_features d.env hfeatures s
      refine ⟨features, rules, rfl, ?_⟩
      rw [hrun, onType, if_pos (of_decide_eq_true htype)]

theorem infersInTime_eq (h : extractFeatures rt d.event = .ok features) :
    infersInTime rt d = infers rt d.env d.event features := by
  rw [infersInTime, h]

theorem processEvent_total_of_not_reads (h : readsIsDga rt d = false) (s : Coroutine) :
    ∃ outcome, (processEvent rt d.env d.event s).1 = .ok outcome ∧
      SameDga s (processEvent rt d.env d.event s).2 := by
  rcases processEvent_of_not_reads h s with hrun | ⟨features, rules, hrun⟩
  · rw [hrun]
    exact ⟨.skipped, rfl, rfl⟩
  · rw [hrun]
    obtain ⟨outcome, ho⟩ := total_remainingStages rt d.env d.event features { s with detections := rules }
    exact ⟨outcome, ho, keepsDga_remainingStages rt d.env d.event features { s with detections := rules }⟩

theorem processEvent_of_bound (h : readsIsDga rt d = true)
    (hbound : (s.isDga.isSome || infersInTime rt d) = true) :
    ∃ outcome, (processEvent rt d.env d.event s).1 = .ok outcome ∧
      (processEvent rt d.env d.event s).2.isDga.isSome := by
  obtain ⟨features, rules, hfeatures, hrun⟩ := processEvent_of_reads h s
  rw [infersInTime_eq hfeatures] at hbound
  obtain ⟨hok, hsome⟩ := dnsStages_bound (s := { s with detections := rules }) hbound
  rw [hrun, Handler.bind_run_ok (Prod.ext hok rfl)]
  obtain ⟨outcome, ho⟩ := total_remainingStages rt d.env d.event features
    (dnsStages rt d.env d.event features { s with detections := rules }).2
  have hkeep := keepsDga_remainingStages rt d.env d.event features
    (dnsStages rt d.env d.event features { s with detections := rules }).2
  exact ⟨outcome, ho, (congrArg Option.isSome hkeep).trans hsome⟩

theorem processEvent_of_unbound (h : readsIsDga rt d = true)
    (hunbound : (s.isDga.isSome || infersInTime rt d) = false) :
    (processEvent rt d.env d.event s).1 = .error (unbound "is_dga") := by
  obtain ⟨features, rules, hfeatures, hrun⟩ := processEvent_of_reads h s
  rw [infersInTime_eq hfeatures] at hunbound
  have herror := dnsStages_unbound (s := { s with detections := rules }) hunbound
  rw [hrun, Handler.bind_run_error (Prod.ext herror rfl)]

/-! ## The stream -/

variable {a : Agent}

theorem deliver_of_ok {outcome : Outcome} (ha : a.raised = none)
    (h : (processEvent rt d.env d.event a.locals).1 = .ok outcome) :
    deliver rt a d =
      ⟨(processEvent rt d.env d.event a.locals).2, a.outcomes ++ [outcome], none⟩ := by
  unfold deliver
  rw [ha]
  dsimp only
  generalize processEvent rt d.env d.event a.locals = r at h
  obtain ⟨_, s⟩ := r
  cases h
  rfl

theorem deliver_of_error {e : Exc} (ha : a.raised = none)
    (h : (processEvent rt d.env d.event a.locals).1 = .error e) :
    (deliver rt a d).raised = some e := by
  unfold deliver
  rw [ha]
  dsimp only
  generalize processEvent rt d.env d.event a.locals = r at h
  obtain ⟨_, s⟩ := r
  cases h
  rfl

theorem foldl_deliver_of_raised {e : Exc} (ha : a.raised = some e) (stream : List Delivery) :
    stream.foldl (deliver rt) a = a := by
  induction stream with
  | nil => rfl
  | cons d stream ih =>
      have hstay : deliver rt a d = a := by
        unfold deliver
        rw [ha]
      rw [List.foldl_cons, hstay, ih]

/-- From `a` on every event of the stream was processed without an exception. -/
def SurvivesFrom (rt : EventRuntime) (a : Agent) (stream : List Delivery) : Prop :=
  (stream.foldl (deliver rt) a).raised = none ∧
    (stream.foldl (deliver rt) a).outcomes.length = a.outcomes.length + stream.length

theorem survivesFrom_cons {outcome : Outcome} {stream : List Delivery} (ha : a.raised = none)
    (h : (processEvent rt d.env d.event a.locals).1 = .ok outcome) :
    SurvivesFrom rt a (d :: stream) ↔ SurvivesFrom rt (deliver rt a d) stream := by
  have hlength : (deliver rt a d).outcomes.length = a.outcomes.length + 1 := by
    rw [deliver_of_ok ha h]
    simp
  unfold SurvivesFrom
  rw [List.foldl_cons, List.length_cons, hlength, Nat.add_right_comm, Nat.add_assoc a.outcomes.length]

theorem survivesFrom_of_bound {stream : List Delivery} (ha : a.raised = none)
    (hbound : a.locals.isDga.isSome = true) : SurvivesFrom rt a stream := by
  induction stream generalizing a with
  | nil => exact ⟨ha, rfl⟩
  | cons d stream ih =>
      have hstep : ∃ outcome, (processEvent rt d.env d.event a.locals).1 = .ok outcome ∧
          (processEvent rt d.env d.event a.locals).2.isDga.isSome := by
        cases hreads : readsIsDga rt d with
        | true => exact processEvent_of_bound hreads (by rw [hbound, Bool.true_or])
        | false =>
            obtain ⟨outcome, ho, hsame⟩ := processEvent_total_of_not_reads hreads a.locals
            exact ⟨outcome, ho, (congrArg Option.isSome hsame).trans hbound⟩
      obtain ⟨outcome, ho, hsome⟩ := hstep
      rw [survivesFrom_cons ha ho, deliver_of_ok ha ho]
      exact ih rfl hsome

/-- While `is_dga` is unbound, all depends on the first event that reads it. -/
theorem survivesFrom_iff_of_unbound {stream : List Delivery} (ha : a.raised = none)
    (hunbound : a.locals.isDga = none) :
    SurvivesFrom rt a stream ↔
      ∀ d, stream.find? (readsIsDga rt) = some d → infersInTime rt d = true := by
  induction stream generalizing a with
  | nil => exact iff_of_true ⟨ha, rfl⟩ (fun d h => by cases h)
  | cons d stream ih =>
      cases hreads : readsIsDga rt d with
      | false =>
          obtain ⟨outcome, ho, hsame⟩ := processEvent_total_of_not_reads hreads a.locals
          rw [survivesFrom_cons ha ho, deliver_of_ok ha ho, List.find?_cons_of_neg (by simp [hreads])]
          exact ih rfl (Eq.trans hsame hunbound)
      | true =>
          rw [List.find?_cons_of_pos hreads]
          cases hinfers : infersInTime rt d with
          | true =>
              obtain ⟨outcome, ho, hsome⟩ := processEvent_of_bound (s := a.locals) hreads
                (by rw [hinfers, Bool.or_true])
              rw [survivesFrom_cons ha ho, deliver_of_ok ha ho]
              refine iff_of_true (survivesFrom_of_bound rfl hsome) ?_
              rintro d' ⟨⟩
              exact hinfers
          | false =>
              have hraised := deliver_of_error ha
                (processEvent_of_unbound (s := a.locals) hreads (by rw [hunbound, hinfers]; rfl))
              refine iff_of_false (fun h => ?_) fun h => ?_
              · have hnone := h.1
                rw [List.foldl_cons, foldl_deliver_of_raised hraised, hraised] at hnone
                cases hnone
              · rw [h d rfl] at hinfers
                cases hinfers

end NeuralSoc.Stream
