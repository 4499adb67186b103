import NeuralSoc.Stream.Theorems

/-! # Events whose fields stop the rules -/

namespace NeuralSoc.Stream

/-! ## Casts -/

/-- A list or an object has no number, and an integer of that size no float. -/
def FloatReadable : Json → Prop
  | .int i => i.natAbs < 2 ^ 1024 - 2 ^ 970
  | .arr _ | .obj _ => False
  | _ => True

def IntReadable : Json → Prop
  | .float (.inf _) | .arr _ | .obj _ => False
  | _ => True

section

variable (rt : EventRuntime)

/-- The number that a field stands for; zero when it is missing or its text is no number. -/
def floatValue (val : Json) : PyFloat :=
  if isZeekNull val then .fin 0
  else
    match val with
    | .bool b => .fin (if b then 1 else 0)
    | .int i => .fin i
    | .float x => x
    | .str s => (rt.floatOfStr s).getD (.fin 0)
    | _ => .fin 0

def intValue (val : Json) : ℤ :=
  if isZeekNull val then 0
  else
    match val with
    | .bool b => if b then 1 else 0
    | .int i => i
    | .float (.fin q) => q.num.tdiv q.den
    | .str s => (rt.intOfStr s).getD 0
    | _ => 0

theorem isZeekNull_cases {val : Json} (h : isZeekNull val = true) :
    val = .str "-" ∨ val = .null ∨ val = .str "" := by
  simpa [isZeekNull, or_assoc] using h

/-- `safe_float` returns the number of every field that it can read, and raises for the others. -/
theorem safeFloat_ok_iff {val : Json} {x : PyFloat} :
    safeFloat rt val = .ok x ↔ FloatReadable val ∧ floatValue rt val = x := by
  unfold safeFloat floatValue
  by_cases h : isZeekNull val = true
  · have hread : FloatReadable val := by
      rcases isZeekNull_cases h with rfl | rfl | rfl
      · trivial
      · trivial
      · trivial
    rw [if_pos h, if_pos h, Except.ok.injEq]
    exact (and_iff_right hread).symm
  · rw [if_neg h, if_neg h]
    cases val with
    | null => exact absurd rfl h
    | bool _ | float _ | lone _ => simp [toFloat, orValueError, FloatReadable]
    | int i =>
        by_cases hsize : i.natAbs < 2 ^ 1024 - 2 ^ 970
        · simp only [toFloat, orValueError, FloatReadable, hsize, ↓reduceIte, true_and, Except.ok.injEq]
        · simp only [toFloat, orValueError, FloatReadable, hsize, ↓reduceIte, false_and, reduceCtorEq]
    | str s =>
        cases hread : rt.floatOfStr s with
        | none => simp [toFloat, orValueError, FloatReadable, hread]
        | some y => simp [toFloat, orValueError, FloatReadable, hread]
    | arr _ | obj _ => simp [toFloat, orValueError, FloatReadable]

theorem safeInt_ok_iff {val : Json} {i : ℤ} : safeInt rt val = .ok i ↔ IntReadable val ∧ intValue rt val = i := by
  unfold safeInt intValue
  by_cases h : isZeekNull val = true
  · have hread : IntReadable val := by
      rcases isZeekNull_cases h with rfl | rfl | rfl
      · trivial
      · trivial
      · trivial
    rw [if_pos h, if_pos h, Except.ok.injEq]
    exact (and_iff_right hread).symm
  · rw [if_neg h, if_neg h]
    cases val with
    | null => exact absurd rfl h
    | bool _ | int _ | lone _ => simp [toInt, orValueError, IntReadable]
    | float x => cases x <;> simp [toInt, orValueError, IntReadable]
    | str s =>
        cases hread : rt.intOfStr s with
        | none => simp [toInt, orValueError, IntReadable, hread]
        | some j => simp [toInt, orValueError, IntReadable, hread]
    | arr _ | obj _ => simp [toInt, orValueError, IntReadable]

theorem exists_safeFloat (val : Json) : (∃ x, safeFloat rt val = .ok x) ↔ FloatReadable val := by
  simp only [safeFloat_ok_iff, exists_and_left, exists_eq', and_true]

theorem exists_safeInt (val : Json) : (∃ i, safeInt rt val = .ok i) ↔ IntReadable val := by
  simp only [safeInt_ok_iff, exists_and_left, exists_eq', and_true]

/-- Only a positive duration makes a float of the bytes. -/
theorem exists_bytesPerSec (total : ℤ) (duration : PyFloat) :
    (∃ rate, bytesPerSec rt total duration = .ok rate) ↔
      (PyFloat.lt (.fin 0) duration = true → FloatReadable (.int total)) := by
  have hcast : ∀ rate : PyFloat, (∃ r, (do
      let _ ← toFloat rt.toRuntime (.int total)
      return rate) = Except.ok r) ↔ FloatReadable (.int total) := by
    intro rate
    simp only [toFloat, FloatReadable]
    split
    · next h => exact iff_of_true ⟨rate, rfl⟩ h
    · next h => exact iff_of_false nofun h
  cases duration with
  | nan => exact iff_of_true ⟨_, rfl⟩ nofun
  | inf neg =>
      cases neg with
      | true => exact iff_of_true ⟨_, rfl⟩ nofun
      | false => exact (hcast (.fin 0)).trans (imp_iff_right rfl).symm
  | fin d =>
      simp only [bytesPerSec, PyFloat.lt_fin, decide_eq_true_eq]
      split
      · next hd => exact (hcast _).trans (imp_iff_right hd).symm
      · next hd => exact iff_of_true ⟨_, rfl⟩ fun h => absurd h hd

end

/-! ## Events -/

section

variable (rt : EventRuntime) (event : Object)

/-- The fields of a connection can be cast, and if its duration is positive so can the sum of its bytes. -/
structure FlowReadable : Prop where
  duration : FloatReadable (event.get "duration")
  origBytes : IntReadable (event.get "orig_bytes")
  respBytes : IntReadable (event.get "resp_bytes")
  rate : PyFloat.lt (.fin 0) (floatValue rt (event.get "duration")) = true →
    FloatReadable (.int (intValue rt (event.get "orig_bytes") + intValue rt (event.get "resp_bytes")))

theorem exists_extractFlowFeatures :
    (∃ features, extractFlowFeatures rt event = .ok features) ↔ FlowReadable rt event := by
  unfold extractFlowFeatures
  have hduration := exists_safeFloat rt (event.get "duration")
  have horig := exists_safeInt rt (event.get "orig_bytes")
  have hresp := exists_safeInt rt (event.get "resp_bytes")
  cases hd : safeFloat rt (event.get "duration") with
  | error e =>
      rw [hd] at hduration
      exact iff_of_false nofun fun h => nomatch hduration.mpr h.duration
  | ok d =>
      cases ho : safeInt rt (event.get "orig_bytes") with
      | error e =>
          rw [ho] at horig
          exact iff_of_false nofun fun h => nomatch horig.mpr h.origBytes
      | ok o =>
          cases hr : safeInt rt (event.get "resp_bytes") with
          | error e =>
              rw [hr] at hresp
              exact iff_of_false nofun fun h => nomatch hresp.mpr h.respBytes
          | ok r =>
              have hfields : FlowReadable rt event ↔ ∃ rate, bytesPerSec rt (o + r) d = .ok rate := by
                rw [exists_bytesPerSec, ← ((safeFloat_ok_iff rt).mp hd).2, ← ((safeInt_ok_iff rt).mp ho).2,
                  ← ((safeInt_ok_iff rt).mp hr).2]
                exact ⟨FlowReadable.rate, fun h => ⟨hduration.mp ⟨d, hd⟩, horig.mp ⟨o, ho⟩, hresp.mp ⟨r, hr⟩, h⟩⟩
              rw [hfields]
              cases hb : bytesPerSec rt (o + r) d with
              | error e =>
                  refine iff_of_false ?_ nofun
                  simp [bind, Except.bind, hb]
              | ok rate =>
                  refine iff_of_true ?_ ⟨rate, rfl⟩
                  simp [bind, Except.bind, pure, Except.pure, hb]

theorem getD_cases (key : String) (default : Json) :
    event.get key = .null ∧ event.getD key default = default ∨ event.getD key default = event.get key := by
  unfold Object.get Object.getD
  cases event.lookup key with
  | none => exact .inl ⟨rfl, rfl⟩
  | some val => exact .inr rfl

theorem exists_extractDnsFeatures :
    (∃ features, extractDnsFeatures rt event = .ok features) ↔
      ((event.get "query").truthy = true → (event.get "query").isStr = true) := by
  have hquery : (((event.getD "query" (.str "")).truthy = true → (event.getD "query" (.str "")).isStr = true)) ↔
      ((event.get "query").truthy = true → (event.get "query").isStr = true) := by
    rcases getD_cases event "query" (.str "") with ⟨h, h'⟩ | h
    · rw [h, h']
      exact iff_of_true (fun _ => rfl) nofun
    · rw [h]
  rw [← hquery, extractDnsFeatures]
  dsimp only
  split
  · next h => exact iff_of_true ⟨_, rfl⟩ fun ht => by rw [ht] at h; cases h
  · next h =>
      have ht : (event.getD "query" (.str "")).truthy = true := by simpa using h
      rw [imp_iff_right ht]
      split
      · next hs => exact iff_of_false nofun fun h => by rw [h] at hs; cases hs
      · next hs => exact iff_of_true ⟨_, rfl⟩ (by simpa using hs)

theorem intReadable_getD (key : String) (i : ℤ) :
    IntReadable (event.getD key (.int i)) ↔ IntReadable (event.get key) := by
  rcases getD_cases event key (.int i) with ⟨h, h'⟩ | h
  · rw [h, h']
    exact Iff.rfl
  · rw [h]

theorem exists_extractFeatures :
    (∃ features, extractFeatures rt event = .ok features) ↔
      (event.get "event_type" = .str "dns" →
        (event.get "query").truthy = true → (event.get "query").isStr = true) ∧
      (event.get "event_type" = .str "conn" → FlowReadable rt event) := by
  unfold extractFeatures
  dsimp only
  by_cases hdns : event.get "event_type" = .str "dns"
  · rw [if_pos hdns, imp_iff_right hdns, hdns]
    exact (exists_extractDnsFeatures rt event).trans (and_iff_left (fun h => nomatch Json.str.inj h)).symm
  · rw [if_neg hdns]
    by_cases hconn : event.get "event_type" = .str "conn"
    · rw [if_pos hconn, imp_iff_right hconn, exists_extractFlowFeatures]
      exact (and_iff_right fun h => absurd h hdns).symm
    · rw [if_neg hconn]
      exact iff_of_true ⟨_, rfl⟩ ⟨fun h => absurd h hdns, fun h => absurd h hconn⟩

theorem exists_evaluateRules (fingerprints : List String) (features : Object) :
    (∃ rules, evaluateRules rt fingerprints event features = .ok rules) ↔
      (event.get "event_type" = .str "conn" →
        IntReadable (event.get "orig_pkts") ∧ IntReadable (event.get "id.resp_p")) := by
  rw [← intReadable_getD event "orig_pkts" 0, ← intReadable_getD event "id.resp_p" 0, evaluateRules]
  dsimp only
  split
  · next hconn =>
      rw [imp_iff_right hconn, ← exists_safeInt rt, ← exists_safeInt rt]
      cases hpkts : safeInt rt (event.getD "orig_pkts" (.int 0)) with
      | error e => exact iff_of_false nofun (by rintro ⟨⟨_, h⟩, -⟩; cases h)
      | ok origPkts =>
          cases hport : safeInt rt (event.getD "id.resp_p" (.int 0)) with
          | error e =>
              refine iff_of_false ?_ (by rintro ⟨-, _, h⟩; cases h)
              simp [bind, Except.bind]
          | ok respPort => exact iff_of_true ⟨_, rfl⟩ ⟨⟨origPkts, rfl⟩, ⟨respPort, rfl⟩⟩
  · next hconn =>
      split
      · exact iff_of_true ⟨_, rfl⟩ fun h => absurd h hconn
      · exact iff_of_true ⟨_, rfl⟩ fun h => absurd h hconn

/-- A DNS query is empty or a text; the fields of a connection and the two that only the rules read are numbers
as far as the casts go. -/
structure Readable : Prop where
  query : event.get "event_type" = .str "dns" → (event.get "query").truthy = true → (event.get "query").isStr = true
  flow : event.get "event_type" = .str "conn" → FlowReadable rt event
  origPkts : event.get "event_type" = .str "conn" → IntReadable (event.get "orig_pkts")
  respPort : event.get "event_type" = .str "conn" → IntReadable (event.get "id.resp_p")

theorem exists_rules (fingerprints : List String) :
    (∃ features, extractFeatures rt event = .ok features ∧
        ∃ rules, evaluateRules rt fingerprints event features = .ok rules) ↔ Readable rt event := by
  constructor
  · rintro ⟨features, hfeatures, hrules⟩
    have hextract := (exists_extractFeatures rt event).mp ⟨features, hfeatures⟩
    have hevaluate := (exists_evaluateRules rt event fingerprints features).mp hrules
    exact ⟨hextract.1, hextract.2, fun h => (hevaluate h).1, fun h => (hevaluate h).2⟩
  · intro h
    obtain ⟨features, hfeatures⟩ := (exists_extractFeatures rt event).mpr ⟨h.query, h.flow⟩
    refine ⟨features, hfeatures, (exists_evaluateRules rt event fingerprints features).mpr ?_⟩
    exact fun hconn => ⟨h.origPkts hconn, h.respPort hconn⟩

end

/-! ## The later stages only add detections -/

def Extends (s s' : Coroutine) : Prop := s.detections <+: s'.detections

instance : IsPreorder Coroutine Extends where
  refl _ := List.prefix_refl _
  trans _ _ _ := List.IsPrefix.trans

section

variable (rt : EventRuntime) (env : EventEnv) (event features : Object)

theorem extends_detect (det : Object) : Handler.Keeps Extends (detect det) := fun _ => List.prefix_append _ _

theorem extends_inferDns : Handler.Keeps Extends (inferDns rt env event features) := by
  unfold inferDns
  refine .bind (.modify fun _ => List.prefix_refl _) fun _ => ?_
  split
  · refine .bind (.lift _) fun r => .bind (.modify fun _ => List.prefix_refl _) fun _ => ?_
    exact keeps_detectIf extends_detect _ _
  · exact .pure ()

theorem extends_lookupDomainAge : Handler.Keeps Extends (lookupDomainAge env) := by
  refine .bind keeps_readQuery fun query => .bind (.modify fun _ => List.prefix_refl _) fun _ => ?_
  refine .bind (.lift _) fun age => ?_
  cases age with
  | some ageDays => exact keeps_detectIf extends_detect _ _
  | none => exact .pure ()

theorem extends_dnsStages : Handler.Keeps Extends (dnsStages rt env event features) := by
  unfold dnsStages
  refine .bind (extends_inferDns rt env event features).attempt fun _ => ?_
  refine .bind (.bind .get fun s => .expect _ _) fun isDga => ?_
  have htrack := (keeps_trackDns extends_detect rt env event).attempt
  dsimp only
  split
  · exact (extends_lookupDomainAge env).attempt.bind fun _ => htrack
  · exact htrack

theorem extends_remainingStages : Handler.Keeps Extends (remainingStages rt env event features) :=
  keeps_remainingStages extends_detect rt env event features (.modify fun _ => List.prefix_refl _)

theorem remainingStages_outcome {outcome : Outcome} {s s' : Coroutine}
    (h : remainingStages rt env event features s = (.ok outcome, s')) : outcome = .finished := by
  obtain ⟨_, _, -, h⟩ := Handler.bind_eq_ok.mp h
  obtain ⟨_, _, -, h⟩ := Handler.bind_eq_ok.mp h
  obtain ⟨_, _, -, h⟩ := Handler.bind_eq_ok.mp h
  exact (Handler.pure_eq_ok.mp h).1

variable {rt env event features}

theorem processEvent_of_rules {rules : List Object} (hfeatures : extractFeatures rt event = .ok features)
    (hrules : evaluateRules rt env.fingerprints event features = .ok rules) (s : Coroutine) :
    (processEvent rt env event s).1 ≠ .ok .skipped ∧ rules <+: (processEvent rt env event s).2.detections := by
  have hrun : processEvent rt env event s = (onType event "dns" (dnsStages rt env event features) >>= fun _ =>
      remainingStages rt env event features) { s with detections := rules } := by
    have hdetections : rules = (evaluateRules rt env.fingerprints event features).toOption.getD [] := by
      rw [hrules]
      rfl
    rw [hdetections, processEvent, hfeatures]
    rfl
  have hdns := keeps_onType event "dns" (extends_dnsStages rt env event features)
  rw [hrun]
  constructor
  · intro hskipped
    obtain ⟨_, _, -, h⟩ := Handler.bind_eq_ok.mp (Prod.ext hskipped rfl)
    exact nomatch remainingStages_outcome rt env event features h
  · exact (hdns.bind fun _ => extends_remainingStages rt env event features) { s with detections := rules }

end

/-! ## Field types -/

/-- Extraction and rules return, whatever the fingerprints; then the event is not skipped and keeps the detections
of its rules. -/
def RulesKept (rt : EventRuntime) (event : Object) : Prop :=
  ∀ fingerprints, ∃ features, extractFeatures rt event = .ok features ∧
    ∃ rules, evaluateRules rt fingerprints event features = .ok rules ∧
      ∀ (env : EventEnv) (s : Coroutine), env.fingerprints = fingerprints →
        (processEvent rt env event s).1 ≠ .ok .skipped ∧ rules <+: (processEvent rt env event s).2.detections

theorem rules_kept_iff (rt : EventRuntime) (event : Object) : RulesKept rt event ↔ Readable rt event := by
  constructor
  · intro h
    obtain ⟨features, hfeatures, rules, hrules, -⟩ := h []
    exact (exists_rules rt event []).mp ⟨features, hfeatures, rules, hrules⟩
  · intro h fingerprints
    obtain ⟨features, hfeatures, rules, hrules⟩ := (exists_rules rt event fingerprints).mpr h
    refine ⟨features, hfeatures, rules, hrules, ?_⟩
    rintro env s rfl
    exact processEvent_of_rules hfeatures hrules s

/-- A list for the duration, and an infinite number of packets that only the rules read. -/
theorem field_type_stops_rules :
    ¬RulesKept plainEventRuntime [("event_type", .str "conn"), ("duration", .arr [.int 1])] ∧
      ¬RulesKept plainEventRuntime [("event_type", .str "conn"), ("orig_pkts", .float (.inf false))] ∧
      ¬RulesKept plainEventRuntime [("event_type", .str "dns"), ("query", .int 5)] := by
  refine ⟨fun h => ?_, fun h => ?_, fun h => ?_⟩
  · obtain ⟨features, hfeatures, -⟩ := h []
    exact nomatch hfeatures
  · obtain ⟨features, hfeatures, rules, hrules, -⟩ := h []
    exact nomatch hrules
  · obtain ⟨features, hfeatures, -⟩ := h []
    exact nomatch hfeatures

end NeuralSoc.Stream
