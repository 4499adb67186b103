import NeuralSoc.Correlation.Lemmas.Incident
import NeuralSoc.Correlation.Lemmas.Risk

/-!
# What the loop over the window collects

The sets and the severity of an incident, in terms of the alerts of its window. An alert whose class,
destination or tactic cannot be put into a set is read up to that field.
-/

namespace NeuralSoc.Correlation

variable {rt : Runtime}

/-! ## Lists that stand for sets -/

def Listed (x : Json) (xs : List Json) : Prop := ∃ y ∈ xs, sameKey x y = true

/-- The list holds the values of `P`, each once. -/
structure Lists (xs : List Json) (P : Json → Prop) : Prop where
  distinct : xs.Pairwise fun x y => sameKey x y = false
  exactly : ∀ x, Listed x xs ↔ ∃ y, P y ∧ sameKey x y = true

theorem sameKey_comm (x y : Json) : sameKey x y = sameKey y x := by
  rw [Bool.eq_iff_iff, sameKey_iff, sameKey_iff, eq_comm]

theorem listed_of_mem {x : Json} {xs : List Json} (h : x ∈ xs) : Listed x xs :=
  ⟨x, h, sameKey_iff.mpr rfl⟩

def collect (xs s : List Json) : List Json := xs.foldl (fun s x => appendNew x s) s

theorem listed_appendNew {x y : Json} {s : List Json} :
    Listed x (appendNew y s) ↔ Listed x s ∨ y.truthy = true ∧ sameKey x y = true := by
  unfold appendNew
  split
  · next hnew =>
      rw [Bool.and_eq_true] at hnew
      simp only [Listed, List.mem_append, List.mem_singleton, or_and_right, exists_or,
        exists_eq_left, hnew.1, true_and]
  · next hold =>
      constructor
      · exact .inl
      · rintro (h | ⟨hy, hxy⟩)
        · exact h
        · -- `y` is in the list already
          rw [hy, Bool.true_and, Bool.not_eq_true', Bool.not_eq_false, List.any_eq_true] at hold
          obtain ⟨z, hz, hyz⟩ := hold
          exact ⟨z, hz, sameKey_iff.mpr ((sameKey_iff.mp hxy).trans (sameKey_iff.mp hyz))⟩

theorem distinct_appendNew {y : Json} {s : List Json}
    (h : s.Pairwise fun x y => sameKey x y = false) :
    (appendNew y s).Pairwise fun x y => sameKey x y = false := by
  unfold appendNew
  split
  · next hnew =>
      rw [Bool.and_eq_true, Bool.not_eq_true', List.any_eq_false] at hnew
      refine List.pairwise_append.mpr ⟨h, List.pairwise_singleton _ _, ?_⟩
      intro x hx z hz
      rw [List.mem_singleton.mp hz, sameKey_comm]
      exact Bool.not_eq_true _ ▸ hnew.2 x hx
  · exact h

theorem lists_collect {xs s : List Json} {P : Json → Prop} (h : Lists s P) :
    Lists (collect xs s) fun y => P y ∨ y.truthy = true ∧ y ∈ xs := by
  induction xs generalizing s P with
  | nil => simpa [collect] using h
  | cons x xs ih =>
      have hstep : Lists (appendNew x s) fun y => P y ∨ y.truthy = true ∧ y = x := by
        refine ⟨distinct_appendNew h.distinct, fun z => ?_⟩
        rw [listed_appendNew, h.exactly]
        constructor
        · rintro (⟨y, hy, hzy⟩ | ⟨hx, hzx⟩)
          · exact ⟨y, .inl hy, hzy⟩
          · exact ⟨x, .inr ⟨hx, rfl⟩, hzx⟩
        · rintro ⟨y, hy | ⟨hx, rfl⟩, hzy⟩
          · exact .inl ⟨y, hy, hzy⟩
          · exact .inr ⟨hx, hzy⟩
      have hrest := ih hstep
      refine ⟨hrest.distinct, fun z => (hrest.exactly z).trans ?_⟩
      simp only [List.mem_cons, and_or_left, or_assoc]

theorem lists_congr {xs : List Json} {P Q : Json → Prop} (h : Lists xs P) (hPQ : ∀ y, P y ↔ Q y) :
    Lists xs Q :=
  ⟨h.distinct, fun x => (h.exactly x).trans (exists_congr fun y => and_congr_left fun _ => hPQ y)⟩

theorem lists_nil : Lists [] fun _ => False := ⟨List.Pairwise.nil, fun x => by simp [Listed]⟩

theorem lists_singleton (y : Json) : Lists [y] fun x => x = y :=
  ⟨List.pairwise_singleton _ _, fun x => by simp [Listed]⟩

theorem lists_collect_nil {xs : List Json} :
    Lists (collect xs []) fun y => y.truthy = true ∧ y ∈ xs :=
  lists_congr (lists_collect lists_nil) fun _ => by rw [false_or]

theorem lists_appendNew {x : Json} {s : List Json} {P : Json → Prop} (h : Lists s P) :
    Lists (appendNew x s) fun y => P y ∨ y.truthy = true ∧ y = x :=
  have hone : Lists (collect [x] s) fun y => P y ∨ y.truthy = true ∧ y ∈ [x] := lists_collect h
  lists_congr hone fun y => by rw [List.mem_singleton]

theorem Lists.eq_nil {xs : List Json} {P : Json → Prop} (h : Lists xs P) (hno : ∀ y, ¬ P y) : xs = [] := by
  cases xs with
  | nil => rfl
  | cons x xs =>
      obtain ⟨y, hy, -⟩ := (h.exactly x).mp (listed_of_mem List.mem_cons_self)
      exact absurd hy (hno y)

/-! ## One alert -/

/-- The value can be added to a set, or is left out. -/
def addable (x : Json) : Bool := !x.truthy || hashable x

def classRead (a : Object) : Bool := addable (a.get "threat_class")

def destinationRead (a : Object) : Bool := classRead a && addable (a.get "destination_ip")

def tacticOf (a : Object) : Json := (a.get "mitre_tactic").or (a.get "tactic")

def allRead (a : Object) : Bool := destinationRead a && addable (tacticOf a)

theorem addTruthy_eq (x : Json) (s : List Json) :
    addTruthy x s = if addable x then some (appendNew x s) else none := by
  unfold addTruthy appendNew addable
  cases ht : x.truthy with
  | false => simp
  | true =>
      cases hh : hashable x with
      | false => simp
      | true => cases hs : s.any (sameKey x) <;> simp

theorem absorb_eq (w : Window) (a : Object) :
    w.absorb rt a =
      { parsedAlerts := w.parsedAlerts ++ [a]
        threatClasses :=
          if classRead a then appendNew (a.get "threat_class") w.threatClasses else w.threatClasses
        affectedEntities :=
          if destinationRead a then appendNew (a.get "destination_ip") w.affectedEntities
          else w.affectedEntities
        relatedAlertIds :=
          if destinationRead a then appendNew (a.get "alert_id") w.relatedAlertIds
          else w.relatedAlertIds
        tactics := if allRead a then appendNew (tacticOf a) w.tactics else w.tactics
        maxSev := if allRead a then raiseSev rt a w.maxSev else w.maxSev } := by
  simp only [classRead, destinationRead, allRead, tacticOf]
  by_cases hc : addable (a.get "threat_class") = true
  · by_cases hd : addable (a.get "destination_ip") = true
    · by_cases ht : addable ((a.get "mitre_tactic").or (a.get "tactic")) = true
      · simp [Window.absorb, addTruthy_eq, hc, hd, ht]
      · simp [Window.absorb, addTruthy_eq, hc, hd, ht]
    · simp [Window.absorb, addTruthy_eq, hc, hd]
  · simp [Window.absorb, addTruthy_eq, hc]

/-! ## The whole window -/

theorem collect_filter_cons (p : Object → Bool) (f : Object → Json) (a : Object) (as : List Object)
    (s : List Json) :
    collect (((a :: as).filter p).map f) s =
      collect ((as.filter p).map f) (if p a then appendNew (f a) s else s) := by
  cases hp : p a with
  | false => simp [hp]
  | true => simp [hp, collect]

theorem mem_selected {p : Object → Bool} {f : Object → Json} {as : List Object} {y : Json} :
    y ∈ (as.filter p).map f ↔ ∃ b ∈ as, p b = true ∧ f b = y := by
  simp only [List.mem_map, List.mem_filter, and_assoc]

theorem lists_selected (p : Object → Bool) (f : Object → Json) (as : List Object) :
    Lists (collect ((as.filter p).map f) []) fun y => y.truthy = true ∧ ∃ b ∈ as, p b = true ∧ f b = y :=
  lists_congr lists_collect_nil fun _ => and_congr_right fun _ => mem_selected

/-- What the loop makes of the window `w` it starts with. -/
theorem foldl_absorb (as : List Object) (w : Window) :
    as.foldl (Window.absorb rt) w =
      { parsedAlerts := w.parsedAlerts ++ as
        threatClasses := collect ((as.filter classRead).map (·.get "threat_class")) w.threatClasses
        affectedEntities :=
          collect ((as.filter destinationRead).map (·.get "destination_ip")) w.affectedEntities
        relatedAlertIds :=
          collect ((as.filter destinationRead).map (·.get "alert_id")) w.relatedAlertIds
        tactics := collect ((as.filter allRead).map tacticOf) w.tactics
        maxSev := (as.filter allRead).foldl (fun m a => raiseSev rt a m) w.maxSev } := by
  induction as generalizing w with
  | nil => simp [collect]
  | cons a as ih =>
      rw [List.foldl_cons, ih, absorb_eq]
      simp only [collect_filter_cons, List.append_assoc, List.singleton_append, Window.mk.injEq,
        true_and]
      cases ha : allRead a with
      | false => simp [ha]
      | true => simp [ha]

theorem gather_cons (ip : String) (alert b : Object) (bs : List Object) :
    gather rt ip alert (b :: bs) =
      { parsedAlerts := b :: bs
        threatClasses :=
          if collect (((b :: bs).filter classRead).map (·.get "threat_class")) [] = [] then
            [.str (threatClass rt alert)]
          else collect (((b :: bs).filter classRead).map (·.get "threat_class")) []
        affectedEntities :=
          collect (((b :: bs).filter destinationRead).map (·.get "destination_ip")) [.str ip]
        relatedAlertIds :=
          appendNew (alert.get "alert_id")
            (collect (((b :: bs).filter destinationRead).map (·.get "alert_id")) [])
        tactics := collect (((b :: bs).filter allRead).map tacticOf) []
        maxSev := ((b :: bs).filter allRead).foldl (fun m a => raiseSev rt a m)
          (alert.getD "severity" (.str "high")) } := by
  have hloop : gather rt ip alert (b :: bs) =
      ((b :: bs).foldl (Window.absorb rt) (.start ip alert)).finish rt alert := rfl
  rw [hloop, foldl_absorb]
  simp only [Window.start, Window.finish, List.nil_append, reduceCtorEq, ↓reduceIte]
  rfl

/-! ## The severity -/

/-- The weight the loop compares by: an unknown severity weighs as a low one. -/
def severityWeight (rt : Runtime) (severity : Json) : ℕ := displayWeight (rt.lower (rt.str severity))

def severityOf (a : Object) : Json := a.getD "severity" (.str "low")

theorem severityWeight_raiseSev (hlower : ∀ s, rt.lower (rt.lower s) = rt.lower s) (a : Object)
    (m : Json) :
    severityWeight rt (raiseSev rt a m) = max (severityWeight rt m) (severityWeight rt (severityOf a)) := by
  unfold raiseSev
  dsimp only
  split
  · next hge =>
      rw [severityWeight, Runtime.str_str, hlower]
      exact (max_eq_right hge).symm
  · next hlt => exact (max_eq_left (not_le.mp hlt).le).symm

theorem severityWeight_foldl (hlower : ∀ s, rt.lower (rt.lower s) = rt.lower s) (as : List Object)
    (m : Json) :
    severityWeight rt (as.foldl (fun m a => raiseSev rt a m) m) =
      as.foldl (fun n a => max n (severityWeight rt (severityOf a))) (severityWeight rt m) := by
  induction as generalizing m with
  | nil => rfl
  | cons a as ih => rw [List.foldl_cons, ih, severityWeight_raiseSev hlower, List.foldl_cons]

theorem foldl_max_spec {α : Type*} (f : α → ℕ) (as : List α) (n : ℕ) :
    n ≤ as.foldl (fun n a => max n (f a)) n ∧ (∀ a ∈ as, f a ≤ as.foldl (fun n a => max n (f a)) n) ∧
      (as.foldl (fun n a => max n (f a)) n = n ∨ ∃ a ∈ as, as.foldl (fun n a => max n (f a)) n = f a) := by
  induction as generalizing n with
  | nil => exact ⟨le_rfl, nofun, .inl rfl⟩
  | cons a as ih =>
      obtain ⟨hge, hall, hmem⟩ := ih (max n (f a))
      rw [List.foldl_cons]
      refine ⟨(le_max_left _ _).trans hge, ?_, ?_⟩
      · intro b hb
        rcases List.mem_cons.mp hb with rfl | hb
        · exact (le_max_right _ _).trans hge
        · exact hall b hb
      · rcases hmem with hmem | ⟨b, hb, hmem⟩
        · rcases max_choice n (f a) with hn | hf
          · exact .inl (hmem.trans hn)
          · exact .inr ⟨a, List.mem_cons_self, hmem.trans hf⟩
        · exact .inr ⟨b, List.mem_cons_of_mem _ hb, hmem⟩

/-- An alert that carries a severity is a bound the loop only raises. -/
theorem severity_of_window (hlower : ∀ s, rt.lower (rt.lower s) = rt.lower s) {alert : Object}
    {as : List Object} (halert : alert ∈ as) (hgiven : (alert.lookup "severity").isSome = true) :
    let m := (as.filter allRead).foldl (fun m a => raiseSev rt a m) (alert.getD "severity" (.str "high"))
    (∃ b ∈ as, (allRead b = true ∨ b = alert) ∧ severityWeight rt m = severityWeight rt (severityOf b)) ∧
      ∀ b ∈ as, allRead b = true ∨ b = alert → severityWeight rt (severityOf b) ≤ severityWeight rt m := by
  obtain ⟨v, hv⟩ := Option.isSome_iff_exists.mp hgiven
  have hown : alert.getD "severity" (.str "high") = severityOf alert := by
    rw [severityOf, Object.getD, Object.getD, hv]
    rfl
  dsimp only
  rw [hown, severityWeight_foldl hlower]
  obtain ⟨hge, hmax, hmem⟩ := foldl_max_spec (fun a => severityWeight rt (severityOf a))
    (as.filter allRead) (severityWeight rt (severityOf alert))
  constructor
  · rcases hmem with hmem | ⟨b, hb, hmem⟩
    · exact ⟨alert, halert, .inr rfl, hmem⟩
    · obtain ⟨hb, hread⟩ := List.mem_filter.mp hb
      exact ⟨b, hb, .inl hread, hmem⟩
  · rintro b hb (hread | rfl)
    · exact hmax b (List.mem_filter.mpr ⟨hb, hread⟩)
    · exact hge

/-! ## The incident of a call -/

theorem buildIncident_some {env : CallEnv} {ip : String} {alert : Object} {threshold : ℚ}
    {snapshot : List Object} {i : Incident}
    (h : buildIncident rt env ip alert threshold snapshot = .ok (some i)) :
    calculateRiskScore rt (gather rt ip alert snapshot).parsedAlerts = .ok i.riskScore ∧
      i.riskScore.lt (.fin threshold) = false ∧
      i.affectedEntities = (gather rt ip alert snapshot).affectedEntities ∧
      i.threatClasses = (gather rt ip alert snapshot).threatClasses ∧
      i.tactics = (gather rt ip alert snapshot).tactics ∧
      i.severity = (gather rt ip alert snapshot).maxSev ∧
      i.relatedAlertIds = (gather rt ip alert snapshot).relatedAlertIds := by
  simp only [buildIncident, bind, Except.bind] at h
  cases hscore : calculateRiskScore rt (gather rt ip alert snapshot).parsedAlerts with
  | error e => simp [hscore] at h
  | ok risk =>
      cases hlt : risk.lt (.fin threshold) with
      | true => simp [hscore, hlt, pure, Except.pure] at h
      | false =>
          cases hsum : evidenceSummary rt ip (gather rt ip alert snapshot) with
          | error e => simp [hscore, hlt, hsum] at h
          | ok text =>
              simp only [hscore, hlt, hsum, Bool.false_eq_true, ↓reduceIte, pure, Except.pure,
                Except.ok.injEq, Option.some.injEq] at h
              subst h
              exact ⟨rfl, hlt, rfl, rfl, rfl, rfl, rfl⟩

/-- A call that returns an incident has admitted its alert and builds the incident from the kept ones. -/
theorem addAlert_some {ip : String} {env : CallEnv} {alert : Object} {threshold : ℚ} {c : Correlator}
    {i : Incident} (h : Answered rt ip (env, alert))
    (hi : (addAlert rt env alert threshold c).1 = .ok (some i)) :
    ∃ rest, ((addAlert rt env alert threshold c).2.store.keys ip).alerts = alert :: rest ∧
      buildIncident rt env ip alert threshold (alert :: rest) = .ok (some i) := by
  have hkeys := addAlert_keys h threshold c
  rw [(addAlert_answered h threshold c).1] at hi
  cases hsend : sendable alert with
  | false =>
      unfold runCorrelate at hi
      unfold sendable at hsend
      cases hid : alert.get "alert_id" with
      | lone units => simp [hid] at hi
      | _ => simp [hid] at hsend
  | true =>
      rw [runCorrelate_sendable h.link hsend] at hi
      dsimp only at hi
      split at hi
      · next hflag =>
          have hadm : refused (correlateArgs rt alert) (c.store.keys ip) = false := by
            by_contra href
            rw [Bool.not_eq_false] at href
            simp [Store.correlate, correlate, href] at hflag
          have halerts : ((addAlert rt env alert threshold c).2.store.keys ip).alerts =
              (alert :: (c.store.keys ip).alerts).take maxKept := by
            rw [hkeys]
            simp only [sentArgs, hsend, List.map_cons, List.map_nil, List.filter_cons_of_pos,
              List.filter_nil, window]
            exact correlate_alerts hadm
          refine ⟨(c.store.keys ip).alerts.take 99, halerts.trans rfl, ?_⟩
          have hsnap : (c.store.correlate rt ip alert).1.alertsSnapshot =
              alert :: (c.store.keys ip).alerts.take 99 :=
            (correlate_snapshot hadm hflag).trans (correlate_alerts hadm)
          rw [← hsnap]
          exact hi
      · cases hi

end NeuralSoc.Correlation
