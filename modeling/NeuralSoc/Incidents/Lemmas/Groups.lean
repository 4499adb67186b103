import Mathlib.Data.List.MinMax
import NeuralSoc.Correlation.Lemmas.Description
import NeuralSoc.Incidents.Synthesis

/-! # What a group holds, in terms of its alerts. -/

namespace NeuralSoc.Incidents

open Shell Correlation

variable {rt : Runtime} {now : Json → String}

/-- A text or null. -/
def TextOrNull (x : Json) : Prop := x = .null ∨ x.isStr = true

/-- The fields of an alert that end up in a set or a key are as GET /alerts sends them. -/
structure FromApi (a : Object) : Prop where
  source : TextOrNull (a.get "source_ip")
  destination : TextOrNull (a.get "destination_ip")
  threatClass : TextOrNull (a.get "threat_class")

theorem TextOrNull.hashable {x : Json} (h : TextOrNull x) : hashable x = true := by
  rcases h with rfl | h
  · rfl
  · cases x with
    | str s => rfl
    | lone units => rfl
    | _ => cases h

theorem isStr_sourceOf {a : Object} (h : FromApi a) : (sourceOf a).isStr = true := by
  rw [sourceOf, Json.or]
  rcases h.source with hnull | htext
  · rw [hnull]
    rfl
  · split
    · exact htext
    · rfl

theorem textOf_isSome {x : Json} (h : x.isStr = true) : (textOf x).isSome = true := by
  cases x with
  | str s => rfl
  | lone units => rfl
  | _ => cases h

theorem getD_or_get {a : Object} (k : String) (d : Json) : a.getD k d = d ∨ a.getD k d = a.get k := by
  unfold Object.getD Object.get
  cases a.lookup k with
  | none => exact .inl rfl
  | some v => exact .inr rfl

theorem TextOrNull.getD {a : Object} {k : String} (h : TextOrNull (a.get k)) (s : String) :
    TextOrNull (a.getD k (.str s)) := by
  rcases @getD_or_get a k (.str s) with heq | heq
  · rw [heq]
    exact .inr rfl
  · rw [heq]
    exact h

/-! ## Lists of texts that stand for sets -/

theorem lists_addKey (x y : Json) : Lists (addKey x [y]) fun z => z = y ∨ z = x := by
  unfold addKey
  split
  · next hsame =>
      have hkey : sameKey x y = true := by simpa using hsame
      refine ⟨List.pairwise_singleton _ _, fun z => ?_⟩
      simp only [Listed, List.mem_singleton, exists_eq_left, exists_eq_or_imp]
      refine ⟨.inl, fun h => h.elim id fun hzx => ?_⟩
      exact sameKey_iff.mpr ((sameKey_iff.mp hzx).trans (sameKey_iff.mp hkey))
  · next hne =>
      have hkey : sameKey x y = false := by simpa using hne
      refine ⟨?_, fun z => by simp [Listed]⟩
      rw [List.singleton_append, List.pairwise_cons]
      refine ⟨fun z hz => ?_, List.pairwise_singleton _ _⟩
      rw [List.mem_singleton.mp hz, sameKey_comm]
      exact hkey

/-! ## One alert -/

/-- The group with an alert of texts added to it. -/
def Group.grow (rt : Runtime) (a : Object) (inc : Group) : Group :=
  { inc with
    threatClasses := appendNew (a.get "threat_class") inc.threatClasses
    affectedEntities := appendNew (a.get "destination_ip") inc.affectedEntities
    relatedAlertIds :=
      if (a.get "alert_id").truthy then inc.relatedAlertIds ++ [a.get "alert_id"] else inc.relatedAlertIds
    maxSevScore :=
      if inc.maxSevScore < displayScore (severityOf rt a) then displayScore (severityOf rt a)
      else inc.maxSevScore
    severity :=
      if inc.maxSevScore < displayScore (severityOf rt a) then .str (severityOf rt a) else inc.severity
    groupAlerts := inc.groupAlerts ++ [a] }

theorem add_eq {a : Object} (h : FromApi a) (inc : Group) : inc.add rt a = .ok (inc.grow rt a) := by
  have hadd : ∀ x s, TextOrNull x → addTruthy x s = some (appendNew x s) := fun x s hx => by
    rw [addTruthy_eq, addable, hx.hashable, Bool.or_true, if_pos rfl]
  rw [Group.add, hadd _ _ h.threatClass]
  dsimp only
  rw [hadd _ _ h.destination]
  rfl

theorem newGroup_eq {a : Object} (h : FromApi a) :
    newGroup now a = .ok (.start now ((textOf (sourceOf a)).getD []) a) := by
  obtain ⟨src, hsrc⟩ := Option.isSome_iff_exists.mp (textOf_isSome (isStr_sourceOf h))
  rw [newGroup, hsrc]
  dsimp only
  rw [(h.destination.getD "").hashable]
  rfl

/-! ## Alerts of one source -/

def alertIds (alerts : List Object) : List Json := (alerts.map (·.get "alert_id")).filter Json.truthy

/-- The first alert of greatest weight. -/
def leading (rt : Runtime) (alerts : List Object) : Option Object :=
  alerts.argmax fun a => displayScore (severityOf rt a)

theorem leading_spec {alerts : List Object} {a : Object} (h : leading rt alerts = some a) :
    a ∈ alerts ∧ ∀ b ∈ alerts, displayScore (severityOf rt b) ≤ displayScore (severityOf rt a) :=
  ⟨List.argmax_mem h, fun _ hb => @List.le_of_mem_argmax _ _ _ (fun a => displayScore (severityOf rt a)) _ _ _ hb h⟩

/-- What a group holds after its alerts. -/
structure Collected (rt : Runtime) (now : Json → String) (src : Json) (alerts : List Object) (inc : Group) :
    Prop where
  incidentId : inc.incidentId = incidentIdOf ((textOf src).getD [])
  created : alerts.head?.map (timestampOf now) = some inc.createdTimestamp
  severity : ∃ a, leading rt alerts = some a ∧ inc.severity = .str (severityOf rt a) ∧
    inc.maxSevScore = displayScore (severityOf rt a)
  threatClasses : Lists inc.threatClasses fun y => y.truthy = true ∧ y ∈ alerts.map (·.get "threat_class")
  affectedEntities : ∃ first ∈ alerts, Lists inc.affectedEntities fun y =>
    (y = src ∨ y = first.getD "destination_ip" (.str "")) ∨
      y.truthy = true ∧ y ∈ alerts.map (·.get "destination_ip")
  relatedAlertIds : inc.relatedAlertIds = alertIds alerts
  groupAlerts : inc.groupAlerts = alerts

theorem displayScore_pos (sev : String) : 0 < displayScore sev := by
  unfold displayScore displayWeight sevWeights
  split
  · decide
  · split
    · decide
    · split
      · decide
      · split <;> decide

theorem alertIds_append (alerts : List Object) (a : Object) :
    alertIds (alerts ++ [a]) =
      if (a.get "alert_id").truthy then alertIds alerts ++ [a.get "alert_id"] else alertIds alerts := by
  rw [alertIds, List.map_append, List.filter_append]
  split
  · next h => simp [alertIds, h]
  · next h => simp [alertIds, h]

theorem leading_append (alerts : List Object) (a : Object) :
    leading rt (alerts ++ [a]) =
      match leading rt alerts with
      | none => some a
      | some b => if displayScore (severityOf rt b) < displayScore (severityOf rt a) then some a else some b := by
  unfold leading
  rw [List.argmax_concat]
  cases alerts.argmax fun a => displayScore (severityOf rt a) <;> rfl

theorem Collected.grow {src : Json} {alerts : List Object} {inc : Group} (h : Collected rt now src alerts inc)
    (a : Object) : Collected rt now src (alerts ++ [a]) (inc.grow rt a) where
  incidentId := h.incidentId
  created := by
    cases alerts with
    | nil => exact absurd h.created nofun
    | cons b bs => exact h.created
  severity := by
    obtain ⟨b, hb, hsev, hscore⟩ := h.severity
    rw [leading_append, hb]
    dsimp only [Group.grow]
    rw [hscore, hsev]
    split
    · exact ⟨a, rfl, rfl, rfl⟩
    · exact ⟨b, rfl, rfl, rfl⟩
  threatClasses := by
    refine lists_congr (lists_appendNew h.threatClasses) fun y => ?_
    rw [List.map_append, List.mem_append, List.map_singleton, List.mem_singleton]
    tauto
  affectedEntities := by
    obtain ⟨first, hfirst, hlists⟩ := h.affectedEntities
    refine ⟨first, List.mem_append_left _ hfirst, lists_congr (lists_appendNew hlists) fun y => ?_⟩
    rw [List.map_append, List.mem_append, List.map_singleton, List.mem_singleton]
    tauto
  relatedAlertIds := by
    rw [alertIds_append, ← h.relatedAlertIds]
    rfl
  groupAlerts := by
    rw [← h.groupAlerts]
    rfl

theorem collected_start (a : Object) :
    Collected rt now (sourceOf a) [a] ((Group.start now ((textOf (sourceOf a)).getD []) a).grow rt a) where
  incidentId := rfl
  created := rfl
  severity := by
    have hpos := displayScore_pos (severityOf rt a)
    refine ⟨a, rfl, if_pos hpos, if_pos hpos⟩
  threatClasses := by
    refine lists_congr (lists_appendNew lists_nil) fun y => ?_
    rw [List.map_singleton, List.mem_singleton]
    tauto
  affectedEntities := by
    refine ⟨a, List.mem_singleton_self a, lists_congr (lists_appendNew (lists_addKey _ _)) fun y => ?_⟩
    rw [List.map_singleton, List.mem_singleton]
  relatedAlertIds := (alertIds_append [] a).symm
  groupAlerts := rfl

/-- The group of a source, from its alerts in order. -/
def grown (rt : Runtime) (now : Json → String) (v : Option Group) (a : Object) : Group :=
  (v.getD (.start now ((textOf (sourceOf a)).getD []) a)).grow rt a

theorem collected_foldl (rt : Runtime) (now : Json → String) {src : Json} {alerts : List Object} (hne : alerts ≠ [])
    (hsrc : ∀ a ∈ alerts, sourceOf a = src) :
    ∃ inc, alerts.foldl (fun v a => some (grown rt now v a)) none = some inc ∧
      Collected rt now src alerts inc := by
  induction alerts using List.reverseRecOn with
  | nil => exact absurd rfl hne
  | append_singleton alerts a ih =>
      rw [List.foldl_append, List.foldl_cons, List.foldl_nil]
      refine ⟨_, rfl, ?_⟩
      by_cases hnil : alerts = []
      · subst hnil
        obtain rfl := hsrc a List.mem_cons_self
        exact collected_start a
      · obtain ⟨inc, hinc, hcollected⟩ := ih hnil fun b hb => hsrc b (List.mem_append_left _ hb)
        rw [hinc]
        exact hcollected.grow a

end NeuralSoc.Incidents
