import NeuralSoc.Correlation.RiskTheorems
import NeuralSoc.Incidents.Lemmas.Order

/-! # What the console's incidents tell about their sources. -/

namespace NeuralSoc.Incidents

open Shell Correlation

variable {ρ : Type}

/-! ## One incident for each source -/

/-- The incident id that a source gets. -/
def idFor (src : Json) : Text := incidentIdOf ((textOf src).getD [])

structure IdentifiesSources (rt : Runtime) (alerts : List Object) (incidents : List (Json × Incident ρ)) : Prop where
  sources_nodup : (incidents.map Prod.fst).Nodup
  sources : ∀ src, src ∈ incidents.map Prod.fst ↔ ∃ a ∈ alerts, sourceOf a = src
  alertIds : (incidents.flatMap fun e => e.2.relatedAlertIds).Perm (alertIds alerts)
  severity : ∀ e ∈ incidents, ∃ a ∈ groupOf alerts e.1, e.2.severity = .str (severityOf rt a) ∧
    ∀ b ∈ groupOf alerts e.1, displayScore (severityOf rt b) ≤ displayScore (severityOf rt a)
  ids_nodup : (incidents.map fun e => e.2.incidentId).Nodup

theorem filter_or_perm {α : Type} (p q : α → Bool) {xs : List α} (h : ∀ x ∈ xs, p x = true → q x = false) :
    (xs.filter p ++ xs.filter q).Perm (xs.filter fun x => p x || q x) := by
  have hsplit := List.filter_append_perm p (xs.filter fun x => p x || q x)
  rw [List.filter_filter, List.filter_filter] at hsplit
  have hleft : xs.filter (fun x => p x && (p x || q x)) = xs.filter p :=
    List.filter_congr fun x _ => by cases p x <;> simp
  have hright : xs.filter (fun x => !p x && (p x || q x)) = xs.filter q := by
    refine List.filter_congr fun x hx => ?_
    cases hp : p x with
    | false => simp
    | true => simp [h x hx hp]
  rwa [hleft, hright] at hsplit

theorem flatMap_groupOf_perm (alerts : List Object) {srcs : List Json} (hn : srcs.Nodup) :
    (srcs.flatMap (groupOf alerts)).Perm (alerts.filter fun a => sourceOf a ∈ srcs) := by
  induction srcs with
  | nil => simp
  | cons src srcs ih =>
      obtain ⟨hsrc, hn⟩ := List.nodup_cons.mp hn
      have hsplit := @filter_or_perm _ (fun a => decide (sourceOf a = src)) (fun a => decide (sourceOf a ∈ srcs))
        alerts fun a _ ha => decide_eq_false (of_decide_eq_true ha ▸ hsrc)
      rw [List.flatMap_cons]
      refine ((ih hn).append_left _).trans (hsplit.trans (.of_eq (List.filter_congr fun a _ => ?_)))
      simp [List.mem_cons]

theorem alertIds_flatMap (f : Json → List Object) (srcs : List Json) :
    (srcs.flatMap fun src => alertIds (f src)) = alertIds (srcs.flatMap f) := by
  simp only [alertIds, List.map_flatMap, List.filter_flatMap]

theorem incidentId_of {rt : Runtime} {score : List Object → Except Exc ρ} {now : Json → String}
    {alerts : List Object} {src : Json} {i : Incident ρ} (h : IsIncidentOf rt score now alerts src i) :
    i.incidentId = idFor src := by
  obtain ⟨inc, r, hinc, -, rfl⟩ := h
  exact hinc.incidentId

section

variable {rt : Runtime} {score : List Object → Except Exc ρ} {now : Json → String} {alerts : List Object}
  (h : ∀ a ∈ alerts, FromApi a)
include h

section

variable {incidents : List (Json × Incident ρ)} (hok : synthesizeBySource rt score now alerts = .ok incidents)
include hok

theorem relatedAlertIds_perm : (incidents.flatMap fun e => e.2.relatedAlertIds).Perm (alertIds alerts) := by
  obtain ⟨hn, hsources, hincidents⟩ := synthesizeBySource_ok h hok
  have hids : (incidents.flatMap fun e => e.2.relatedAlertIds) =
      (incidents.map Prod.fst).flatMap fun src => alertIds (groupOf alerts src) := by
    rw [List.flatMap_map]
    refine List.flatMap_congr fun e he => ?_
    obtain ⟨inc, r, hinc, -, heq⟩ := hincidents e he
    rw [heq]
    exact hinc.relatedAlertIds
  have hall : (alerts.filter fun a => sourceOf a ∈ incidents.map Prod.fst) = alerts :=
    List.filter_eq_self.mpr fun a ha => decide_eq_true ((hsources _).mpr ⟨a, ha, rfl⟩)
  rw [hids, alertIds_flatMap]
  refine (((flatMap_groupOf_perm alerts hn).map _).filter _).trans (.of_eq ?_)
  rw [hall]
  rfl

theorem severity_greatest {e : Json × Incident ρ} (he : e ∈ incidents) :
    ∃ a ∈ groupOf alerts e.1, e.2.severity = .str (severityOf rt a) ∧
      ∀ b ∈ groupOf alerts e.1, displayScore (severityOf rt b) ≤ displayScore (severityOf rt a) := by
  obtain ⟨-, -, hincidents⟩ := synthesizeBySource_ok h hok
  obtain ⟨inc, r, hinc, -, heq⟩ := hincidents e he
  obtain ⟨a, hleading, hsev, -⟩ := hinc.severity
  obtain ⟨hmem, hgreatest⟩ := leading_spec hleading
  rw [heq]
  exact ⟨a, hmem, hsev, hgreatest⟩

theorem incidentIds_nodup_iff :
    (incidents.map fun e => e.2.incidentId).Nodup ↔
      ∀ a ∈ alerts, ∀ b ∈ alerts, idFor (sourceOf a) = idFor (sourceOf b) → sourceOf a = sourceOf b := by
  constructor
  · intro hnodup a ha b hb hid
    obtain ⟨i, hi, hinc⟩ := exists_incident h hok ha
    obtain ⟨j, hj, hinc'⟩ := exists_incident h hok hb
    have hsame : i.incidentId = j.incidentId := by
      rw [incidentId_of hinc, incidentId_of hinc', hid]
    exact congrArg Prod.fst (List.inj_on_of_nodup_map hnodup hi hj hsame)
  · intro hinj
    obtain ⟨hn, -, -⟩ := synthesizeBySource_ok h hok
    refine List.Nodup.map_on (fun x hx y hy hid => ?_) (List.Nodup.of_map _ hn)
    obtain ⟨a, ha, hxa, hinc⟩ := incident_cases h hok hx
    obtain ⟨b, hb, hyb, hinc'⟩ := incident_cases h hok hy
    rw [incidentId_of hinc, incidentId_of hinc'] at hid
    exact List.inj_on_of_nodup_map hn hx hy (hxa.trans ((hinj a ha b hb hid).trans hyb.symm))

end

/-- For any risk score: the incidents identify their sources when no score raises and the ids keep the sources
apart. -/
theorem identifiesSources_iff :
    (∃ incidents, synthesizeBySource rt score now alerts = .ok incidents ∧
        IdentifiesSources rt alerts incidents) ↔
      (∀ a ∈ alerts, ∃ r, score (groupOf alerts (sourceOf a)) = .ok r) ∧
        ∀ a ∈ alerts, ∀ b ∈ alerts, idFor (sourceOf a) = idFor (sourceOf b) → sourceOf a = sourceOf b := by
  rw [← synthesizes_iff rt now h]
  constructor
  · rintro ⟨incidents, hok, hident⟩
    exact ⟨⟨incidents, hok⟩, (incidentIds_nodup_iff h hok).mp hident.ids_nodup⟩
  · rintro ⟨⟨incidents, hok⟩, hinj⟩
    obtain ⟨hn, hsources, -⟩ := synthesizeBySource_ok h hok
    exact ⟨incidents, hok, hn, hsources, relatedAlertIds_perm h hok, fun e he => severity_greatest h hok he,
      (incidentIds_nodup_iff h hok).mpr hinj⟩

end

/-- What `synthesize_incidents` returns, each incident with its source. -/
def Synthesizes (rt : Runtime) (now : Json → String) (alerts : List Object)
    (incidents : List (Json × Incident (Option ℝ))) : Prop :=
  synthesizeBySource rt (calculateRiskScoreExp rt) now alerts = .ok incidents ∧
    synthesizeIncidents rt now alerts = .ok (incidents.map Prod.snd)

theorem synthesizes_iff_bySource {rt : Runtime} {now : Json → String} {alerts : List Object}
    {incidents : List (Json × Incident (Option ℝ))} :
    Synthesizes rt now alerts incidents ↔
      synthesizeBySource rt (calculateRiskScoreExp rt) now alerts = .ok incidents := by
  refine and_iff_left_of_imp fun hok => ?_
  unfold synthesizeIncidents
  split
  · next hnil =>
      subst hnil
      cases hok
      rfl
  · rw [hok]
    rfl

/-- The incidents of the alerts identify their sources exactly when no risk score raises and no two sources are
the same text once their dots are dashes. -/
theorem incidents_identify_sources_iff (rt : Runtime) (now : Json → String) (alerts : List Object)
    (h : ∀ a ∈ alerts, FromApi a) :
    (∃ incidents, Synthesizes rt now alerts incidents ∧ IdentifiesSources rt alerts incidents) ↔
      (∀ a ∈ alerts, ∃ r, calculateRiskScoreExp rt (groupOf alerts (sourceOf a)) = .ok r) ∧
        ∀ a ∈ alerts, ∀ b ∈ alerts, idFor (sourceOf a) = idFor (sourceOf b) → sourceOf a = sourceOf b := by
  simp only [synthesizes_iff_bySource]
  exact identifiesSources_iff h

def alertFrom (source alertId timestamp severity : String) : Object :=
  [("alert_id", .str alertId), ("timestamp", .str timestamp), ("threat_class", .str "DGA"),
    ("severity", .str severity), ("source_ip", .str source), ("destination_ip", .null)]

theorem fromApi_alertFrom (source alertId timestamp severity : String) :
    FromApi (alertFrom source alertId timestamp severity) := ⟨.inr rfl, .inl rfl, .inr rfl⟩

theorem fromApi_pair {a b : Object} (ha : FromApi a) (hb : FromApi b) : ∀ c ∈ [a, b], FromApi c :=
  List.forall_mem_cons.mpr ⟨ha, List.forall_mem_singleton.mpr hb⟩

def noClock (_ : Json) : String := ""

def twoHosts : List Object :=
  [alertFrom "10.0.0.1" "a" "2025-01-01T00:00:00" "high", alertFrom "10.0.0.2" "b" "2025-01-01T00:00:00" "low"]

theorem incidents_identify_sources_iff_hosts :
    (∃ incidents, Synthesizes plainRuntime noClock twoHosts incidents ∧
        IdentifiesSources plainRuntime twoHosts incidents) ↔
      (∀ a ∈ twoHosts, ∃ r, calculateRiskScoreExp plainRuntime (groupOf twoHosts (sourceOf a)) = .ok r) ∧
        ∀ a ∈ twoHosts, ∀ b ∈ twoHosts, idFor (sourceOf a) = idFor (sourceOf b) → sourceOf a = sourceOf b :=
  incidents_identify_sources_iff plainRuntime noClock twoHosts
    (fromApi_pair (fromApi_alertFrom _ _ _ _) (fromApi_alertFrom _ _ _ _))

/-- A VLAN interface and one with a dash in its place. -/
def twoScopes : List Object :=
  [alertFrom "fe80::1%eth0.1" "a" "2025-01-01T00:00:00" "high",
    alertFrom "fe80::1%eth0-1" "b" "2025-01-01T00:00:00" "low"]

theorem scopes_share_incident_id :
    ¬ ∀ (rt : Runtime) (now : Json → String) (alerts : List Object), (∀ a ∈ alerts, FromApi a) →
      ∃ incidents, Synthesizes rt now alerts incidents ∧ IdentifiesSources rt alerts incidents := by
  intro h
  have hapi : ∀ a ∈ twoScopes, FromApi a :=
    fromApi_pair (fromApi_alertFrom _ _ _ _) (fromApi_alertFrom _ _ _ _)
  obtain ⟨incidents, ⟨hok, -⟩, hident⟩ := h plainRuntime noClock twoScopes hapi
  have hapart := ((identifiesSources_iff hapi).mp ⟨incidents, hok, hident⟩).2 _ List.mem_cons_self _
    (List.mem_cons_of_mem _ List.mem_cons_self) (by decide +kernel)
  exact absurd hapart (by decide +kernel)

/-! ## The order of the alerts -/

def earlier : Object := alertFrom "10.0.0.1" "a" "1" "high"

def later : Object := alertFrom "10.0.0.1" "b" "2" "high"

end NeuralSoc.Incidents
