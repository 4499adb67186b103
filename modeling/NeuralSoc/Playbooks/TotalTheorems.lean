import NeuralSoc.Playbooks.Theorems
import NeuralSoc.Stream.Events

/-!
# Alerts without a playbook

The mapping knows every threat class, but one template has no rule to format. The address of an external
host is hashed, which needs its UTF-8.
-/

namespace NeuralSoc.Playbooks

open Shell

/-! ## The template of a threat class -/

def anomalousNames : List String := ["ANOMALOUS FLOW", "ANOMALOUS_FLOW"]

/-- The threat class reads as that of an anomalous flow, in any case and between any blanks. -/
def NamesAnomalousFlow (rt : PlaybookRuntime) : Json → Prop
  | .lone _ => False
  | raw => rt.upper (strip (rt.str raw)) ∈ anomalousNames

def templateAt (key : String) : PlaybookTemplate := (playbookTemplates.lookup key).getD dataExfiltration

/-- Of the entries of the map only two lead to a template without a rule. -/
theorem threatClassMap_rules : (threatClassMap.all fun e =>
    (templateAt e.2).firewallRule.isNone = (e.1 ∈ anomalousNames : Bool)) = true := by decide +kernel

theorem anomalousNames_mapped : (anomalousNames.all fun key => (threatClassMap.lookup key).isSome) = true := by
  decide

theorem templateAt_lookup (key : String) :
    (templateAt ((threatClassMap.lookup key).getD "DATA_EXFILTRATION")).firewallRule.isNone = true ↔
      key ∈ anomalousNames := by
  cases hlookup : threatClassMap.lookup key with
  | none =>
      refine iff_of_false (by decide) fun hkey => ?_
      have hsome := List.all_eq_true.mp anomalousNames_mapped key hkey
      rw [hlookup] at hsome
      cases hsome
  | some name =>
      obtain ⟨before, after, heq, -⟩ := List.lookup_eq_some_iff.mp hlookup
      have hmem : (key, name) ∈ threatClassMap := by
        rw [heq]
        exact List.mem_append_right _ List.mem_cons_self
      have hrule := of_decide_eq_true (List.all_eq_true.mp threatClassMap_rules _ hmem)
      rw [Option.getD_some, hrule, decide_eq_true_eq]

theorem templateOf_isNone (rt : PlaybookRuntime) (alert : Object) :
    (templateOf rt alert).firewallRule.isNone = true ↔ NamesAnomalousFlow rt (rawThreatClass alert) := by
  change (templateAt (normalizedKey rt (rawThreatClass alert))).firewallRule.isNone = true ↔ _
  cases rawThreatClass alert with
  | lone units =>
      have hrule : ¬(templateAt "DATA_EXFILTRATION").firewallRule.isNone = true := by decide
      exact iff_of_false hrule id
  | null | bool _ | int _ | float _ | str _ | arr _ | obj _ => exact templateAt_lookup _

/-! ## Addresses -/

/-- The address of an external host with a surrogate in it, which can only be in its scope. -/
def Unhashable (rt : PlaybookRuntime) (ipAddress : Text) : Prop :=
  ipAddress ≠ [] ∧ rt.isInternal ipAddress = some false ∧ encodable ipAddress = false

theorem exists_enrichIpIntel (rt : PlaybookRuntime) (ipAddress : Text) :
    (∃ intel, enrichIpIntel rt ipAddress = .ok intel) ↔ ¬Unhashable rt ipAddress := by
  unfold enrichIpIntel Unhashable
  split
  · next hempty => exact iff_of_true ⟨_, rfl⟩ fun h => h.1 hempty
  · next hne =>
      split
      · next hinternal => exact iff_of_true ⟨_, rfl⟩ fun h => by rw [h.2.1] at hinternal; cases hinternal
      · next hinternal => exact iff_of_true ⟨_, rfl⟩ fun h => by rw [h.2.1] at hinternal; cases hinternal
      · next hexternal =>
          split
          · next henc => exact iff_of_true ⟨_, rfl⟩ fun h => by rw [h.2.2] at henc; cases henc
          · next henc => exact iff_of_false nofun fun h => h ⟨hne, hexternal, Bool.eq_false_of_not_eq_true henc⟩

/-! ## Playbooks -/

/-- A playbook is returned exactly for the alerts that are not about an anomalous flow and name no external
address with a surrogate. -/
theorem playbook_returned_iff (rt : PlaybookRuntime) (alert : Object) :
    (∃ playbook, generatePlaybook rt alert = .ok playbook) ↔
      ¬NamesAnomalousFlow rt (rawThreatClass alert) ∧
        ¬Unhashable rt (indicatorsOf rt.toRuntime alert).dstIp ∧
        ¬Unhashable rt (indicatorsOf rt.toRuntime alert).srcIp := by
  rw [← templateOf_isNone, ← exists_enrichIpIntel, ← exists_enrichIpIntel]
  unfold generatePlaybook
  cases hdst : enrichIpIntel rt (indicatorsOf rt.toRuntime alert).dstIp with
  | error e =>
      refine iff_of_false ?_ (by rintro ⟨-, ⟨_, h⟩, -⟩; cases h)
      simp [bind, Except.bind, hdst]
  | ok dstIntel =>
      cases hsrc : enrichIpIntel rt (indicatorsOf rt.toRuntime alert).srcIp with
      | error e =>
          refine iff_of_false ?_ (by rintro ⟨-, -, _, h⟩; cases h)
          simp [bind, Except.bind, hdst, hsrc]
      | ok srcIntel =>
          cases hrule : (templateOf rt alert).firewallRule with
          | none =>
              refine iff_of_false ?_ fun h => h.1 rfl
              simp [bind, Except.bind, hdst, hsrc, hrule, throw, throwThe, MonadExceptOf.throw]
          | some rule =>
              refine iff_of_true ?_ ⟨nofun, ⟨dstIntel, rfl⟩, ⟨srcIntel, rfl⟩⟩
              simp [bind, Except.bind, hdst, hsrc, hrule, pure, Except.pure]

/-- An alert with the class that `process_traffic` gives a flow its model finds anomalous. -/
def flowAlert : Object :=
  [("threat_class", (Stream.flowDetection (.fin 2) 1).get "threat_class"), ("source_ip", .str "10.0.0.5"),
    ("destination_ip", .str "10.0.0.5")]

theorem anomalous_flow_raises : ¬∃ playbook, generatePlaybook plainPlaybookRuntime flowAlert = .ok playbook := by
  rintro ⟨playbook, h⟩
  have hraises : (generatePlaybook plainPlaybookRuntime flowAlert).toOption.isNone = true := by decide +kernel
  rw [h] at hraises
  cases hraises

end NeuralSoc.Playbooks
