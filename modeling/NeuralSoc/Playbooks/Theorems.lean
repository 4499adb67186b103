import NeuralSoc.Playbooks.Lemmas.Rule

/-!
# Firewall rules of playbooks
-/

namespace NeuralSoc.Playbooks

open Shell

theorem generatePlaybook_ok {rt : PlaybookRuntime} {alert : Object} {playbook : Playbook}
    (h : generatePlaybook rt alert = .ok playbook) :
    ∃ rule, (templateOf rt alert).firewallRule = some rule ∧ playbook.recommendedFirewallRule =
      safeFormatString (points rule) (quoted (indicatorsOf rt.toRuntime alert).ruleFields) := by
  unfold generatePlaybook at h
  cases hdst : enrichIpIntel rt (indicatorsOf rt.toRuntime alert).dstIp with
  | error e => simp [hdst, bind, Except.bind] at h
  | ok dstIntel =>
      cases hsrc : enrichIpIntel rt (indicatorsOf rt.toRuntime alert).srcIp with
      | error e => simp [hdst, hsrc, bind, Except.bind] at h
      | ok srcIntel =>
          cases hrule : (templateOf rt alert).firewallRule with
          | none => simp [hdst, hsrc, hrule, bind, Except.bind, throw, throwThe, MonadExceptOf.throw] at h
          | some rule =>
              simp only [hdst, hsrc, hrule, bind, Except.bind, pure, Except.pure, Except.ok.injEq] at h
              exact ⟨rule, rfl, by rw [← h]⟩

/-- The rule is the template with the quoted values put in at once exactly where no value holds the placeholder
of a field that is replaced after it. There the shell reads it as the template; elsewhere it does not, unless a
value that is put in brings another brace. -/
theorem firewall_rule_reads_as_template (rt : PlaybookRuntime) (alert : Object) (playbook : Playbook)
    (rule : String) (hplaybook : generatePlaybook rt alert = .ok playbook)
    (hrule : (templateOf rt alert).firewallRule = some rule) :
    (playbook.recommendedFirewallRule =
        substituted (points rule) (quoted (indicatorsOf rt.toRuntime alert).ruleFields) ↔
      Apart (points rule) (indicatorsOf rt.toRuntime alert).ruleFields) ∧
    (Apart (points rule) (indicatorsOf rt.toRuntime alert).ruleFields →
      ReadsAsTemplate (points rule) (indicatorsOf rt.toRuntime alert).ruleFields
        playbook.recommendedFirewallRule) ∧
    (BracedOnce (points rule) (indicatorsOf rt.toRuntime alert).ruleFields →
      ReadsAsTemplate (points rule) (indicatorsOf rt.toRuntime alert).ruleFields
        playbook.recommendedFirewallRule →
      Apart (points rule) (indicatorsOf rt.toRuntime alert).ruleFields) := by
  have hwell := wellFormed_templateOf rt alert hrule
  have hnames : (indicatorsOf rt.toRuntime alert).ruleFields.map Prod.fst = ruleNames := rfl
  obtain ⟨rule', hrule', hformat⟩ := generatePlaybook_ok hplaybook
  obtain rfl : rule' = rule := by simpa [hrule'] using hrule
  rw [hformat]
  refine ⟨format_eq_substituted_iff hnames hwell, fun hapart => ?_, apart_of_reads hnames hwell⟩
  rw [format_of_apart hnames hwell hapart, readsAsTemplate_iff hwell]
  exact tokenise_substituted hnames hwell

/-- It knows one address and hashes nothing. -/
def plainPlaybookRuntime : PlaybookRuntime where
  toRuntime := plainRuntime
  upper := String.toUpper
  isInternal text := if text = points "10.0.0.5" then some true else none
  md5 _ := 0

def beaconAlert (src dst : String) : Object :=
  [("threat_class", .str "botnet_c2_beaconing"), ("source_ip", .str src), ("destination_ip", .str dst)]

def beaconRule : String := "iptables -I FORWARD -s {src_ip} -j DROP\niptables -I OUTPUT -d {dst_ip} -j DROP"

theorem firewall_rule_reads_as_template_quoted :
    ∃ playbook, generatePlaybook plainPlaybookRuntime (beaconAlert "10.0.0.5; rm -rf /" "10.0.0.5") =
        .ok playbook ∧
      ReadsAsTemplate (points beaconRule)
        (indicatorsOf plainRuntime (beaconAlert "10.0.0.5; rm -rf /" "10.0.0.5")).ruleFields
        playbook.recommendedFirewallRule := by
  have hrule : (templateOf plainPlaybookRuntime (beaconAlert "10.0.0.5; rm -rf /" "10.0.0.5")).firewallRule =
      some beaconRule := by decide +kernel
  have hapart : Apart (points beaconRule)
      (indicatorsOf plainRuntime (beaconAlert "10.0.0.5; rm -rf /" "10.0.0.5")).ruleFields := by
    unfold Apart
    decide +kernel
  cases h : generatePlaybook plainPlaybookRuntime (beaconAlert "10.0.0.5; rm -rf /" "10.0.0.5") with
  | error e =>
      have hok : (generatePlaybook plainPlaybookRuntime
          (beaconAlert "10.0.0.5; rm -rf /" "10.0.0.5")).toOption.isSome := by decide +kernel
      simp [h, Except.toOption] at hok
  | ok playbook =>
      exact ⟨playbook, rfl, (firewall_rule_reads_as_template _ _ _ _ h hrule).2.1 hapart⟩

/-- A source address with the placeholder of the destination takes the destination into its quotes, and ends
them. -/
theorem firewall_rule_injects :
    ¬ ∀ (rt : PlaybookRuntime) (alert : Object) (playbook : Playbook) (rule : String),
      generatePlaybook rt alert = .ok playbook → (templateOf rt alert).firewallRule = some rule →
        ReadsAsTemplate (points rule) (indicatorsOf rt.toRuntime alert).ruleFields
          playbook.recommendedFirewallRule := by
  intro hall
  have hrule : (templateOf plainPlaybookRuntime (beaconAlert "{dst_ip}" "; rm -rf /")).firewallRule =
      some beaconRule := by decide +kernel
  have htext : (generatePlaybook plainPlaybookRuntime (beaconAlert "{dst_ip}" "; rm -rf /")).toOption.map
      Playbook.recommendedFirewallRule = some (points
        "iptables -I FORWARD -s ''; rm -rf /'' -j DROP\niptables -I OUTPUT -d '; rm -rf /' -j DROP") := by
    decide +kernel
  cases h : generatePlaybook plainPlaybookRuntime (beaconAlert "{dst_ip}" "; rm -rf /") with
  | error e => simp [h, Except.toOption] at htext
  | ok playbook =>
      obtain ⟨tokens, htemplate, hread⟩ := hall _ _ _ _ h hrule
      rw [h] at htext
      rw [Option.some.inj htext] at hread
      have hne : tokenise (points
          "iptables -I FORWARD -s ''; rm -rf /'' -j DROP\niptables -I OUTPUT -d '; rm -rf /' -j DROP") ≠
          (tokenise (points beaconRule)).map fun tokens =>
            tokens.map (fill (indicatorsOf plainRuntime (beaconAlert "{dst_ip}" "; rm -rf /")).ruleFields) := by
        decide +kernel
      rw [htemplate] at hne
      exact hne hread

end NeuralSoc.Playbooks
