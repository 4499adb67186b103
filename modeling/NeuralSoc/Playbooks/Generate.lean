import NeuralSoc.Base.Shell
import NeuralSoc.Base.Value
import NeuralSoc.Playbooks.Templates

/-!
# Playbooks

`generate_playbook` of `inference/playbooks.py`. The texts that come from an alert are lists of code points,
since an alert can hold an unpaired surrogate.
-/

namespace NeuralSoc.Playbooks

open Shell

structure PlaybookRuntime extends Runtime where
  /-- `text.upper()` -/
  upper : String → String
  /-- whether `ipaddress.ip_address(text)` is private, loopback, link-local or unspecified; `none` is a
  `ValueError` -/
  isInternal : Text → Option Bool
  /-- `int(hashlib.md5(text.encode()).hexdigest(), 16)` -/
  md5 : Text → ℕ

/-- `str(val)` -/
def pyStr (rt : Runtime) : Json → Text
  | .lone units => units
  | val => points (rt.str val)

/-- `raise UnicodeEncodeError`: a surrogate has no UTF-8. -/
def encodable (text : Text) : Bool := text.all fun c => !(0xd800 ≤ c && c ≤ 0xdfff)

/-! ## Enrichment -/

structure IpIntel where
  country : String
  asn : String
  reputation : String
  deriving DecidableEq, Repr

def countries : List String := ["RU", "CN", "IR", "KP", "BR", "RO", "US", "NL", "DE"]

def asns : List String := ["AS47764", "AS4134", "AS58224", "AS174", "AS398324", "AS20473"]

def trustedIntel : IpIntel := ⟨"Internal / RFC1918", "N/A", "Trusted"⟩

def mockIntel (h : ℕ) : IpIntel :=
  let country := countries.get ⟨h % countries.length, Nat.mod_lt _ (by decide)⟩
  let asn := asns.get ⟨(h / 10) % asns.length, Nat.mod_lt _ (by decide)⟩
  let rep :=
    if country ∈ ["RU", "CN", "IR", "KP", "RO"] then "Suspicious (Known Bulletproof Hoster)" else "Neutral"
  ⟨country, asn, rep⟩

def enrichIpIntel (rt : PlaybookRuntime) (ipAddress : Text) : Except Exc IpIntel :=
  if ipAddress = [] then .ok trustedIntel
  else
    match rt.isInternal ipAddress with
    | none | some true => .ok trustedIntel
    | some false =>
        if encodable ipAddress then .ok (mockIntel (rt.md5 ipAddress))
        else .error ⟨.valueError, "surrogates not allowed"⟩

/-! ## Formatting -/

/-- The name of a field in braces. -/
def placeholder (name : String) : Text := points ("\x7b" ++ name ++ "\x7d")

def safeFormatString (templateStr : Text) (kwargs : List (String × Text)) : Text :=
  kwargs.foldl (fun res kv => replaceAll (placeholder kv.1) kv.2 res) templateStr

/-- A carriage return, a newline or a null. -/
def isStripped (c : ℕ) : Bool := c == 13 || c == 10 || c == 0

def sanitizeInput (rt : Runtime) (val : Json) (default : Text) : Text :=
  if val = .null then default else (pyStr rt val).filter fun c => !isStripped c

/-! ## The playbook -/

/-- `THREAT_CLASS_MAP.get(str(raw_threat_class).strip().upper(), "DATA_EXFILTRATION")`; a text with a
surrogate is no key. -/
def normalizedKey (rt : PlaybookRuntime) : Json → String
  | .lone _ => "DATA_EXFILTRATION"
  | raw => (threatClassMap.lookup (rt.upper (strip (rt.str raw)))).getD "DATA_EXFILTRATION"

def rawThreatClass (alert : Object) : Json := (alert.get "threat_class").or (.str "DATA_EXFILTRATION")

def templateOf (rt : PlaybookRuntime) (alert : Object) : PlaybookTemplate :=
  (playbookTemplates.lookup (normalizedKey rt (rawThreatClass alert))).getD dataExfiltration

/-- What the alert names, sanitised. -/
structure Indicators where
  srcIp : Text
  dstIp : Text
  dstPort : Text
  domain : Text
  ja3Hash : Text
  deriving DecidableEq, Repr

def evidenceOf (alert : Object) : Object :=
  match alert.getD "evidence" (.obj []) with
  | .obj evidence => evidence
  | _ => []

def indicatorsOf (rt : Runtime) (alert : Object) : Indicators :=
  let evidence := evidenceOf alert
  { srcIp := sanitizeInput rt (((alert.get "source_ip").or (alert.get "src_ip")).or (alert.get "id.orig_h"))
      (points "192.168.1.100")
    dstIp := sanitizeInput rt
      (((alert.get "destination_ip").or (alert.get "dst_ip")).or (alert.get "id.resp_h")) (points "198.51.100.1")
    dstPort := sanitizeInput rt
      (((alert.get "destination_port").or (alert.get "dst_port")).or (alert.get "id.resp_p")) (points "443")
    domain := sanitizeInput rt
      (((evidence.get "domain").or (evidence.get "query")).or (alert.get "query")) (points "malicious-c2.com")
    ja3Hash := sanitizeInput rt ((evidence.get "ja3_hash").or (evidence.get "ja4"))
      (points "a0e9f5d64349fb13191bc781f81f42e1") }

/-- The fields of the rule, in the order in which they are replaced. -/
def Indicators.ruleFields (i : Indicators) : List (String × Text) :=
  [("src_ip", i.srcIp), ("dst_ip", i.dstIp), ("dst_port", i.dstPort), ("domain", i.domain),
    ("ja3_hash", i.ja3Hash)]

/-- Those of the checklist, which has no port. -/
def Indicators.checklistFields (i : Indicators) : List (String × Text) :=
  [("src_ip", i.srcIp), ("dst_ip", i.dstIp), ("domain", i.domain), ("ja3_hash", i.ja3Hash)]

/-- Every value as `shlex.quote` writes it. -/
def quoted (fields : List (String × Text)) : List (String × Text) := fields.map fun f => (f.1, quote f.2)

structure Playbook where
  title : String
  threatClass : Json
  severity : Json
  containmentSteps : List String
  recommendedFirewallRule : Text
  forensicChecklist : List Text
  mitreMitigations : List String
  sourceIntel : IpIntel
  destinationIntel : IpIntel
  deriving DecidableEq

def generatePlaybook (rt : PlaybookRuntime) (alert : Object) : Except Exc Playbook := do
  let template := templateOf rt alert
  let indicators := indicatorsOf rt.toRuntime alert
  let dstIntel ← enrichIpIntel rt indicators.dstIp
  let srcIntel ← enrichIpIntel rt indicators.srcIp
  let rule ←
    match template.firewallRule with
    | some rule => pure (safeFormatString (points rule) (quoted indicators.ruleFields))
    | none => throw ⟨.other, "'firewall_rule'"⟩
  return {
    title := template.title
    threatClass := rawThreatClass alert
    severity := alert.getD "severity" (.str "HIGH")
    containmentSteps := template.containmentSteps
    recommendedFirewallRule := rule
    forensicChecklist :=
      template.forensicChecklist.map fun item => safeFormatString (points item) indicators.checklistFields
    mitreMitigations := template.mitreMitigations
    sourceIntel := srcIntel
    destinationIntel := dstIntel }

end NeuralSoc.Playbooks
