import Mathlib.Algebra.Order.Field.Rat
import NeuralSoc.Stream.Detection

/-!
# Features and rules

`inference/features.py` and `inference/rules.py`: what the stream processor reads from an event before
it asks the models. Both raise on values of the wrong type.
-/

namespace NeuralSoc.Stream

/-- The further built-ins an event is processed with. -/
structure EventRuntime extends Runtime where
  /-- `int(text)`; `none` is a `ValueError` -/
  intOfStr : String → Option ℤ
  /-- `c.isdigit()` of a code point -/
  isDigit : ℕ → Bool
  /-- `math.log2` -/
  log2 : ℚ → ℚ
  /-- `text.lower()` of a text with an unpaired surrogate -/
  lowerLone : List ℕ → List ℕ

variable (rt : EventRuntime)

/-! ## Texts and numbers -/

/-- The code points of a text. -/
def points : Json → List ℕ
  | .str s => s.toList.map Char.toNat
  | .lone units => units
  | _ => []

def lowerPoints : Json → List ℕ
  | .str s => points (.str (rt.lower s))
  | .lone units => rt.lowerLone units
  | _ => []

/-- `text.strip()`; a surrogate is no whitespace. -/
def stripText : Json → Json
  | .str s => .str (strip s)
  | .lone units =>
      let space := fun n => isSpace (Char.ofNat n)
      .lone ((units.dropWhile space).reverse.dropWhile space).reverse
  | x => x

/-- `val == "-" or val is None or val == ""` -/
def isZeekNull (val : Json) : Bool := val = .str "-" || val = .null || val = .str ""

/-- `int(x)` -/
def toInt : Json → Except Exc ℤ
  | .bool b => .ok (if b then 1 else 0)
  | .int i => .ok i
  | .float (.fin q) => .ok (q.num.tdiv q.den)
  | .float .nan => .error ⟨.valueError, "cannot convert float NaN to integer"⟩
  | .float (.inf _) => .error ⟨.other, "cannot convert float infinity to integer"⟩
  | .str s =>
      match rt.intOfStr s with
      | some i => .ok i
      | none => .error ⟨.valueError, "invalid literal for int() with base 10"⟩
  | .lone _ => .error ⟨.valueError, "invalid literal for int() with base 10"⟩
  | _ => .error ⟨.typeError, "int() argument must be a string, a bytes-like object or a real number"⟩

/-- `try: return r; except ValueError: return default` -/
def orValueError {α : Type} (default : α) : Except Exc α → Except Exc α
  | .ok x => .ok x
  | .error e => if e.cls = .valueError then .ok default else .error e

def safeFloat (val : Json) : Except Exc PyFloat :=
  if isZeekNull val then .ok (.fin 0) else orValueError (.fin 0) (toFloat rt.toRuntime val)

def safeInt (val : Json) : Except Exc ℤ :=
  if isZeekNull val then .ok 0 else orValueError 0 (toInt rt val)

/-! ## `features.py` -/

def shannonEntropy (data : List ℕ) : ℚ :=
  data.eraseDups.foldl (fun entropy c =>
    let p : ℚ := data.count c / data.length
    if 0 < p then entropy - p * rt.log2 p else entropy) 0

def knownInfraSuffixes : List String :=
  ["cloudfront.net", "amazonaws.com", "akamaized.net", "akamaiedge.net", "akamai.net", "fastly.net",
    "sharepoint.com", "gravatar.com", "googleusercontent.com", "googleapis.com", "windows.net",
    "azureedge.net", "cloudflare.com", "github.io", "githubusercontent.com"]

/-- `query.lower().rstrip(".").endswith(KNOWN_INFRA_SUFFIXES)` -/
def isKnownInfraSuffix (query : Json) : Bool :=
  let host := (((lowerPoints rt query).reverse).dropWhile (· = '.'.toNat)).reverse
  knownInfraSuffixes.any fun suffix => (points (.str suffix)).isSuffixOf host

/-- Only a text has all of `len`, `isdigit` and `split`. -/
def notText : Json → Exc
  | .arr _ | .obj _ => ⟨.other, "object has no attribute 'split'"⟩
  | _ => ⟨.typeError, "object has no len()"⟩

def extractDnsFeatures (event : Object) : Except Exc Object :=
  let query := event.getD "query" (.str "")
  if !query.truthy then .ok []
  else if !query.isStr then .error (notText query)
  else
    let text := points query
    let label := text.takeWhile (· ≠ '.'.toNat)
    .ok [("domain_length", .int text.length),
      ("shannon_entropy", .float (.fin (shannonEntropy rt text))),
      ("label_entropy", .float (.fin (shannonEntropy rt label))),
      ("label_length", .int label.length),
      ("digit_ratio", .float (.fin (if 0 < text.length then text.countP rt.isDigit / text.length else 0))),
      ("is_known_infra_suffix", .bool (isKnownInfraSuffix rt query))]

/-- `total / duration if duration > 0 else 0.0`: the division first makes a float of the integer. -/
def bytesPerSec (total : ℤ) (duration : PyFloat) : Except Exc PyFloat :=
  match duration with
  | .fin d => if 0 < d then do
      let _ ← toFloat rt.toRuntime (.int total)
      return .fin (total / d)
    else .ok (.fin 0)
  | .inf false => do
      let _ ← toFloat rt.toRuntime (.int total)
      return .fin 0
  | _ => .ok (.fin 0)

def extractFlowFeatures (event : Object) : Except Exc Object := do
  let duration ← safeFloat rt (event.get "duration")
  let origBytes ← safeInt rt (event.get "orig_bytes")
  let respBytes ← safeInt rt (event.get "resp_bytes")
  let rate ← bytesPerSec rt (origBytes + respBytes) duration
  return [("duration", .float duration), ("orig_bytes", .int origBytes), ("resp_bytes", .int respBytes),
    ("bytes_per_sec", .float rate)]

def extractFeatures (event : Object) : Except Exc Object :=
  let evtType := event.get "event_type"
  if evtType = .str "dns" then extractDnsFeatures rt event
  else if evtType = .str "conn" then extractFlowFeatures rt event
  else .ok []

/-! ## `rules.py` -/

/-- A feature is a number; a missing one reads as 0. -/
def number (features : Object) (key : String) : ℚ :=
  match features.get key with
  | .int i => i
  | .float (.fin q) => q
  | _ => 0

/-- One detection of `evaluate_rules`. -/
def ruleAlert (ruleId threatClass severity : String) (confidence : ℚ) (evidence : Object)
    (tactic technique : String) : Object :=
  [("rule_id", .str ruleId), ("threat_class", .str threatClass), ("severity", .str severity),
    ("confidence", .float (.fin confidence)), ("evidence", .obj evidence),
    ("mitre_tactic", .str tactic), ("mitre_technique", .str technique)]

def ddosRule (event : Object) (origPkts : ℤ) : List Object :=
  let connState := event.get "conn_state"
  let evidence : Object := [("conn_state", connState), ("orig_pkts", .int origPkts)]
  if 10000 < origPkts then
    [ruleAlert "RULE_DDOS_VOLUMETRIC" "DDoS" "critical" (95 / 100) evidence "Impact" "T1498"]
  else if connState = .str "REJ" ∧ 100 ≤ origPkts then
    [ruleAlert "RULE_DDOS_VOLUMETRIC" "DDoS" "high" (85 / 100) evidence "Impact" "T1498"]
  else []

def heartbeatRule (features : Object) (respPort : ℤ) : List Object :=
  let orig := number features "orig_bytes"
  let resp := number features "resp_bytes"
  if (50 < orig ∧ orig < 150) ∧ (50 < resp ∧ resp < 150) ∧ respPort ∉ [80, 443, 53] then
    [ruleAlert "RULE_C2_HEARTBEAT" "C2 Beaconing" "high" (85 / 100)
      [("orig_bytes", features.getD "orig_bytes" (.int 0)),
        ("resp_bytes", features.getD "resp_bytes" (.int 0)), ("port", .int respPort)]
      "Command and Control" "T1132"]
  else []

def tunnellingRule (event : Object) (query : Json) : List Object :=
  let length := (points query).length
  if 60 < length ∧ event.get "qtype_name" = .str "TXT" then
    [ruleAlert "RULE_DNS_TUNNELLING" "DGA / DNS Tunnelling" "high" (90 / 100)
      [("query_length", .int length), ("qtype", .str "TXT")] "Command and Control" "T1071.004"]
  else []

def dgaFallbackRule (features : Object) (query : Json) : List Object :=
  let infra := (features.getD "is_known_infra_suffix" (.bool false)).truthy
  if 38 / 10 < number features "label_entropy" ∧ 16 ≤ number features "label_length" ∧ ¬infra then
    [ruleAlert "RULE_DNS_DGA_FALLBACK" "DGA / DNS Tunnelling" "medium" (80 / 100)
      [("shannon_entropy", features.getD "label_entropy" (.float (.fin 0))), ("query", query)]
      "Command and Control" "T1568.002"]
  else []

def ja4Rule (fingerprints : List String) (event : Object) : List Object :=
  let ja4 := toStr rt.toRuntime ((event.getD "ja4" (.str "")).or (.str ""))
  if ja4 ∈ (fingerprints.map Json.str) ∧ ja4.truthy then
    [ruleAlert "RULE_TLS_JA4_MALWARE" "Encrypted-Traffic Malware" "critical" (95 / 100)
      [("ja4_fingerprint", ja4), ("tls_metadata", .str "Anomalous Cipher Suite")]
      "Defense Evasion" "T1573"]
  else []

def portScanRule (event : Object) (origPkts : ℤ) : List Object :=
  if event.get "conn_state" = .str "S0" ∧ origPkts < 5 then
    [ruleAlert "RULE_RECON_PORT_SCAN" "Reconnaissance" "low" (75 / 100)
      [("conn_state", .str "S0"), ("target_port", event.get "id.resp_p")] "Discovery" "T1046"]
  else []

def exfilRule (features : Object) : List Object :=
  if 5000000 < number features "orig_bytes" ∧ number features "resp_bytes" < 10000 then
    [ruleAlert "RULE_CONN_EXFIL" "Data Exfiltration" "high" (85 / 100)
      [("orig_bytes", features.getD "orig_bytes" (.int 0)),
        ("resp_bytes", features.getD "resp_bytes" (.int 0))] "Exfiltration" "T1048"]
  else []

/-- `fingerprints` are the JA4 fingerprints configured at the time. -/
def evaluateRules (fingerprints : List String) (event features : Object) :
    Except Exc (List Object) :=
  let evtType := event.get "event_type"
  if evtType = .str "conn" then do
    let origPkts ← safeInt rt (event.getD "orig_pkts" (.int 0))
    let respPort ← safeInt rt (event.getD "id.resp_p" (.int 0))
    return ddosRule event origPkts ++ heartbeatRule features respPort ++
      ja4Rule rt fingerprints event ++ portScanRule event origPkts ++ exfilRule features
  else if evtType = .str "dns" then
    let query := toStr rt.toRuntime (event.getD "query" (.str ""))
    .ok (tunnellingRule event query ++ dgaFallbackRule features query)
  else .ok []

end NeuralSoc.Stream
