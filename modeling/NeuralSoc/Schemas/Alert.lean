import NeuralSoc.Base.Value

/-!
# The alert schema

`inference/schemas.py`: the keywords of JSON Schema that `ALERT_SCHEMA` uses, as `jsonschema` reads them, and
the schema. The message of a rejection is left out.
-/

namespace NeuralSoc.Schemas

/-! ## Keywords -/

inductive JsonType where
  | object
  | string
  | number
  | boolean
  | null
  deriving DecidableEq

def JsonType.admits : JsonType → Json → Bool
  | .object, .obj _ => true
  | .string, v => v.isStr
  | .number, .int _ | .number, .float _ => true
  | .boolean, .bool _ => true
  | .null, .null => true
  | _, _ => false

inductive Format where
  | dateTime
  | ipAddress
  deriving DecidableEq

structure Keywords where
  types : List JsonType
  enum : Option (List String) := none
  format : Option Format := none

/-- The alternatives of `anyOf`; a schema without it is its only alternative. -/
abbrev PropertySchema := List Keywords

structure SchemaRuntime extends Runtime where
  /-- the `date-time` check of `jsonschema`, which passes all values where its validator is not installed -/
  isDateTime : Json → Bool

variable (rt : SchemaRuntime)

/-- `_check_ip_address`. A text with an unpaired surrogate counts as no address. -/
def checkIpAddress : Json → Bool
  | .str s => (rt.ipAddress s).isSome
  | .lone _ => false
  | _ => true

def Format.check : Format → Json → Bool
  | .dateTime, v => rt.isDateTime v
  | .ipAddress, v => checkIpAddress rt v

def Keywords.validates (k : Keywords) (v : Json) : Bool :=
  k.types.any (·.admits v) && (k.enum.all fun texts => texts.any fun s => v = .str s) &&
    k.format.all fun f => f.check rt v

def PropertySchema.validates (s : PropertySchema) (v : Json) : Bool := s.any fun k => k.validates rt v

/-! ## ALERT_SCHEMA -/

def text : PropertySchema := [{ types := [.string] }]

def textOrNull : PropertySchema := [{ types := [.string, .null] }]

def ipSchema : Keywords := { types := [.string], format := some .ipAddress }

def alertProperties : List (String × PropertySchema) :=
  [("timestamp", [{ types := [.string], format := some .dateTime }]),
    ("alert_id", text),
    ("flow_id", textOrNull),
    ("trace_id", textOrNull),
    ("span_id", textOrNull),
    ("event_type", text),
    ("threat_class", text),
    ("confidence_score", [{ types := [.number] }]),
    ("severity", [{ types := [.string], enum := some ["low", "medium", "high", "critical"] }]),
    ("mitre_tactic", textOrNull),
    ("mitre_technique", textOrNull),
    ("source_ip", [ipSchema]),
    ("destination_ip", [{ types := [.null] }, ipSchema]),
    ("evidence", [{ types := [.object, .null] }]),
    ("model_name", text),
    ("model_version", text),
    ("schema_version", [{ types := [.string], enum := some ["1.0"] }]),
    ("is_replay", [{ types := [.boolean] }])]

def alertRequired : List String :=
  ["timestamp", "alert_id", "event_type", "threat_class", "confidence_score", "severity", "source_ip",
    "schema_version"]

/-- No other properties are allowed. -/
def validateAlert (alert : Object) : Bool :=
  (alertRequired.all fun key => (alert.lookup key).isSome) &&
    alert.all fun f => (alertProperties.lookup f.1).any fun s => s.validates rt f.2

/-! ## What a valid alert holds -/

variable {rt : SchemaRuntime}

theorem mem_of_lookup {alert : Object} {key : String} {v : Json} (h : alert.lookup key = some v) :
    (key, v) ∈ alert := by
  obtain ⟨before, after, rfl, -⟩ := List.lookup_eq_some_iff.mp h
  exact List.mem_append_right _ List.mem_cons_self

/-- A required property is there, and its schema holds of it. -/
theorem validateAlert_required {alert : Object} (h : validateAlert rt alert = true) {key : String}
    (hkey : key ∈ alertRequired) :
    ∃ v s, alert.lookup key = some v ∧ alertProperties.lookup key = some s ∧ s.validates rt v = true := by
  obtain ⟨hrequired, hall⟩ := (Bool.and_eq_true _ _).mp h
  obtain ⟨v, hv⟩ := Option.isSome_iff_exists.mp (List.all_eq_true.mp hrequired key hkey)
  have hprop := List.all_eq_true.mp hall _ (mem_of_lookup hv)
  obtain ⟨s, hs, hvalid⟩ := (Option.any_eq_true _ _).mp hprop
  exact ⟨v, s, hv, hs, hvalid⟩

end NeuralSoc.Schemas
