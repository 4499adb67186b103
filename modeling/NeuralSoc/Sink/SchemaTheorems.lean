import NeuralSoc.Base.Reload
import NeuralSoc.Schemas.Theorems
import NeuralSoc.Sink.Lemmas.Batch
import NeuralSoc.Sink.Loop

/-!
# What the schema admits the payload accepts

The sink reads the alert back from its text, encodes an object evidence, and validates against a second
schema that shares all fields but `is_replay`.
-/

namespace NeuralSoc.Sink

open Schemas

/-! ## The fields of the payload -/

def requiredFields : List String :=
  ["alert_id", "event_type", "timestamp", "threat_class", "severity", "source_ip"]

def optionalFields : List String :=
  ["destination_ip", "evidence", "trace_id", "flow_id", "span_id", "mitre_tactic", "mitre_technique",
    "model_name", "model_version", "schema_version"]

variable {rt : Runtime} {raw : Object}

theorem exists_requiredText {key : String} (h : (raw.get key).isStr = true) :
    ∃ t, requiredText raw key = some t ∧ t.1 = raw.get key := by
  rw [requiredText, Object.get] at *
  cases hlookup : raw.lookup key with
  | none =>
      rw [hlookup] at h
      cases h
  | some v =>
      rw [hlookup] at h
      exact ⟨⟨v, h⟩, dif_pos h, rfl⟩

theorem exists_optionalText {key : String} (h : raw.get key = .null ∨ (raw.get key).isStr = true) :
    ∃ t, optionalText raw key = some t ∧ dumpText t = raw.get key := by
  rw [optionalText, Object.get] at *
  cases hlookup : raw.lookup key with
  | none => exact ⟨none, rfl, rfl⟩
  | some v =>
      rw [hlookup, Option.getD_some] at h
      by_cases hnull : v = .null
      · subst hnull
        exact ⟨none, rfl, rfl⟩
      · have hstr := h.resolve_left hnull
        refine ⟨some ⟨v, hstr⟩, ?_, rfl⟩
        cases v with
        | null => exact absurd rfl hnull
        | str s => rfl
        | lone units => rfl
        | bool _ | int _ | float _ | arr _ | obj _ => cases hstr

instance : Inhabited Text := ⟨⟨.str "", rfl⟩⟩

/-- Texts and nulls are kept as they are. -/
theorem exists_payload {x : PyFloat} (hrequired : ∀ key ∈ requiredFields, (raw.get key).isStr = true)
    (hoptional : ∀ key ∈ optionalFields, raw.get key = .null ∨ (raw.get key).isStr = true)
    (hscore : (raw.lookup "confidence_score").bind (floatField rt) = some x) :
    ∃ payload, validatePayload rt raw = some payload ∧ payload.confidenceScore = x ∧
      ∀ key ∈ requiredFields ++ optionalFields, payload.modelDump.get key = raw.get key := by
  choose! text htext hsame using fun key h => exists_requiredText (hrequired key h)
  choose! opt hopt hsame' using fun key h => exists_optionalText (hoptional key h)
  simp only [requiredFields, optionalFields, List.forall_mem_cons, List.not_mem_nil, false_imp_iff,
    implies_true, and_true] at htext hsame hopt hsame'
  refine ⟨⟨text "alert_id", text "event_type", text "timestamp", text "threat_class", text "severity", x,
    text "source_ip", opt "destination_ip", opt "evidence", opt "trace_id", opt "flow_id", opt "span_id",
    opt "mitre_tactic", opt "mitre_technique", opt "model_name", opt "model_version",
    opt "schema_version"⟩, ?_, rfl, ?_⟩
  · simp [validatePayload, htext, hopt, hscore]
  · simp only [requiredFields, optionalFields, List.cons_append, List.nil_append, List.forall_mem_cons,
      List.not_mem_nil, false_imp_iff, implies_true, and_true, ← hsame, ← hsame']
    exact ⟨rfl, rfl, rfl, rfl, rfl, rfl, rfl, rfl, rfl, rfl, rfl, rfl, rfl, rfl, rfl, rfl⟩

/-! ## The types the schema admits -/

def onlyTypes (types : List JsonType) (s : PropertySchema) : Bool := s.all fun k => k.types.all (· ∈ types)

theorem admitted_of_validates {rt : SchemaRuntime} {types : List JsonType} {s : PropertySchema} {v : Json}
    (htypes : onlyTypes types s = true) (h : s.validates rt v = true) : ∃ t ∈ types, t.admits v = true := by
  obtain ⟨k, hk, hvalid⟩ := List.any_eq_true.mp h
  rw [Keywords.validates, Bool.and_eq_true, Bool.and_eq_true] at hvalid
  obtain ⟨t, ht, hadmits⟩ := List.any_eq_true.mp hvalid.1.1
  have hmem := List.all_eq_true.mp (List.all_eq_true.mp htypes k hk) t ht
  exact ⟨t, of_decide_eq_true hmem, hadmits⟩

section

variable {rt : SchemaRuntime} {alert : Object} (h : validateAlert rt alert = true)

include h

/-- An absent property reads as null. -/
theorem admitted_or_absent {types : List JsonType} {key : String}
    (htypes : (alertProperties.lookup key).all (onlyTypes types) = true) :
    alert.get key = .null ∨ ∃ t ∈ types, t.admits (alert.get key) = true := by
  rw [Object.get]
  cases hv : alert.lookup key with
  | none => exact .inl rfl
  | some v =>
      have hprop := List.all_eq_true.mp ((Bool.and_eq_true _ _).mp h).2 _ (mem_of_lookup hv)
      obtain ⟨s, hs, hvalid⟩ := (Option.any_eq_true _ _).mp hprop
      rw [hs, Option.all_some] at htypes
      exact .inr (admitted_of_validates htypes hvalid)

theorem requiredFields_text : ∀ key ∈ requiredFields, (alert.get key).isStr = true := by
  have hkeys : (requiredFields.all fun key => key ∈ alertRequired &&
      (alertProperties.lookup key).all (onlyTypes [.string])) = true := by decide
  intro key hkey
  have hall := List.all_eq_true.mp hkeys key hkey
  rw [Bool.and_eq_true, decide_eq_true_eq] at hall
  obtain ⟨v, s, hv, hs, hvalid⟩ := validateAlert_required h hall.1
  rw [hs, Option.all_some] at hall
  obtain ⟨t, ht, hadmits⟩ := admitted_of_validates hall.2 hvalid
  obtain rfl := List.mem_singleton.mp ht
  rw [Object.get, hv]
  exact hadmits

theorem optionalFields_text : ∀ key ∈ optionalFields, key ≠ "evidence" →
    alert.get key = .null ∨ (alert.get key).isStr = true := by
  have hkeys : (optionalFields.all fun key => key = "evidence" ||
      (alertProperties.lookup key).all (onlyTypes [.string, .null])) = true := by decide
  intro key hkey hne
  have hall := List.all_eq_true.mp hkeys key hkey
  rw [decide_eq_false hne, Bool.false_or] at hall
  rcases admitted_or_absent h hall with hnull | ⟨t, ht, hadmits⟩
  · exact .inl hnull
  · rcases List.mem_pair.mp ht with rfl | rfl
    · exact .inr hadmits
    · cases hv : alert.get key with
      | null => exact .inl rfl
      | _ =>
          rw [hv] at hadmits
          cases hadmits

theorem evidence_object : alert.get "evidence" = .null ∨ ∃ fields, alert.get "evidence" = .obj fields := by
  have htypes : (alertProperties.lookup "evidence").all (onlyTypes [.object, .null]) = true := by decide
  rcases admitted_or_absent h htypes with hnull | ⟨t, ht, hadmits⟩
  · exact .inl hnull
  · rcases List.mem_pair.mp ht with rfl | rfl
    · cases hv : alert.get "evidence" with
      | obj fields => exact .inr ⟨fields, rfl⟩
      | _ =>
          rw [hv] at hadmits
          cases hadmits
    · cases hv : alert.get "evidence" with
      | null => exact .inl rfl
      | _ =>
          rw [hv] at hadmits
          cases hadmits

end

/-! ## Evidence -/

/-- An object is replaced by its JSON text. -/
def encodedEvidence (rt : Runtime) : Json → Json
  | .obj fields => .str (rt.dumps (.obj fields))
  | v => v

theorem get_serializeEvidence_of_ne {key : String} (h : key ≠ "evidence") :
    (serializeEvidence rt raw).get key = raw.get key := by
  rw [Object.get, lookup_serializeEvidence raw h, Object.get]

theorem get_serializeEvidence (rt : Runtime) (h : raw.get "evidence" = .null ∨ ∃ fields, raw.get "evidence" = .obj fields) :
    (serializeEvidence rt raw).get "evidence" = encodedEvidence rt (raw.get "evidence") := by
  rcases h with h | ⟨fields, h⟩
  · rw [serializeEvidence, h]
    exact h
  · rw [serializeEvidence, h, Object.get, Object.lookup_set_self]
    rfl

/-- `process_batch` finds what `run_sink` has encoded. -/
theorem serializeEvidence_twice (h : raw.get "evidence" = .null ∨ ∃ fields, raw.get "evidence" = .obj fields) :
    serializeEvidence rt (serializeEvidence rt raw) = serializeEvidence rt raw := by
  have hget := get_serializeEvidence rt h
  rw [serializeEvidence, hget]
  rcases h with h | ⟨fields, h⟩
  · rw [h]
    rfl
  · rw [h]
    rfl

/-! ## Numbers -/

/-- The number is the value of a double. -/
def DoubleValue : Json → ℚ → Prop
  | .int i, q => q = i ∧ ∃ (m : ℤ) (e : ℕ), m.natAbs < 2 ^ 53 ∧ e ≤ 971 ∧ i = m * 2 ^ e
  | .float (.fin x), q => q = x
  | _, _ => False

theorem natAbs_mul_pow_le {m : ℤ} {e k n : ℕ} (hm : m.natAbs ≤ k) (he : e ≤ n) :
    (m * 2 ^ e).natAbs ≤ k * 2 ^ n := by
  rw [Int.natAbs_mul, Int.natAbs_pow]
  exact Nat.mul_le_mul hm (Nat.pow_le_pow_right (Nat.succ_pos 1) he)

theorem natAbs_lt_of_double {m : ℤ} {e : ℕ} (hm : m.natAbs < 2 ^ 53) (he : e ≤ 971) :
    (m * 2 ^ e).natAbs < 2 ^ 1024 - 2 ^ 970 :=
  (natAbs_mul_pow_le (Nat.le_pred_of_lt hm) he).trans_lt (by decide +kernel)

theorem floatField_of_double {v : Json} {q : ℚ} (h : DoubleValue v q) : floatField rt v = some (.fin q) := by
  cases v with
  | int i =>
      obtain ⟨rfl, m, e, hm, he, rfl⟩ := h
      rw [floatField, toFloat, if_pos (natAbs_lt_of_double hm he)]
      · rfl
      · nofun
      · nofun
  | float x =>
      cases x with
      | fin x =>
          obtain rfl : q = x := h
          rfl
      | nan => exact h.elim
      | inf neg => exact h.elim
  | _ => exact h.elim

/-! ## The sink accepts what the pipeline validates -/

/-- The payload has the alert's value in every field that the schema and the payload share. -/
structure Kept (rt : Runtime) (alert : Object) (q : ℚ) (payload : AlertPayload) : Prop where
  fields : ∀ key ∈ alertProperties.map Prod.fst, key ∈ payload.modelDump.map Prod.fst →
    key ≠ "confidence_score" → key ≠ "evidence" → payload.modelDump.get key = alert.get key
  confidence : payload.confidenceScore = .fin q
  evidence : payload.modelDump.get "evidence" = encodedEvidence rt (alert.get "evidence")

theorem readMessage_of_reload {rt : Runtime} {alert : Object} {m : Message}
    (hid : (alert.get "alert_id").truthy = true) (hunicode : Json.WellFormed (.obj alert))
    (hparsed : m.parsed = some (Json.reload (.obj alert))) (hsize : m.size ≤ maxMsgSize) :
    readMessage rt m = some (serializeEvidence rt alert) := by
  rw [readMessage, if_neg (Nat.not_lt.mpr hsize), hparsed, Json.reload_eq hunicode]
  exact if_pos hid

theorem floatField_serializeEvidence {rt : Runtime} {alert : Object} {q : ℚ}
    (hscore : DoubleValue (alert.get "confidence_score") q) :
    ((serializeEvidence rt alert).lookup "confidence_score").bind (floatField rt) = some (.fin q) := by
  rw [lookup_serializeEvidence alert (by decide)]
  rw [Object.get] at hscore
  cases hv : alert.lookup "confidence_score" with
  | none =>
      rw [hv] at hscore
      exact hscore.elim
  | some v =>
      rw [hv] at hscore
      exact floatField_of_double hscore

section

variable {rt : SchemaRuntime} {alert : Object} (hvalid : validateAlert rt alert = true)

include hvalid

theorem alertId_truthy (hid : alert.get "alert_id" ≠ .str "") : (alert.get "alert_id").truthy = true := by
  have hstr := requiredFields_text hvalid "alert_id" (by decide)
  cases hv : alert.get "alert_id" with
  | str s =>
      rw [hv] at hid
      exact bne_iff_ne.mpr fun h => hid (by rw [h])
  | lone units => rfl
  | null | bool _ | int _ | float _ | arr _ | obj _ =>
      rw [hv] at hstr
      cases hstr

theorem serialized_required : ∀ key ∈ requiredFields,
    ((serializeEvidence rt.toRuntime alert).get key).isStr = true := by
  intro key hkey
  rw [get_serializeEvidence_of_ne (by rintro rfl; exact absurd hkey (by decide))]
  exact requiredFields_text hvalid key hkey

theorem serialized_optional : ∀ key ∈ optionalFields, (serializeEvidence rt.toRuntime alert).get key = .null ∨
    ((serializeEvidence rt.toRuntime alert).get key).isStr = true := by
  intro key hkey
  by_cases hne : key = "evidence"
  · rw [hne, get_serializeEvidence rt.toRuntime (evidence_object hvalid)]
    rcases evidence_object hvalid with h | ⟨fields, h⟩
    · exact .inl (by rw [h]; rfl)
    · exact .inr (by rw [h]; rfl)
  · rw [get_serializeEvidence_of_ne hne]
    exact optionalFields_text hvalid key hkey hne

end

/-- All fields of a payload but the score are texts. -/
theorem modelDump_keys (payload : AlertPayload) : ∀ key ∈ payload.modelDump.map Prod.fst,
    key ≠ "confidence_score" → key ∈ requiredFields ++ optionalFields := by
  change ∀ key ∈ ["alert_id", "event_type", "timestamp", "threat_class", "severity", "confidence_score",
    "source_ip", "destination_ip", "evidence", "trace_id", "flow_id", "span_id", "mitre_tactic",
    "mitre_technique", "model_name", "model_version", "schema_version"], key ≠ "confidence_score" → _
  decide

theorem validated_accepted (rt : SchemaRuntime) (alert : Object) (q : ℚ) (m : Message)
    (hvalid : validateAlert rt alert = true) (hid : alert.get "alert_id" ≠ .str "")
    (hscore : DoubleValue (alert.get "confidence_score") q) (hunicode : Json.WellFormed (.obj alert))
    (hparsed : m.parsed = some (Json.reload (.obj alert))) (hsize : m.size ≤ maxMsgSize) :
    ∃ data payload, readMessage rt.toRuntime m = some data ∧
      validatePayload rt.toRuntime (serializeEvidence rt.toRuntime data) = some payload ∧
      Kept rt.toRuntime alert q payload := by
  have hevidence := evidence_object hvalid
  have hread : readMessage rt.toRuntime m = some (serializeEvidence rt.toRuntime alert) :=
    readMessage_of_reload (alertId_truthy hvalid hid) hunicode hparsed hsize
  obtain ⟨payload, hpayload, hconfidence, hsame⟩ := exists_payload (serialized_required hvalid)
    (serialized_optional hvalid) (floatField_serializeEvidence hscore)
  refine ⟨_, payload, hread, by rwa [serializeEvidence_twice hevidence], ?_, hconfidence, ?_⟩
  · intro key _ hkey hscore' hne
    rw [hsame key (modelDump_keys payload key hkey hscore'), get_serializeEvidence_of_ne hne]
  · rw [hsame "evidence" (by decide), get_serializeEvidence rt.toRuntime hevidence]

/-- With an object, a null and the field the payload does not have. -/
def replayedAlert : Object :=
  validAlert "10.0.0.5" ++ [("evidence", .obj [("port", .int 80)]), ("flow_id", .null), ("is_replay", .bool true)]

theorem validated_accepted_replayed :
    ∃ data payload, readMessage linkLocalRuntime.toRuntime
          ⟨⟨"security_alerts", 0⟩, 0, 400, some (Json.reload (.obj replayedAlert))⟩ = some data ∧
        validatePayload linkLocalRuntime.toRuntime (serializeEvidence linkLocalRuntime.toRuntime data) =
          some payload ∧
        Kept linkLocalRuntime.toRuntime replayedAlert 1 payload :=
  validated_accepted linkLocalRuntime replayedAlert 1 _ (by decide) (by decide) rfl
    ⟨by decide, by simp [replayedAlert, validAlert, Json.WellFormedFields, Json.WellFormed]⟩ rfl (by decide)

end NeuralSoc.Sink
