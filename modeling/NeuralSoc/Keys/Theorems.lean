import NeuralSoc.Conn.Lemmas.Members
import NeuralSoc.Keys.Names

/-!
# Keys of different hosts are different

A scope may hold any character but `%` and `/`, so an address can contain the syntax of a key. What saves the
keys is that an address has one scope at most, and no brace before it.
-/

namespace NeuralSoc.Keys

open Conn (IsAddress hashTag_inj)
open Correlation

variable {rt : Runtime}

/-! ## The parts of a key -/

theorem not_scope {host : List Char} (hhost : ∀ c ∈ host, isAddressChar c = true) :
    '%' ∉ host ∧ '}' ∉ host :=
  ⟨fun h => absurd (hhost _ h) (by decide), fun h => absurd (hhost _ h) (by decide)⟩

theorem AddressText.isAddress {a : List Char} (h : AddressText a) : IsAddress a := by
  cases h with
  | plain hhost =>
      obtain ⟨hpercent, hbrace⟩ := not_scope hhost
      refine ⟨?_, ?_⟩
      · rw [List.count_eq_zero.mpr hpercent]
        exact Nat.zero_le _
      · rintro before after rfl
        exact absurd (by simp) hbrace
  | @withScope host scope hhost _ hnone _ =>
      obtain ⟨hpercent, hbrace⟩ := not_scope hhost
      refine ⟨?_, ?_⟩
      · simp [List.count_eq_zero.mpr hpercent, List.count_eq_zero.mpr hnone]
      · intro before after h
        -- the brace stands behind the `%`, as it is not in the host
        rcases List.append_eq_append_iff.mp h with ⟨m, rfl, hm⟩ | ⟨m, rfl, hm⟩
        · cases m with
          | nil => simp at hm
          | cons c m =>
              rw [List.cons_append, List.cons.injEq] at hm
              obtain ⟨rfl, -⟩ := hm
              simp
        · cases m with
          | nil => simp at hm
          | cons c m =>
              rw [List.cons_append, List.cons.injEq] at hm
              obtain ⟨rfl, -⟩ := hm
              exact absurd (by simp) hbrace

theorem isAddress_empty : IsAddress "".toList :=
  AddressText.isAddress (.plain fun _ h => absurd h List.not_mem_nil)

namespace KeyName

def source : KeyName → String
  | .alerts srcIp | .seen srcIp | .cnt srcIp | .dedup srcIp _ => srcIp
  | .connPair pair => pair.1
  | .dnsDomains safeIp | .dnsResponses safeIp | .dnsNxdomain safeIp => safeIp

/-- What follows the address, without a destination. -/
def label : KeyName → String
  | .alerts _ => ":alerts"
  | .seen _ => ":alerts:seen"
  | .cnt _ => ":alerts:cnt"
  | .dedup _ safeThreat => ":dedup:" ++ safeThreat
  | .connPair _ => ":conn_pair:"
  | .dnsDomains _ => ":dns_domains"
  | .dnsResponses _ => ":dns_responses"
  | .dnsNxdomain _ => ":dns_nxdomain"

def destination : KeyName → String
  | .connPair pair => pair.2
  | _ => ""

theorem text_toList (k : KeyName) :
    k.text.toList =
      '{' :: (k.source.toList ++ '}' :: (k.label.toList ++ k.destination.toList)) := by
  cases k with
  | connPair pair => exact Conn.pairKey_toList pair
  | _ =>
      simp [text, source, label, destination, keyName, seenKey, countKey, dedupName, domainsKey, totalKey,
        nxKey, String.toList_append]

/-- The kind of a key, and what it is named after beside its source. -/
theorem eq_of_parts {k k' : KeyName} (hsource : k.source = k'.source)
    (hrest : k.label.toList ++ k.destination.toList = k'.label.toList ++ k'.destination.toList) :
    k = k' := by
  cases k <;> cases k' <;>
    simp_all [source, label, destination, Prod.ext_iff, String.toList_inj, String.toList_append]

end KeyName

/-! ## What is built -/

theorem brace_not_mem_sanitizeThreat (threat : String) : '}' ∉ (sanitizeThreat threat).toList := by
  unfold sanitizeThreat
  dsimp only
  split
  · decide
  · rw [String.toList_ofList]
    intro h
    obtain ⟨c, hc, hbrace⟩ := List.mem_map.mp (List.mem_of_mem_take h)
    have hchar := (List.mem_filter.mp hc).2
    split at hbrace
    · exact absurd hbrace (by decide)
    · rw [hbrace] at hchar
      exact absurd hchar (by decide)

theorem isAddress_of_normalizeIp (hprints : PrintsAddresses rt) {rawIp a : String}
    (h : normalizeIp rt rawIp = some a) : IsAddress a.toList := by
  unfold normalizeIp at h
  split at h
  · cases h
  · next normalized haddr =>
      split at h
      · cases h
      · cases h
        exact (hprints _ _ haddr).isAddress

theorem isAddress_of_sourceAddress (hprints : PrintsAddresses rt) {alert : Object} {a : String}
    (h : sourceAddress rt alert = some a) : IsAddress a.toList := by
  unfold sourceAddress at h
  split at h
  · cases h
  · exact (hprints _ _ h).isAddress

theorem isAddress_of_safePair (hprints : PrintsAddresses rt) {sourceIp destIp : String}
    {pair : String × String} (h : Conn.safePair rt sourceIp destIp = some pair) :
    IsAddress pair.1.toList ∧ IsAddress pair.2.toList := by
  unfold Conn.safePair at h
  split at h
  · next safeSrc safeDst hsrc hdst =>
      split at h
      · cases h
      · cases h
        exact ⟨isAddress_of_normalizeIp hprints hsrc, isAddress_of_normalizeIp hprints hdst⟩
  · cases h

theorem Built.isAddress (hprints : PrintsAddresses rt) {k : KeyName} (h : Built rt k) :
    IsAddress k.source.toList ∧ IsAddress k.destination.toList := by
  cases h with
  | alerts h | seen h | cnt h | dedup h => exact ⟨isAddress_of_sourceAddress hprints h, isAddress_empty⟩
  | connPair h => exact isAddress_of_safePair hprints h
  | dnsDomains h | dnsResponses h | dnsNxdomain h =>
      exact ⟨isAddress_of_normalizeIp hprints h, isAddress_empty⟩

theorem Built.label_no_brace {k : KeyName} (h : Built rt k) : '}' ∉ k.label.toList := by
  cases h with
  | @dedup alert srcIp h =>
      have hthreat := brace_not_mem_sanitizeThreat (threatClass rt alert)
      simpa [KeyName.label, safeThreat] using hthreat
  | _ => simp [KeyName.label]

/-- Two keys are one text only when they are of one kind, for one source and for one destination or class. -/
theorem keys_never_collide (rt : Runtime) (hprints : PrintsAddresses rt) (k k' : KeyName)
    (hk : Built rt k) (hk' : Built rt k') (h : k.text = k'.text) : k = k' := by
  obtain ⟨hsource, hdest⟩ := hk.isAddress hprints
  obtain ⟨hsource', hdest'⟩ := hk'.isAddress hprints
  have hlist := congrArg String.toList h
  rw [k.text_toList, k'.text_toList, List.cons.injEq] at hlist
  obtain ⟨hsame, hrest⟩ :=
    hashTag_inj hsource hsource' hdest hdest' hk.label_no_brace hk'.label_no_brace hlist.2
  exact KeyName.eq_of_parts (String.toList_inj.mp hsame) hrest

/-- It also knows an address whose scope looks like the rest of a key. -/
def scopedRuntime : Runtime :=
  { plainRuntime with
    ipAddress := fun s => if s = "fe80::1%e\x7d:alerts" then some s else plainRuntime.ipAddress s }

theorem scopedRuntime_prints : PrintsAddresses scopedRuntime := by
  intro s a h
  simp only [scopedRuntime, plainRuntime] at h
  split at h
  · next hs =>
      cases h
      rw [hs]
      exact @AddressText.withScope "fe80::1".toList "e\x7d:alerts".toList (List.all_eq_true.mp (by decide))
        (by decide) (by decide) (by decide)
  · split at h
    · next hs =>
        cases h
        simp only [Bool.or_eq_true, decide_eq_true_eq] at hs
        rcases hs with rfl | rfl
        · exact .plain (List.all_eq_true.mp (by decide))
        · exact .plain (List.all_eq_true.mp (by decide))
    · cases h

def alertFrom (sourceIp threatClass : String) : Object :=
  [("source_ip", .str sourceIp), ("threat_class", .str threatClass)]

/-- Two alerts with one key. -/
theorem keys_never_collide_scoped :
    KeyName.dedup "fe80::1%e\x7d:alerts" (safeThreat scopedRuntime (alertFrom " fe80::1%e\x7d:alerts" "DDoS")) =
      KeyName.dedup "fe80::1%e\x7d:alerts" (safeThreat scopedRuntime (alertFrom "fe80::1%e\x7d:alerts" "DDo-S")) :=
  keys_never_collide scopedRuntime scopedRuntime_prints _ _
    (@Built.dedup _ (alertFrom " fe80::1%e\x7d:alerts" "DDoS") _ (by decide))
    (@Built.dedup _ (alertFrom "fe80::1%e\x7d:alerts" "DDo-S") _ (by decide)) (by decide)

end NeuralSoc.Keys
