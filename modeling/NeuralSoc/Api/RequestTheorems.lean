import NeuralSoc.Api.Lemmas.Requests
import NeuralSoc.Api.Theorems

/-!
# The address and the rate-limit key of a request
-/

namespace NeuralSoc.Api

/-! ## Forwarded addresses -/

/-- A trusted peer's forwarded-for text decides the address whatever a client has put before it, as long as
the whole header is short enough to be read; a longer one is as good as none. -/
theorem prefix_keeps_address (g : Gateway) (r : HttpRequest) (p h : String)
    (hpeer : isTrustedProxy g (clientIp g r) = true)
    (hclient : ∃ ip ∈ lastHops h, (clientAddress g ip).isSome) :
    ((p ++ "," ++ h).length ≤ maxXffHeaderLen →
      ∃ a, rightmostClient g (forwardedEntries h) = some a ∧
        getRemoteAddress g { r with xForwardedFor := some h } = a ∧
        getRemoteAddress g { r with xForwardedFor := some (p ++ "," ++ h) } = a) ∧
      (maxXffHeaderLen < (p ++ "," ++ h).length →
        getRemoteAddress g { r with xForwardedFor := some (p ++ "," ++ h) } =
          getRemoteAddress g { r with xForwardedFor := none }) := by
  refine ⟨fun hlen => ?_, getRemoteAddress_oversized r⟩
  obtain ⟨a, ha⟩ := exists_rightmostClient hclient
  have hne : h ≠ "" := by
    rintro rfl
    obtain ⟨ip, hmem, -⟩ := hclient
    exact absurd hmem (by simp [lastHops, forwardedEntries, strip_empty])
  have hne' : p ++ "," ++ h ≠ "" := by
    intro heq
    have hlength := congrArg String.length heq
    simp only [String.length_append] at hlength
    exact absurd hlength (by simp)
  have hshort : h.length ≤ maxXffHeaderLen := by
    rw [String.length_append] at hlen
    omega
  refine ⟨a, rightmostClient_entries ha, ?_, ?_⟩
  · rw [getRemoteAddress_forwarded hpeer hne hshort, scanHops_of_findSome ha []]
    rfl
  · rw [getRemoteAddress_forwarded hpeer hne' hlen, scanHops_prefix ha p]
    rfl

def leadSession : Claims :=
  { sub := "4", scopes := roleScopes .lead, iat := 0, exp := 1800, jti := "jti-4", tenantId := some 7,
    userId := some 4, purpose := none }

/-- Addresses are written in full, and the only token is spelled out. -/
def plainGateway : Gateway where
  apiKey := "the-static-key"
  ipAddress text :=
    if text ∈ ["127.0.0.1", "198.51.100.9", "203.0.113.7"] then some text else none
  trusted addr := addr = "127.0.0.1"
  httpBearer header :=
    if isBearer header && bearerText header ≠ "" then some (bearerText header) else none
  payload text := if text = "head.body.signature" then some leadSession else none

def forwardedRequest (forwarded : String) : HttpRequest where
  authorization := none
  xApiKey := none
  xForwardedFor := some forwarded
  xRealIp := some "198.51.100.9"
  client := some "127.0.0.1"

theorem prefix_keeps_address_short :
    getRemoteAddress plainGateway (forwardedRequest "198.51.100.9,203.0.113.7") = "203.0.113.7" := by
  obtain ⟨a, ha, -, hprefix⟩ := (prefix_keeps_address plainGateway (forwardedRequest "") "198.51.100.9"
    "203.0.113.7" (by decide +kernel) ⟨"203.0.113.7", by decide +kernel, by decide +kernel⟩).1
    (by decide +kernel)
  have hclient : rightmostClient plainGateway (forwardedEntries "203.0.113.7") = some "203.0.113.7" := by
    decide +kernel
  cases ha.symm.trans hclient
  exact hprefix

/-- With two thousand characters in front of it the proxy's entry is not read, and a header of the client's
own decides. -/
theorem long_prefix_chooses_address :
    getRemoteAddress plainGateway (forwardedRequest "203.0.113.7") = "203.0.113.7" ∧
      getRemoteAddress plainGateway
        (forwardedRequest (String.ofList (List.replicate 2048 '1') ++ "," ++ "203.0.113.7")) =
          "198.51.100.9" := by
  refine ⟨by decide +kernel, ?_⟩
  have hlong : maxXffHeaderLen <
      (String.ofList (List.replicate 2048 '1') ++ "," ++ "203.0.113.7").length := by
    rw [String.length_append, String.length_append, String.length_ofList, List.length_replicate]
    decide
  exact (getRemoteAddress_oversized (forwardedRequest "") hlong).trans (by decide +kernel)

/-! ## Rate limits -/

/-- The key of an authenticated request is its tenant's exactly when no other token is looked at: the request
has no bearer credentials or no `X-API-Key`, or that key is a token of the same tenant. -/
theorem key_follows_tenant_iff (g : Gateway) (env : Env) (w : World) (r : HttpRequest)
    (principal : Principal) (tenantId : ℕ) (haddresses : PlainAddresses g)
    (hbearer : ∀ header text, g.httpBearer header = some text →
      isBearer header = true ∧ text = bearerText header)
    (hauth : (verifyAuthOf g env r w).1 = .ok principal) (htenant : principal.tenantId = some tenantId) :
    getTenantAwareKey g env w r = "tenant:" ++ toString tenantId ↔
      present (r.credentials g) = none ∨ present r.xApiKey = none ∨
        ∃ key, r.xApiKey = some key ∧ tokenTenant g env w key = some tenantId := by
  obtain ⟨text, htext, hverified⟩ := verifyAuthOf_tenant hauth htenant
  cases hcredentials : present (r.credentials g) with
  | none =>
      rw [extractToken_of_none hcredentials] at htext
      exact iff_of_true ((getTenantAwareKey_iff haddresses htext tenantId).mpr hverified) (Or.inl rfl)
  | some c =>
      rw [extractToken_of_credentials hcredentials] at htext
      obtain ⟨heq, hne⟩ := present_eq_some.mp htext
      cases heq
      cases hkey : present r.xApiKey with
      | none =>
          -- the same token, read from the header once more
          obtain ⟨header, hheader, hlib⟩ := Option.bind_eq_some_iff.mp (present_eq_some.mp hcredentials).1
          obtain ⟨hscheme, rfl⟩ := hbearer header text hlib
          have htoken : present (extractToken r none) = some (bearerText header) :=
            present_eq_some.mpr ⟨extractToken_of_bearer hkey hheader hscheme, hne⟩
          exact iff_of_true ((getTenantAwareKey_iff haddresses htoken tenantId).mpr hverified)
            (Or.inr (Or.inl rfl))
      | some key =>
          obtain ⟨hsame, hkeyne⟩ := present_eq_some.mp hkey
          have htoken : present (extractToken r none) = some key :=
            present_eq_some.mpr ⟨extractToken_of_key rfl hkey, hkeyne⟩
          rw [getTenantAwareKey_iff haddresses htoken tenantId, hsame]
          simp

def bearerRequest (xApiKey : Option String) : HttpRequest where
  authorization := some "Bearer head.body.signature"
  xApiKey := xApiKey
  xForwardedFor := none
  xRealIp := none
  client := some "198.51.100.9"

def leadWorld : World := { emptyWorld with issued := [leadSession] }

theorem plain_addresses : PlainAddresses plainGateway := by
  intro text addr h
  obtain ⟨hmem, heq⟩ := Option.ite_none_right_eq_some.mp h
  cases heq
  simp only [List.mem_cons, List.not_mem_nil, or_false] at hmem
  rcases hmem with rfl | rfl | rfl <;> decide

theorem plain_bearer (header text : String) (h : plainGateway.httpBearer header = some text) :
    isBearer header = true ∧ text = bearerText header := by
  obtain ⟨hgood, heq⟩ := Option.ite_none_right_eq_some.mp h
  exact ⟨(Bool.and_eq_true_iff.mp hgood).1, (Option.some.inj heq).symm⟩

theorem bearer_alone_keyed :
    getTenantAwareKey plainGateway (plainEnvAt 60 "") leadWorld (bearerRequest none) = "tenant:7" :=
  (key_follows_tenant_iff plainGateway (plainEnvAt 60 "") leadWorld (bearerRequest none)
    ⟨"4", roleScopes .lead, some 7, some 4⟩ 7 plain_addresses plain_bearer (by decide +kernel) rfl).mpr
    (Or.inr (Or.inl rfl))

/-- A second header that authenticates nobody takes the request out of its tenant's budget. -/
theorem spare_header_changes_key :
    (verifyAuthOf plainGateway (plainEnvAt 60 "") (bearerRequest (some "junk")) leadWorld).1 =
        .ok ⟨"4", roleScopes .lead, some 7, some 4⟩ ∧
      getTenantAwareKey plainGateway (plainEnvAt 60 "") leadWorld (bearerRequest (some "junk")) =
        "198.51.100.9" := by
  decide +kernel

end NeuralSoc.Api
