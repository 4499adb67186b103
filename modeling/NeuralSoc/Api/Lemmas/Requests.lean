import NeuralSoc.Api.Requests
import NeuralSoc.Api.Lemmas.Accounts

/-!
# What the headers of a request say

The remote address depends on the hops on the right of a forwarded-for text, and the token of a request on
whether its credentials have been parsed.
-/

namespace NeuralSoc.Api

open Handler

variable {g : Gateway}

/-! ## The hops -/

def clientAddress (g : Gateway) (ip : String) : Option String :=
  (validateIp g ip).filter fun valid => !isTrustedProxy g valid

/-- The rightmost valid address that is not a trusted proxy. -/
def rightmostClient (g : Gateway) (ips : List String) : Option String :=
  ips.reverse.findSome? (clientAddress g)

theorem forwardedEntries_append (p h : String) :
    forwardedEntries (p ++ "," ++ h) = forwardedEntries p ++ forwardedEntries h := by
  have hchars : (p ++ "," ++ h).toList = p.toList ++ ',' :: h.toList := by simp
  rw [forwardedEntries, hchars, List.splitOn_append_cons_self, List.map_append, List.filter_append]
  rfl

theorem reverse_lastHops (forwarded : String) :
    (lastHops forwarded).reverse = (forwardedEntries forwarded).reverse.take maxXffHops := by
  rw [lastHops, List.reverse_drop, List.take_eq_take_iff, List.length_reverse]
  omega

theorem scanHops_of_findSome {ips : List String} {a : String} (h : ips.findSome? (clientAddress g) = some a)
    (validIps : List String) : scanHops g validIps ips = some a := by
  induction ips generalizing validIps with
  | nil => cases h
  | cons ip ips ih =>
      rw [List.findSome?_cons] at h
      rw [scanHops]
      cases hvalid : validateIp g ip with
      | none =>
          rw [clientAddress, hvalid] at h
          exact ih h validIps
      | some valid =>
          dsimp only
          cases htrusted : isTrustedProxy g valid with
          | true =>
              rw [clientAddress, hvalid, Option.filter_some, htrusted] at h
              exact ih h _
          | false =>
              rw [clientAddress, hvalid, Option.filter_some, htrusted] at h
              exact h

theorem findSome?_take_append {α β : Type} {f : α → Option β} {xs : List α} {n : ℕ} {b : β}
    (h : (xs.take n).findSome? f = some b) (ys : List α) : ((xs ++ ys).take n).findSome? f = some b := by
  rw [List.take_append, List.findSome?_append, h]
  rfl

theorem findSome?_of_take {α β : Type} {f : α → Option β} {xs : List α} {n : ℕ} {b : β}
    (h : (xs.take n).findSome? f = some b) : xs.findSome? f = some b := by
  rw [← List.take_append_drop n xs, List.findSome?_append, h]
  rfl

/-- The scan of a text finds a client among the last hops, whatever stands before the text. -/
theorem scanHops_prefix {h a : String} (hclient : rightmostClient g (lastHops h) = some a) (p : String) :
    scanHops g [] (lastHops (p ++ "," ++ h)).reverse = some a := by
  apply scanHops_of_findSome
  rw [rightmostClient, reverse_lastHops] at hclient
  rw [reverse_lastHops, forwardedEntries_append, List.reverse_append]
  exact findSome?_take_append hclient _

theorem rightmostClient_entries {h a : String} (hclient : rightmostClient g (lastHops h) = some a) :
    rightmostClient g (forwardedEntries h) = some a := by
  rw [rightmostClient, reverse_lastHops] at hclient
  exact findSome?_of_take hclient

theorem exists_rightmostClient {ips : List String} (h : ∃ ip ∈ ips, (clientAddress g ip).isSome) :
    ∃ a, rightmostClient g ips = some a := by
  obtain ⟨ip, hmem, hsome⟩ := h
  refine Option.isSome_iff_exists.mp (List.findSome?_isSome_iff.mpr ⟨ip, ?_, hsome⟩)
  exact List.mem_reverse.mpr hmem

/-! ## The remote address -/

theorem getRemoteAddress_forwarded {r : HttpRequest} (hpeer : isTrustedProxy g (clientIp g r) = true)
    {forwarded : String} (hne : forwarded ≠ "") (hlen : forwarded.length ≤ maxXffHeaderLen) :
    getRemoteAddress g { r with xForwardedFor := some forwarded } =
      (scanHops g [] (lastHops forwarded).reverse).getD (clientIp g r) := by
  have hpresent : present (some forwarded) = some forwarded := by
    rw [present, Option.filter_some, if_pos (decide_eq_true hne)]
  have hsame : clientIp g { r with xForwardedFor := some forwarded } = clientIp g r := rfl
  rw [getRemoteAddress, hsame, if_pos hpeer, hpresent, Option.filter_some, if_pos (decide_eq_true hlen)]

theorem getRemoteAddress_oversized (r : HttpRequest) {forwarded : String}
    (hlen : maxXffHeaderLen < forwarded.length) :
    getRemoteAddress g { r with xForwardedFor := some forwarded } =
      getRemoteAddress g { r with xForwardedFor := none } := by
  have hdropped : (present (some forwarded)).filter
      (fun forwarded => decide (forwarded.length ≤ maxXffHeaderLen)) = none := by
    rw [Option.filter_eq_none_iff]
    intro text htext
    cases (Option.filter_eq_some_iff.mp htext).1
    simpa using hlen
  rw [getRemoteAddress, getRemoteAddress, hdropped]
  rfl

theorem scanHops_valid {ips validIps : List String} {a : String} (h : scanHops g validIps ips = some a) :
    a ∈ validIps ∨ ∃ text, validateIp g text = some a := by
  induction ips generalizing validIps with
  | nil => exact Or.inl (List.mem_of_getLast? h)
  | cons ip ips ih =>
      rw [scanHops] at h
      split at h
      · exact ih h
      · rename_i valid hvalid
        split at h
        · rcases ih h with hmem | hother
          · rcases List.mem_append.mp hmem with hmem | hmem
            · exact Or.inl hmem
            · rw [List.mem_singleton.mp hmem]
              exact Or.inr ⟨ip, hvalid⟩
          · exact Or.inr hother
        · cases h
          exact Or.inr ⟨ip, hvalid⟩

/-- Whichever header it comes from, the address is one that `ipaddress` has printed. -/
theorem getRemoteAddress_valid (g : Gateway) (r : HttpRequest) :
    getRemoteAddress g r = "127.0.0.1" ∨ ∃ text, validateIp g text = some (getRemoteAddress g r) := by
  have hpeer : clientIp g r = "127.0.0.1" ∨ ∃ text, validateIp g text = some (clientIp g r) := by
    rw [clientIp]
    cases haddr : validateIp g (r.client.getD "127.0.0.1") with
    | none => exact Or.inl rfl
    | some addr => exact Or.inr ⟨_, haddr⟩
  rw [getRemoteAddress]
  split
  · split
    · rename_i forwarded _
      cases ha : scanHops g [] (lastHops forwarded).reverse with
      | none => exact hpeer
      | some a =>
          rcases scanHops_valid ha with hmem | hvalid
          · cases hmem
          · exact Or.inr hvalid
    · cases ha : (present r.xRealIp).bind (validateIp g) with
      | none => exact hpeer
      | some a =>
          obtain ⟨text, -, htext⟩ := Option.bind_eq_some_iff.mp ha
          exact Or.inr ⟨text, htext⟩
  · exact hpeer

/-- No address that is printed begins like the key of a tenant. -/
def PlainAddresses (g : Gateway) : Prop :=
  ∀ text addr, g.ipAddress text = some addr → addr.toList.head? ≠ some 't'

theorem getRemoteAddress_ne_tenant (h : PlainAddresses g) (r : HttpRequest) (tenantId : ℕ) :
    getRemoteAddress g r ≠ "tenant:" ++ toString tenantId := by
  intro heq
  have hhead : (getRemoteAddress g r).toList.head? = some 't' := by
    rw [heq, String.toList_append]
    rfl
  rcases getRemoteAddress_valid g r with hlocal | ⟨text, htext⟩
  · rw [hlocal] at hhead
    exact absurd hhead (by decide)
  · exact h _ _ htext hhead

/-! ## The token of a request -/

theorem present_eq_some {header : Option String} {text : String} :
    present header = some text ↔ header = some text ∧ text ≠ "" := by
  simp [present, Option.filter_eq_some_iff]

theorem extractToken_of_credentials {r : HttpRequest} {credentials : Option String} {text : String}
    (h : present credentials = some text) : extractToken r credentials = some text := by
  rw [extractToken, h]

theorem extractToken_of_key {r : HttpRequest} {credentials : Option String} {key : String}
    (h : present credentials = none) (hkey : present r.xApiKey = some key) :
    extractToken r credentials = some key := by
  rw [extractToken, h, hkey]

theorem extractToken_of_none {r : HttpRequest} {credentials : Option String}
    (h : present credentials = none) : extractToken r credentials = extractToken r none := by
  rw [extractToken, h]
  rfl

theorem extractToken_of_bearer {r : HttpRequest} {header : String} (hkey : present r.xApiKey = none)
    (hheader : r.authorization = some header) (hscheme : isBearer header = true) :
    extractToken r none = some (bearerText header) := by
  have hne : header ≠ "" := by
    rintro rfl
    exact absurd hscheme (by decide)
  have hpresent : present r.authorization = some header := present_eq_some.mpr ⟨hheader, hne⟩
  rw [extractToken, hkey, hpresent, Option.map_some, if_pos hscheme]
  rfl

/-- The key is the tenant's exactly when the token that is looked at is one of the tenant. -/
theorem getTenantAwareKey_iff (haddresses : PlainAddresses g) {env : Env} {w : World} {r : HttpRequest}
    {text : String} (htoken : present (extractToken r none) = some text) (tenantId : ℕ) :
    getTenantAwareKey g env w r = "tenant:" ++ toString tenantId ↔
      tokenTenant g env w text = some tenantId := by
  rw [getTenantAwareKey, htoken, Option.bind_some]
  cases hother : tokenTenant g env w text with
  | none => simpa using getRemoteAddress_ne_tenant haddresses r tenantId
  | some other =>
      have hinj : other.repr = tenantId.repr ↔ other = tenantId := ⟨toString_inj, congrArg Nat.repr⟩
      simp [hinj]

theorem verifyAuthOf_tenant {env : Env} {w : World} {r : HttpRequest} {principal : Principal} {tenantId : ℕ}
    (hauth : (verifyAuthOf g env r w).1 = .ok principal) (htenant : principal.tenantId = some tenantId) :
    ∃ text, present (extractToken r (r.credentials g)) = some text ∧
      tokenTenant g env w text = some tenantId := by
  have hrun : verifyAuthOf g env r w = (.ok principal, (verifyAuthOf g env r w).2) := by rw [← hauth]
  rcases (verifyAuth_ok hrun).2 with ⟨-, -, hnone⟩ | ⟨claims, hcredentials, hgood, rfl⟩
  · cases hnone.symm.trans htenant
  · obtain ⟨text, htext, htoken⟩ := Option.map_eq_some_iff.mp hcredentials
    refine ⟨text, htext, ?_⟩
    rw [toToken] at htoken
    split at htoken
    · cases htoken
    · split at htoken
      · rename_i c hpayload
        cases htoken
        simp only [tokenTenant, hpayload, hgood, Option.bind_eq_bind, Option.bind_some]
        exact htenant
      · cases htoken

end NeuralSoc.Api
