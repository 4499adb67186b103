import NeuralSoc.Conn.Tracker
import NeuralSoc.Correlation.Correlator
import NeuralSoc.Dns.Tracker

/-!
# The names of the Redis keys

Every key that the correlator and the two trackers build, as the text that Redis sees. The other models keep
one record for each address instead.
-/

namespace NeuralSoc.Keys

open Correlation

/-! ## As the code writes them -/

/-- `key_name` -/
def keyName (srcIp : String) : String := "\x7b" ++ srcIp ++ "\x7d:alerts"

/-- `dedup_name` -/
def dedupName (srcIp safeThreat : String) : String := "\x7b" ++ srcIp ++ "\x7d:dedup:" ++ safeThreat

/-- `seen_key` of both scripts -/
def seenKey (keyName : String) : String := keyName ++ ":seen"

/-- `count_key` of both scripts -/
def countKey (keyName : String) : String := keyName ++ ":cnt"

/-- `key` of `record_query` -/
def domainsKey (safeIp : String) : String := "\x7b" ++ safeIp ++ "\x7d:dns_domains"

/-- `total_key` -/
def totalKey (safeIp : String) : String := "\x7b" ++ safeIp ++ "\x7d:dns_responses"

/-- `nx_key` -/
def nxKey (safeIp : String) : String := "\x7b" ++ safeIp ++ "\x7d:dns_nxdomain"

/-! ## What they stand for -/

inductive KeyName where
  | alerts (srcIp : String)
  | seen (srcIp : String)
  | cnt (srcIp : String)
  | dedup (srcIp safeThreat : String)
  | connPair (pair : String × String)
  | dnsDomains (safeIp : String)
  | dnsResponses (safeIp : String)
  | dnsNxdomain (safeIp : String)
  deriving DecidableEq

def KeyName.text : KeyName → String
  | .alerts srcIp => keyName srcIp
  | .seen srcIp => seenKey (keyName srcIp)
  | .cnt srcIp => countKey (keyName srcIp)
  | .dedup srcIp safeThreat => dedupName srcIp safeThreat
  | .connPair pair => Conn.pairKey pair
  | .dnsDomains safeIp => domainsKey safeIp
  | .dnsResponses safeIp => totalKey safeIp
  | .dnsNxdomain safeIp => nxKey safeIp

/-- The keys of an alert, whether it is added or rolled back, of a connection and of a DNS query or response. -/
inductive Built (rt : Runtime) : KeyName → Prop
  | alerts {alert : Object} {srcIp : String} (h : sourceAddress rt alert = some srcIp) :
      Built rt (.alerts srcIp)
  | seen {alert : Object} {srcIp : String} (h : sourceAddress rt alert = some srcIp) :
      Built rt (.seen srcIp)
  | cnt {alert : Object} {srcIp : String} (h : sourceAddress rt alert = some srcIp) :
      Built rt (.cnt srcIp)
  | dedup {alert : Object} {srcIp : String} (h : sourceAddress rt alert = some srcIp) :
      Built rt (.dedup srcIp (safeThreat rt alert))
  | connPair {sourceIp destIp : String} {pair : String × String}
      (h : Conn.safePair rt sourceIp destIp = some pair) : Built rt (.connPair pair)
  | dnsDomains {sourceIp safeIp : String} (h : Dns.validateSourceIp rt sourceIp = some safeIp) :
      Built rt (.dnsDomains safeIp)
  | dnsResponses {sourceIp safeIp : String} (h : Dns.validateSourceIp rt sourceIp = some safeIp) :
      Built rt (.dnsResponses safeIp)
  | dnsNxdomain {sourceIp safeIp : String} (h : Dns.validateSourceIp rt sourceIp = some safeIp) :
      Built rt (.dnsNxdomain safeIp)

/-! ## Addresses as `ipaddress` prints them -/

def isAddressChar (c : Char) : Bool :=
  c.isDigit || ('a' ≤ c && c ≤ 'f') || ('A' ≤ c && c ≤ 'F') || c == '.' || c == ':'

/-- An address, with a scope or without. -/
inductive AddressText : List Char → Prop
  | plain {host : List Char} (hhost : ∀ c ∈ host, isAddressChar c = true) : AddressText host
  | withScope {host scope : List Char} (hhost : ∀ c ∈ host, isAddressChar c = true) (hne : scope ≠ [])
      (hpercent : '%' ∉ scope) (hslash : '/' ∉ scope) : AddressText (host ++ '%' :: scope)

def PrintsAddresses (rt : Runtime) : Prop := ∀ s a, rt.ipAddress s = some a → AddressText a.toList

end NeuralSoc.Keys
