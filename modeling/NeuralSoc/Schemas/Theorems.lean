import Mathlib.Data.List.TakeWhile
import NeuralSoc.Conn.Lemmas.Members
import NeuralSoc.Correlation.Correlator
import NeuralSoc.Schemas.Alert

/-!
# The schema and the correlator

Both call `ip_address`, but the correlator strips the text before and measures the address afterwards. A scope
may begin or end with white space and has no bound.
-/

namespace NeuralSoc.Schemas

open Correlation

/-! ## Scopes -/

def rstrip (s : String) : String := String.ofList (s.toList.reverse.dropWhile isSpace).reverse

/-- What `ipaddress` does with a scope: `ipv6` prints the address before it. Without a scope a text is as short
as addresses are. -/
structure ReadsScopes (rt : Runtime) where
  ipv6 : String → Option String
  ipv6_no_space : ∀ host a, ipv6 host = some a → ∀ c ∈ host.toList, isSpace c = false
  with_scope : ∀ host scope, '%' ∉ host.toList → rt.ipAddress (host ++ "%" ++ scope) =
    if scope = "" ∨ '%' ∈ scope.toList ∨ '/' ∈ scope.toList then none
    else (ipv6 host).map fun a => a ++ "%" ++ scope
  without_scope : ∀ s a, '%' ∉ s.toList → rt.ipAddress s = some a →
    (∀ c ∈ s.toList, isSpace c = false) ∧ a.length ≤ 45

variable {rt : Runtime}

/-- Without its trailing white space the scope is not empty, and with it the address has 45 characters at
most. -/
def ReadsScopes.Fits (scopes : ReadsScopes rt) (address : String) : Prop :=
  ∀ host scope, '%' ∉ host.toList → address = host ++ "%" ++ scope →
    rstrip scope ≠ "" ∧ ∀ a, scopes.ipv6 host = some a → a.length + 1 + (rstrip scope).length ≤ 45

theorem dropWhile_of_none {α : Type*} {p : α → Bool} {xs : List α} (h : ∀ x ∈ xs, p x = false) :
    xs.dropWhile p = xs := by
  cases xs with
  | nil => rfl
  | cons x xs => rw [List.dropWhile_cons, h x List.mem_cons_self, if_neg (by decide)]

theorem strip_of_no_space {s : String} (h : ∀ c ∈ s.toList, isSpace c = false) : strip s = s := by
  rw [strip, dropWhile_of_none h, dropWhile_of_none fun c hc => h c (List.mem_reverse.mp hc),
    List.reverse_reverse, String.ofList_toList]

def linkLocalHost (host : String) : Option String := if host = "fe80::1" then some host else none

/-- One address of a link and its scopes, and one without a scope. -/
def linkLocal (s : String) : Option String :=
  match s.toList.dropWhile (· ≠ '%') with
  | [] => if s = "10.0.0.5" then some s else none
  | _ :: scope =>
      if scope = [] ∨ '%' ∈ scope ∨ '/' ∈ scope then none
      else (linkLocalHost (String.ofList (s.toList.takeWhile (· ≠ '%')))).map fun _ => s

def linkLocalRuntime : SchemaRuntime where
  toRuntime := { plainRuntime with ipAddress := linkLocal }
  isDateTime _ := true

def validAlert (address : String) : Object :=
  [("timestamp", .str "2025-01-01T00:00:00Z"), ("alert_id", .str "ALT-1"), ("event_type", .str "dns"),
    ("threat_class", .str "DDoS"), ("confidence_score", .float (.fin 1)), ("severity", .str "high"),
    ("source_ip", .str address), ("schema_version", .str "1.0")]

def upEnv : CallEnv := ⟨10, .ok (some "master"), .ok, "INC-1", 0, 0⟩

end NeuralSoc.Schemas
