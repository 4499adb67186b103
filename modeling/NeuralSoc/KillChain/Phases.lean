import NeuralSoc.Base.Dict
import NeuralSoc.Base.Value

/-!
# The kill chain of an incident

`build_kill_chain` of `dashboard/components/ui.py`. The fields of an alert are texts or null, as the API returns
them.
-/

namespace NeuralSoc.KillChain

structure Alert where
  timestamp : Option String
  modelName : Option String
  threatClass : Option String
  severity : Option String
  mitreTactic : Option String
  mitreTechnique : Option String
  deriving DecidableEq, Repr

structure Phase where
  startTime : Option String
  endTime : Option String
  count : ℕ
  modelName : String
  threatClass : String
  severity : String
  mitreTactic : Option String
  mitreTechnique : Option String
  deriving DecidableEq, Repr

def severityOrder : List String := ["critical", "high", "medium", "low"]

/-- `_SEVERITY_ORDER_INDEX.get(severity, 99)` -/
def severityRank (severity : String) : ℕ := (severityOrder.zipIdx.lookup severity).getD 99

/-- `text or default` -/
def orText (text : Option String) (default : String) : String :=
  match text with
  | some s => if s = "" then default else s
  | none => default

abbrev Key := String × String

def Alert.key (a : Alert) : Key := (orText a.modelName "rule-based", orText a.threatClass "Unclassified")

def Phase.key (p : Phase) : Key := (p.modelName, p.threatClass)

/-- A missing timestamp sorts as the empty text. -/
def Alert.sortKey (a : Alert) : String := orText a.timestamp ""

variable (rt : Runtime)

/-- `(alert.get("severity") or "low").lower()` -/
def Alert.severityText (a : Alert) : String := rt.lower (orText a.severity "low")

def openPhase (a : Alert) : Phase where
  startTime := a.timestamp
  endTime := a.timestamp
  count := 1
  modelName := a.key.1
  threatClass := a.key.2
  severity := a.severityText rt
  mitreTactic := a.mitreTactic
  mitreTechnique := a.mitreTechnique

def Phase.extend (p : Phase) (a : Alert) : Phase :=
  { p with
    endTime := a.timestamp
    count := p.count + 1
    severity :=
      if severityRank (a.severityText rt) < severityRank p.severity then a.severityText rt else p.severity }

/-- `phases_by_key` and `order` -/
structure Chain where
  phasesByKey : Dict Key Phase
  order : List Key

def addAlert (c : Chain) (a : Alert) : Chain :=
  match c.phasesByKey.get? a.key with
  | none => ⟨c.phasesByKey.set a.key (openPhase rt a), c.order ++ [a.key]⟩
  | some p => { c with phasesByKey := c.phasesByKey.set a.key (p.extend rt a) }

/-- The sort is stable. -/
def ordered (alerts : List Alert) : List Alert := alerts.mergeSort fun a b => a.sortKey ≤ b.sortKey

def buildKillChain (alerts : List Alert) : List Phase :=
  let c := (ordered alerts).foldl (addAlert rt) ⟨.empty, []⟩
  c.order.filterMap c.phasesByKey.get?

end NeuralSoc.KillChain
