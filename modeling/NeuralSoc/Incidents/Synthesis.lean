import NeuralSoc.Base.Dict
import NeuralSoc.Base.Shell
import NeuralSoc.Correlation.Correlator
import NeuralSoc.Correlation.LogOdds

/-!
# Incidents for the console

`synthesize_incidents` groups the alerts it has fetched by their source. Sets are listed in the order of
insertion.
-/

namespace NeuralSoc.Incidents

open Shell Correlation

/-- The code points of a text value. -/
def textOf : Json → Option Text
  | .str s => some (points s)
  | .lone units => some units
  | _ => none

/-- `a.get("source_ip") or "127.0.0.1"` -/
def sourceOf (a : Object) : Json := (a.get "source_ip").or (.str "127.0.0.1")

/-- `"INC-" + src.replace(".", "-")` -/
def incidentIdOf (src : Text) : Text := points "INC-" ++ src.map fun c => if c = 46 then 45 else c

/-- `str(a.get("severity", "low")).lower()` -/
def severityOf (rt : Runtime) (a : Object) : String := rt.lower (rt.str (a.getD "severity" (.str "low")))

/-- `_SEVERITY_DISPLAY_ORDER.get(sev, 25.0)`, the table that the correlator has too. -/
def displayScore (sev : String) : ℕ := displayWeight sev

/-- `now src` is the clock's text when the group of a source is begun. -/
def timestampOf (now : Json → String) (a : Object) : Json := a.getD "timestamp" (.str (now (sourceOf a)))

structure Group where
  incidentId : Text
  createdTimestamp : Json
  severity : Json
  threatClasses : List Json
  affectedEntities : List Json
  relatedAlertIds : List Json
  maxSevScore : ℕ
  groupAlerts : List Object
  deriving DecidableEq

def addKey (x : Json) (s : List Json) : List Json := if s.any (sameKey x) then s else s ++ [x]

def unhashable : Exc := ⟨.typeError, "unhashable type"⟩

/-- A group before its first alert is added. -/
def Group.start (now : Json → String) (src : Text) (a : Object) : Group where
  incidentId := incidentIdOf src
  createdTimestamp := timestampOf now a
  severity := a.getD "severity" (.str "low")
  threatClasses := []
  affectedEntities := addKey (a.getD "destination_ip" (.str "")) [sourceOf a]
  relatedAlertIds := []
  maxSevScore := 0
  groupAlerts := []

def newGroup (now : Json → String) (a : Object) : Except Exc Group :=
  match textOf (sourceOf a) with
  | none =>
      .error (if hashable (sourceOf a) then ⟨.other, "object has no attribute 'replace'"⟩ else unhashable)
  | some src =>
      if !hashable (a.getD "destination_ip" (.str "")) then .error unhashable
      else .ok (.start now src a)

def Group.add (rt : Runtime) (a : Object) (inc : Group) : Except Exc Group :=
  match addTruthy (a.get "threat_class") inc.threatClasses with
  | none => .error unhashable
  | some threatClasses =>
      match addTruthy (a.get "destination_ip") inc.affectedEntities with
      | none => .error unhashable
      | some affectedEntities =>
          let alertId := a.get "alert_id"
          let sev := severityOf rt a
          let score := displayScore sev
          .ok { inc with
            threatClasses
            affectedEntities
            relatedAlertIds := if alertId.truthy then inc.relatedAlertIds ++ [alertId] else inc.relatedAlertIds
            maxSevScore := if inc.maxSevScore < score then score else inc.maxSevScore
            severity := if inc.maxSevScore < score then .str sev else inc.severity
            groupAlerts := inc.groupAlerts ++ [a] }

def addAlert (rt : Runtime) (now : Json → String) (bySrc : Dict Json Group) (a : Object) :
    Except Exc (Dict Json Group) := do
  let inc ← match bySrc.get? (sourceOf a) with
    | some inc => pure inc
    | none => newGroup now a
  let inc ← inc.add rt a
  return bySrc.set (sourceOf a) inc

/-- An incident as the console reads it, with the risk score in `ρ`. -/
structure Incident (ρ : Type) where
  incidentId : Text
  createdTimestamp : Json
  severity : Json
  riskScore : ρ
  threatClasses : List Json
  affectedEntities : List Json
  relatedAlertIds : List Json
  evidenceSummary : Text
  status : String := "active"
  mitreTactics : List String := ["Command and Control", "Initial Access"]
  mitreTechniques : List String := ["T1071", "T1132"]

variable {ρ : Type}

def evidenceSummary (alerts threats : ℕ) (src : Text) : Text :=
  points ("Aggregated " ++ toString alerts ++ " alert(s) across " ++ toString threats ++
    " threat class(es) involving ") ++ src

def present (src : Json) (inc : Group) (riskScore : ρ) : Incident ρ :=
  let threats := if inc.threatClasses = [] then [.str "Unclassified Threat"] else inc.threatClasses
  let entities := inc.affectedEntities.filter Json.truthy
  { incidentId := inc.incidentId
    createdTimestamp := inc.createdTimestamp
    severity := inc.severity
    riskScore
    threatClasses := threats
    affectedEntities := if entities = [] then [src] else entities
    relatedAlertIds := inc.relatedAlertIds
    evidenceSummary := evidenceSummary inc.groupAlerts.length threats.length ((textOf src).getD []) }

/-- The incidents, each with its source. -/
def synthesizeBySource (rt : Runtime) (score : List Object → Except Exc ρ) (now : Json → String)
    (alerts : List Object) : Except Exc (List (Json × Incident ρ)) := do
  let bySrc ← alerts.foldlM (addAlert rt now) .empty
  bySrc.entries.mapM fun e => do
    let riskScore ← score e.2.groupAlerts
    return (e.1, present e.1 e.2 riskScore)

/-- `none` is a risk score of NaN. -/
noncomputable def synthesizeIncidents (rt : Runtime) (now : Json → String) (alerts : List Object) :
    Except Exc (List (Incident (Option ℝ))) :=
  if alerts = [] then .ok []
  else (synthesizeBySource rt (calculateRiskScoreExp rt) now alerts).map (·.map Prod.snd)

end NeuralSoc.Incidents
