import NeuralSoc.Base.Fallible
import NeuralSoc.Dga.DomainAge
import NeuralSoc.Incidents.Synthesis

/-!
# The screen of the terminal console

`MainScreen` of `terminal/tsoc_console.py`. An event is handled in one go, with the answers that it gets from the
API. Alerts of the API have timestamps, so the clock is not read. The colours, the texts of the detail pane and the
focus are left out.
-/

namespace NeuralSoc.Console

open Shell Incidents
open Correlation (sameKey)

/-- The libraries, with risk scores in `ρ`. -/
structure Terminal (ρ : Type) extends Runtime where
  /-- `text.lower()` -/
  lowerText : Text → Text
  /-- `text.upper()` -/
  upperText : Text → Text
  now : Json → String
  /-- `calculate_risk_score` -/
  score : List Object → Except Exc ρ
  /-- `a <= b` -/
  riskLe : ρ → ρ → Bool

variable {ρ : Type} (t : Terminal ρ)

/-- `str(x)` -/
def Terminal.show (x : Json) : Text := (textOf x).getD (points (t.str x))

/-- `synthesize_incidents(alerts)` -/
def Terminal.incidents (alerts : List Object) : Except Exc (List (Incident ρ)) :=
  (synthesizeBySource t.toRuntime t.score t.now alerts).map (·.map Prod.snd)

/-! ## What the API answers -/

/-- A `RequestException` with its text, or an answer. -/
abbrev Answer (α : Type) := Except Text α

/-- The alerts, and the status of each incident that has one. -/
structure Fetched where
  alerts : List Object
  statuses : Dict Text Text

/-! ## Triage -/

/-- `OPEN` -/
def openStatus : Text := points "open"

inductive Action where
  | acknowledge
  | falsePositive
  | confirm
  deriving DecidableEq

def Action.status : Action → Text
  | .acknowledge => points "acknowledged"
  | .falsePositive => points "false_positive"
  | .confirm => points "confirmed"

def Action.label : Action → Text
  | .acknowledge => points "Acknowledged"
  | .falsePositive => points "Marked false positive"
  | .confirm => points "Confirmed"

/-- `_STATUS_LABELS` -/
def statusLabels : List (Text × Text) :=
  [("open", "OPEN"), ("acknowledged", "ACK"), ("false_positive", "FALSE POS"), ("confirmed", "CONFIRMED")].map
    fun e => (points e.1, points e.2)

/-- `_STATUS_LABELS.get(status, status.upper())` -/
def Terminal.statusLabel (status : Text) : Text := (statusLabels.lookup status).getD (t.upperText status)

/-! ## Rows -/

structure Row (ρ : Type) where
  key : Text
  sev : Text
  risk : ρ
  threat : Text
  target : Text
  statusLabel : Text

def indexError : Exc := ⟨.other, "list index out of range"⟩

def duplicateKey : Exc := ⟨.other, "The row key is already in use"⟩

/-- `xs[0]` -/
def firstOf : List Json → Except Exc Json
  | [] => .error indexError
  | x :: _ => .ok x

/-- `statuses.get(incident_id, {}).get("status", OPEN)` -/
def statusOf (statuses : Dict Text Text) (incidentId : Text) : Text := (statuses.get? incidentId).getD openStatus

/-- The source of an incident, from its id. -/
def sourceIp (incidentId : Text) : Text :=
  if points "INC-" <+: incidentId then (incidentId.drop 4).map fun c => if c = 45 then 46 else c else []

/-- `target[:12] + "..." if len(target) > 15 else target` -/
def shorten (target : Text) : Text := if 15 < target.length then target.take 12 ++ points "..." else target

/-- The terms that the filter looks at. -/
def haystack (terms : List Text) : Text := (points " ").intercalate terms

/-- The row of an incident and its haystack, from the first threat class and the first entity. -/
def Terminal.rowWith (statuses : Dict Text Text) (inc : Incident ρ) (threat target : Json) : Row ρ × Text :=
  let sev := t.lowerText (t.show inc.severity)
  let statusLabel := t.statusLabel (statusOf statuses inc.incidentId)
  let terms := [sev, t.show threat, t.show target, sourceIp inc.incidentId, statusLabel]
  (⟨inc.incidentId, t.upperText sev, inc.riskScore, t.show threat, shorten (t.show target), statusLabel⟩,
    t.lowerText (haystack terms))

def Terminal.row (statuses : Dict Text Text) (inc : Incident ρ) : Except Exc (Row ρ × Text) := do
  let threat ← firstOf inc.threatClasses
  let target ← firstOf inc.affectedEntities
  return t.rowWith statuses inc threat target

-- The keys of the rows are texts.
local instance : LawfulBEq Text := inferInstance

/-- `queue.add_row(..., key=incident_id)` -/
def addRow (queue : List (Row ρ)) (row : Row ρ) : Except Exc (List (Row ρ)) :=
  if row.key ∈ queue.map Row.key then .error duplicateKey else .ok (queue ++ [row])

/-- One incident of the queue; the filter skips those whose haystack lacks the needle. -/
def Terminal.addIncident (statuses : Dict Text Text) (needle : Text) (queue : List (Row ρ)) (inc : Incident ρ) :
    Except Exc (List (Row ρ)) := do
  let (row, hay) ← t.row statuses inc
  if needle <:+: hay then addRow queue row else return queue

/-! ## State -/

/-- `x * 100` in the format `.0f`; its text is left out. -/
def percent (rt : Runtime) : Json → Except Exc Unit
  | .bool _ | .float _ => .ok ()
  | .int i => (toFloat rt (.int (i * 100))).map fun _ => ()
  | .str _ | .lone _ => .error ⟨.valueError, "Unknown format code 'f' for object of type 'str'"⟩
  | .arr _ => .error ⟨.typeError, "unsupported format string passed to list.__format__"⟩
  | .null => .error ⟨.typeError, "unsupported operand type(s) for *: 'NoneType' and 'int'"⟩
  | .obj _ => .error ⟨.typeError, "unsupported operand type(s) for *: 'dict' and 'int'"⟩

/-- The finding of the model of an alert, with its confidence. -/
def Terminal.finding (a : Object) : Except Exc Unit :=
  if (a.get "model_name").truthy then percent t.toRuntime (a.getD "confidence_score" (.int 0)) else .ok ()

/-- What the detail pane shows. -/
structure Detail (ρ : Type) where
  incidentId : Text
  statusLabel : Text
  incident : Incident ρ
  relatedAlerts : List Object

structure MainScreen (ρ : Type) where
  liveMode : Bool := true
  healthy : Bool := true
  selectedIncidentId : Option Text := none
  filterText : Text := []
  selectedIncidentCache : Option (Incident ρ) := none
  lastAlerts : List Object := []
  -- the widgets
  filterValue : Text := []
  filterVisible : Bool := false
  queue : List (Row ρ) := []
  cursorRow : ℕ := 0
  detail : Option (Detail ρ) := none
  subTitle : String := ""
  notices : List Text := []
  /-- the triage requests that were sent -/
  posts : List (Text × Text) := []

namespace MainScreen

variable (s : MainScreen ρ)

def notify (message : Text) : MainScreen ρ := { s with notices := s.notices ++ [message] }

def refreshSubtitle : MainScreen ρ :=
  { s with subTitle :=
      "[" ++ (if s.liveMode then "LIVE" else "PAUSED") ++ "] | DIODE: ONE-WAY | SENSOR: " ++
        (if s.healthy then "HEALTHY" else "DOWN") }

def togglePause : MainScreen ρ := { s with liveMode := !s.liveMode }.refreshSubtitle

/-- The selection, when it is a text that is not empty. -/
def chosen : Option Text := s.selectedIncidentId.filter fun incidentId => incidentId ≠ []

/-- The incidents with the last copy of the selected one, where the window has lost it, and the copy to keep. -/
def pin (incidents : List (Incident ρ)) : List (Incident ρ) × Option (Incident ρ) :=
  match incidents.find? fun inc => s.selectedIncidentId = some inc.incidentId with
  | some inc => (incidents, some inc)
  | none =>
      if s.chosen.isSome then (incidents ++ s.selectedIncidentCache.toList, s.selectedIncidentCache)
      else (incidents, s.selectedIncidentCache)

/-- The row that the cursor goes to: the selected one, or the first. -/
def cursorFor (queue : List (Row ρ)) : ℕ :=
  match queue.findIdx? fun row => s.selectedIncidentId = some row.key with
  | some i => i
  | none => 0

def updateQueue (force : Bool) (fetched : Answer Fetched) : Except Exc (MainScreen ρ) :=
  if !s.liveMode && !force then .ok s
  else
    match fetched with
    | .error ex => .ok ({ s with healthy := false }.refreshSubtitle.notify (points "Refresh failed: " ++ ex))
    | .ok f => do
        let incidents ← t.incidents f.alerts
        let (incidents, selectedIncidentCache) := s.pin incidents
        let incidents := incidents.mergeSort fun a b => t.riskLe b.riskScore a.riskScore
        let queue ← incidents.foldlM (t.addIncident f.statuses s.filterText) []
        return { s with
          healthy := true
          lastAlerts := f.alerts
          selectedIncidentCache
          queue
          cursorRow := s.cursorFor queue }.refreshSubtitle

/-- `_set_filter` -/
def setFilter (text : Text) (fetched : Answer Fetched) : Except Exc (MainScreen ρ) :=
  { s with filterValue := text, filterVisible := true, filterText := text }.updateQueue t true fetched

/-- `_apply_triage` -/
def applyTriage (action : Action) (posted : Answer Unit) (fetched : Answer Fetched) : Except Exc (MainScreen ρ) :=
  match s.chosen with
  | none => .ok (s.notify (points "Select an incident first."))
  | some incidentId =>
      let s := { s with posts := s.posts ++ [(incidentId, action.status)] }
      match posted with
      | .error ex => .ok (s.notify (points "Failed to update triage: " ++ ex))
      | .ok () => (s.notify (action.label ++ points ": " ++ incidentId)).updateQueue t true fetched

/-- Another row than the selected one drops the copy that is kept. -/
def moveTo (incidentId : Text) : MainScreen ρ :=
  { s with
    selectedIncidentCache := if s.selectedIncidentId = some incidentId then s.selectedIncidentCache else none
    selectedIncidentId := some incidentId }

/-- The incident of a row: among those of the window, or the copy that is kept. -/
def lookUp (incidentId : Text) (incidents : List (Incident ρ)) : Option (Incident ρ) :=
  (incidents.find? fun inc => inc.incidentId = incidentId).or
    (s.selectedIncidentCache.filter fun inc => inc.incidentId = incidentId)

/-- The alerts of the window that belong to the incident. -/
def related (inc : Incident ρ) : List Object :=
  s.lastAlerts.filter fun a => inc.relatedAlertIds.any (sameKey (a.get "alert_id"))

/-- `on_data_table_row_selected` from where the content of the pane is there. -/
def showDetail (incidentId status : Text) (inc : Incident ρ) : MainScreen ρ :=
  let s := { s with
    selectedIncidentCache := some inc
    detail := some
      { incidentId
        statusLabel := t.statusLabel status
        incident := inc
        relatedAlerts := s.related inc } }
  if s.liveMode then s.togglePause.notify (points "Paused live updates for investigation.") else s

def rowSelected (incidentId : Text) (status : Answer Text) : Except Exc (MainScreen ρ) :=
  let s := s.moveTo incidentId
  match status with
  | .error ex => .ok (s.notify (points "Failed to load incident detail: " ++ ex))
  | .ok status => do
      let incidents ← t.incidents s.lastAlerts
      match s.lookUp incidentId incidents with
      | none => return s
      | some inc => do
          (s.related inc).forM t.finding
          return s.showDetail t incidentId status inc

end MainScreen

/-! ## Events -/

inductive Event where
  | tick (fetched : Answer Fetched)
  | refreshData (fetched : Answer Fetched)
  | togglePause
  | startFilter
  | filterSeverity (severity : Text) (fetched : Answer Fetched)
  | filterStatus (status : Text) (fetched : Answer Fetched)
  | clearFilter (fetched : Answer Fetched)
  | filterChanged (value : Text) (fetched : Answer Fetched)
  | triage (action : Action) (posted : Answer Unit) (fetched : Answer Fetched)
  | cursorMoved (row : ℕ)
  | rowSelected (incidentId : Text) (status : Answer Text)

def handle (s : MainScreen ρ) : Event → Except Exc (MainScreen ρ)
  | .tick fetched => s.updateQueue t false fetched
  | .refreshData fetched => s.updateQueue t true fetched
  | .togglePause => .ok s.togglePause
  | .startFilter => .ok { s with filterVisible := true }
  | .filterSeverity severity fetched => s.setFilter t severity fetched
  | .filterStatus status fetched => s.setFilter t (t.lowerText (t.statusLabel status)) fetched
  | .clearFilter fetched =>
      if s.filterVisible then
        { s with filterValue := [], filterVisible := false, filterText := [] }.updateQueue t true fetched
      else .ok s
  | .filterChanged value fetched =>
      { s with filterValue := value, filterText := t.lowerText (Dga.stripPoints value) }.updateQueue t true fetched
  | .triage action posted fetched => s.applyTriage t action posted fetched
  | .cursorMoved row => .ok { s with cursorRow := row }
  | .rowSelected incidentId status => s.rowSelected t incidentId status

end NeuralSoc.Console
