import NeuralSoc.Console.Lemmas.Queue

/-! # What an event does to the screen. -/

namespace NeuralSoc.Console

open Shell Incidents Fallible

variable {ρ : Type} {t : Terminal ρ} {s s' : MainScreen ρ}

/-! ## A refresh -/

namespace MainScreen

/-- The incidents of a refresh, the riskiest first. -/
def listed (t : Terminal ρ) (s : MainScreen ρ) (incidents : List (Incident ρ)) : List (Incident ρ) :=
  (s.pin incidents).1.mergeSort fun a b => t.riskLe b.riskScore a.riskScore

/-- The rows of a refresh. -/
def rows (t : Terminal ρ) (s : MainScreen ρ) (f : Fetched) (incidents : List (Incident ρ)) : List (Row ρ) :=
  (t.shown f.statuses s.filterText (s.listed t incidents)).map fun inc => (t.rowOf f.statuses inc).1

def refreshed (t : Terminal ρ) (s : MainScreen ρ) (f : Fetched) (incidents : List (Incident ρ)) : MainScreen ρ :=
  { s with
    healthy := true
    lastAlerts := f.alerts
    selectedIncidentCache := (s.pin incidents).2
    queue := s.rows t f incidents
    cursorRow := s.cursorFor (s.rows t f incidents) }.refreshSubtitle

end MainScreen

structure Inv (t : Terminal ρ) (s : MainScreen ρ) : Prop where
  readable : ∃ incidents, t.incidents s.lastAlerts = .ok incidents
  cached : ∀ inc, s.selectedIncidentCache = some inc →
    s.selectedIncidentId = some inc.incidentId ∧ WellFormed inc
  keys : (s.queue.map Row.key).Nodup

/-- No two rows of a refresh have one key. -/
def Apart (t : Terminal ρ) (s : MainScreen ρ) (f : Fetched) (incidents : List (Incident ρ)) : Prop :=
  ((t.shown f.statuses s.filterText (s.listed t incidents)).map Incident.incidentId).Nodup

/-- What concerns the window, the rows and the selection is as it was. -/
structure Same (s s' : MainScreen ρ) : Prop where
  lastAlerts : s'.lastAlerts = s.lastAlerts
  selected : s'.selectedIncidentId = s.selectedIncidentId
  cache : s'.selectedIncidentCache = s.selectedIncidentCache
  queue : s'.queue = s.queue
  detail : s'.detail = s.detail

theorem Same.inv (h : Same s s') (hs : Inv t s) : Inv t s' where
  readable := h.lastAlerts ▸ hs.readable
  cached := by
    rw [h.cache, h.selected]
    exact hs.cached
  keys := h.queue ▸ hs.keys

variable {incidentId status : Text}

/-- There is a copy of the incident. -/
def Held (s : MainScreen ρ) (incidentId : Text) : Prop :=
  ∃ inc, s.selectedIncidentCache = some inc ∧ inc.incidentId = incidentId

def InWindow (t : Terminal ρ) (s : MainScreen ρ) (incidentId : Text) : Prop :=
  ∃ incidents, t.incidents s.lastAlerts = .ok incidents ∧ incidentId ∈ incidents.map Incident.incidentId

/-- A confidence that is a number within a double. -/
def IsNumber : Json → Prop
  | .bool _ | .float _ => True
  | .int i => (i * 100).natAbs < 2 ^ 1024 - 2 ^ 970
  | _ => False

/-- Every alert of the window that belongs to the incident of the row and names a model has a confidence. -/
def Presents (t : Terminal ρ) (s : MainScreen ρ) (incidentId : Text) : Prop :=
  ∀ incidents inc, t.incidents s.lastAlerts = .ok incidents → s.lookUp incidentId incidents = some inc →
    ∀ a ∈ s.related inc, (a.get "model_name").truthy = true → IsNumber (a.getD "confidence_score" (.int 0))

end NeuralSoc.Console
