import NeuralSoc.Console.Lemmas.Events
import NeuralSoc.Incidents.Theorems

/-! # What the analyst can rely on. -/

namespace NeuralSoc.Console

open Shell Incidents Fallible

variable {ρ : Type} {t : Terminal ρ} {s s' : MainScreen ρ} {incidentId : Text}

/-- The incident of the row is found when it is selected: in the window, or in the copy that is kept. -/
def Opens (t : Terminal ρ) (s : MainScreen ρ) (incidentId : Text) : Prop :=
  InWindow t s incidentId ∨ Held s incidentId

/-- The needle and the answer, when an event lists the incidents anew. -/
def relists (t : Terminal ρ) (s : MainScreen ρ) : Event → Option (Text × Answer Fetched)
  | .tick fetched => if s.liveMode then some (s.filterText, fetched) else none
  | .refreshData fetched => some (s.filterText, fetched)
  | .filterSeverity severity fetched => some (severity, fetched)
  | .filterStatus status fetched => some (t.lowerText (t.statusLabel status), fetched)
  | .clearFilter fetched => if s.filterVisible then some ([], fetched) else none
  | .filterChanged value fetched => some (t.lowerText (Dga.stripPoints value), fetched)
  | .triage _ (.ok ()) fetched => if s.chosen.isSome then some (s.filterText, fetched) else none
  | _ => none

/-- The risk of each source is a number, and no two sources that the filter lets through have one incident id. -/
structure Displays (t : Terminal ρ) (needle : Text) (f : Fetched) : Prop where
  scored : ∀ a ∈ f.alerts, ∃ r, t.score (groupOf f.alerts (sourceOf a)) = .ok r
  apart : ∀ bySource, synthesizeBySource t.toRuntime t.score t.now f.alerts = .ok bySource →
    ∀ x ∈ bySource, ∀ y ∈ bySource, t.Shows f.statuses needle x.2 → t.Shows f.statuses needle y.2 →
      x.2.incidentId = y.2.incidentId → x.1 = y.1

/-- What an event lists can be displayed, and the pane of a row that it selects can be filled. -/
structure Survives (t : Terminal ρ) (s : MainScreen ρ) (e : Event) : Prop where
  displays : ∀ needle f, relists t s e = some (needle, .ok f) → Displays t needle f
  presents : ∀ incidentId text, e = .rowSelected incidentId (.ok text) → Presents t s incidentId

/-- The alerts of an answer. -/
def Event.alerts : Event → List Object
  | .tick (.ok f) | .refreshData (.ok f) | .filterSeverity _ (.ok f) | .filterStatus _ (.ok f)
  | .clearFilter (.ok f) | .filterChanged _ (.ok f) | .triage _ _ (.ok f) => f.alerts
  | _ => []

end NeuralSoc.Console
