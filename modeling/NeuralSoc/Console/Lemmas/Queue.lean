import NeuralSoc.Console.Screen
import NeuralSoc.Incidents.Lemmas.Sources

/-! # The rows of the queue. -/

namespace NeuralSoc.Console

open Shell Incidents Fallible

variable {ρ : Type} {t : Terminal ρ}

/-! ## Incidents that have a row -/

structure WellFormed (inc : Incident ρ) : Prop where
  incidentId : inc.incidentId ≠ []
  threatClasses : inc.threatClasses ≠ []
  affectedEntities : inc.affectedEntities ≠ []

/-- The row of a well-formed incident and its haystack. -/
def Terminal.rowOf (t : Terminal ρ) (statuses : Dict Text Text) (inc : Incident ρ) : Row ρ × Text :=
  t.rowWith statuses inc (inc.threatClasses.headD .null) (inc.affectedEntities.headD .null)

/-- The filter lets an incident through. -/
def Terminal.Shows (t : Terminal ρ) (statuses : Dict Text Text) (needle : Text) (inc : Incident ρ) : Prop :=
  needle <:+: (t.rowOf statuses inc).2

instance (statuses : Dict Text Text) (needle : Text) (inc : Incident ρ) :
    Decidable (t.Shows statuses needle inc) :=
  inferInstanceAs (Decidable (needle <:+: _))

variable {statuses : Dict Text Text} {needle : Text}

/-- The incidents that get a row. -/
def Terminal.shown (t : Terminal ρ) (statuses : Dict Text Text) (needle : Text) (incidents : List (Incident ρ)) :
    List (Incident ρ) :=
  incidents.filter fun inc => t.Shows statuses needle inc

end NeuralSoc.Console
