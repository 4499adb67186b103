import NeuralSoc.Incidents.Lemmas.Sources

/-! # Groups of the same alerts in another order. -/

namespace NeuralSoc.Incidents

open Shell Correlation

variable {ρ : Type}

def firstTimestamp (now : Json → String) (alerts : List Object) : Option Json := alerts.head?.map (timestampOf now)

variable {rt : Runtime} {now now' : Json → String} {src : Json} {xs ys : List Object} {inc inc' : Group}

section

variable {score : List Object → Except Exc ρ} {i j : Incident ρ}

theorem IsIncidentOf.created (hi : IsIncidentOf rt score now xs src i) :
    firstTimestamp now (groupOf xs src) = some i.createdTimestamp := by
  obtain ⟨inc, r, hinc, -, rfl⟩ := hi
  exact hinc.created

variable (hperm : xs.Perm ys) (hapi : ∀ a ∈ xs, FromApi a)
  (hscore : ∀ src r, score (groupOf xs src) = .ok r → score (groupOf ys src) = .ok r)
include hperm hapi hscore

end

end NeuralSoc.Incidents
