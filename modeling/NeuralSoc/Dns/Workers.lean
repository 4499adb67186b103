import Mathlib.Data.Fintype.Card
import NeuralSoc.Dns.Tracker

/-!
# Workers that record queries of one host

Every command of `record_query` is a step of its own, and the steps of different workers interleave. The key
may expire at any moment, so its time to live is left out.
-/

namespace NeuralSoc.Dns

/-- The command a worker sends next; its SADD has been executed. -/
inductive Stage where
  | expire
  | scard
  | spop
  deriving DecidableEq, Repr

structure Workers (n : ℕ) where
  domains : Finset String
  /-- `none` for a worker that is not in `record_query` -/
  stage : Fin n → Option Stage
  /-- ghost: the domains recorded since the key last expired -/
  since : Finset String

inductive WorkerEvent (n : ℕ) where
  | record (w : Fin n) (domain : String)
  | advance (w : Fin n) (choice : Choice)
  | expiry

variable {n : ℕ}

def Workers.setStage (s : Workers n) (w : Fin n) (stage : Option Stage) : Workers n :=
  { s with stage := Function.update s.stage w stage }

/-- SADD. A worker that is busy or gets no domain sends no command. -/
def recordStep (w : Fin n) (domain : String) (s : Workers n) : Workers n :=
  match s.stage w with
  | some _ => s
  | none =>
      if domain = "" then s
      else { s.setStage w (some .expire) with
        domains := insert domain s.domains
        since := insert domain s.since }

def advanceStep (w : Fin n) (choice : Choice) (s : Workers n) : Workers n :=
  match s.stage w with
  | none => s
  | some .expire => s.setStage w (some .scard)
  | some .scard => s.setStage w (if s.domains.card > maxTrackedDomains then some .spop else none)
  | some .spop => { s.setStage w none with domains := spop choice s.domains }

def workerStep (s : Workers n) : WorkerEvent n → Workers n
  | .record w domain => recordStep w domain s
  | .advance w choice => advanceStep w choice s
  | .expiry => { s with domains := ∅, since := ∅ }

def Workers.idle (n : ℕ) : Workers n := ⟨∅, fun _ => none, ∅⟩

/-- The workers between their SADD and their last command. -/
def Workers.busy (s : Workers n) : Finset (Fin n) := {w | (s.stage w).isSome}

/-- A call begins only when no other one is running. -/
def Alone (s : Workers n) : WorkerEvent n → Prop
  | .record _ _ => s.busy = ∅
  | _ => True

end NeuralSoc.Dns
