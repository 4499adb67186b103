import NeuralSoc.Base.SortedSet
import NeuralSoc.Base.Value

/-!
# The Redis scripts of the correlator

`CORRELATE_LUA` and `ROLLBACK_LUA` on the keys of one source address. Redis runs a script atomically,
so each is one function on these keys. The script only stores and compares `alert_json`, so its type
is a parameter. Deadlines (`ttl`, `expire`, `ex`) are left out: they change no value while the window
has not expired, and every run below lies in one unexpired window.
-/

namespace NeuralSoc.Correlation

structure Keys (τ : Type*) where
  /-- `{ip}:alerts:seen` -/
  seen : SortedSet ℕ String
  /-- `{ip}:alerts`, the newest entry first -/
  alerts : List τ
  /-- `{ip}:alerts:cnt` -/
  cnt : Option ℕ
  /-- `{ip}:dedup:<class>` -/
  dedup : String → Option ℕ

def Keys.none {τ : Type*} : Keys τ := ⟨.empty, [], Option.none, fun _ => Option.none⟩

-- KEYS and ARGV of the scripts; `safeThreat` also names KEYS[2].
structure CorrelateArgs (τ : Type*) where
  alertJson : τ
  safeThreat : String
  severityScore : ℕ
  alertId : String
  isReplay : Bool

structure RollbackArgs (τ : Type*) where
  alertJson : τ
  alertId : String
  safeThreat : String

structure Reply (τ : Type*) where
  totalCount : ℕ
  incident : ℕ
  alertsSnapshot : List τ
  deriving DecidableEq

def maxSeen : ℕ := 5000

-- `ltrim key 0 99`
def maxKept : ℕ := 100

variable {τ : Type*}

-- Replay defence: `is_dup and is_replay ~= "1"`.
def refused (a : CorrelateArgs τ) (k : Keys τ) : Bool :=
  a.alertId != "" && (k.seen.zscore a.alertId).isSome && !a.isReplay

/-- The id enters the seen set with `zcard` as its score; over `MAX_SEEN` the entry of rank 0 goes. -/
def admitSeen (id : String) (seen : SortedSet ℕ String) : SortedSet ℕ String :=
  if id = "" then seen
  else
    let seen := seen.zadd seen.zcard id
    if seen.zcard > maxSeen then seen.popMin else seen

def number (v : Option ℕ) : ℕ := v.getD 0

def incidentFlag (totalCount currentMax severityScore : ℕ) : Bool :=
  totalCount ≥ 2 && (currentMax == 0 || severityScore > currentMax || totalCount == 2 ||
    (totalCount > 2 && totalCount % 5 == 0))

def recordSeverity (safeThreat : String) (severityScore : ℕ) (dedup : String → Option ℕ) :
    String → Option ℕ :=
  let currentMax := number (dedup safeThreat)
  if currentMax == 0 || severityScore > currentMax then
    fun c => if c = safeThreat then some severityScore else dedup c
  else dedup

def correlate (a : CorrelateArgs τ) (k : Keys τ) : Reply τ × Keys τ :=
  if refused a k then (⟨0, 0, []⟩, k)
  else
    let alerts := (a.alertJson :: k.alerts).take maxKept
    let totalCount := number k.cnt + 1
    let flag := incidentFlag totalCount (number (k.dedup a.safeThreat)) a.severityScore
    (⟨totalCount, if flag then 1 else 0, if flag then alerts else []⟩,
      { seen := admitSeen a.alertId k.seen
        alerts := alerts
        cnt := some totalCount
        dedup := recordSeverity a.safeThreat a.severityScore k.dedup })

variable [DecidableEq τ]

def decrement (cnt : Option ℕ) : Option ℕ :=
  if number cnt > 1 then some (number cnt - 1) else if number cnt = 1 then none else cnt

/-- ROLLBACK_LUA. `json.dumps` of an alert is never the empty text, so `alert_json ~= ""` holds. -/
def rollback (a : RollbackArgs τ) (k : Keys τ) : Keys τ :=
  { seen := if a.alertId = "" then k.seen else k.seen.zrem a.alertId
    alerts := k.alerts.erase a.alertJson
    cnt := if a.alertJson ∈ k.alerts then decrement k.cnt else k.cnt
    dedup := fun c => if c = a.safeThreat then none else k.dedup c }

/-! ## Runs of scripts -/

inductive Call (τ : Type*) where
  | correlate (a : CorrelateArgs τ)
  | rollback (a : RollbackArgs τ)

def exec (k : Keys τ) : Call τ → Keys τ
  | .correlate a => (correlate a k).2
  | .rollback a => rollback a k

end NeuralSoc.Correlation
