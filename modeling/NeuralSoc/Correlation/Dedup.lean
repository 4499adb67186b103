import NeuralSoc.Correlation.Lemmas.Scripts

/-!
# The dedup keys as Redis keeps them

`Keys` reads a dedup key as a number. The scripts read and write a decimal text there, and CORRELATE has three
branches that write it, which differ in the deadline they set.
-/

namespace NeuralSoc.Correlation

variable {τ : Type*}

/-- `tostring` of a whole number, which prints up to 14 digits. The weights of `add_alert` have three. -/
def tostring (n : ℕ) : String := toString n

/-- `tonumber` of a decimal text. -/
def tonumber (text : String) : ℕ := Nat.ofDigitChars 10 text.toList 0

theorem tonumber_tostring (n : ℕ) : tonumber (tostring n) = n := by
  rw [tonumber, show (tostring n).toList = Nat.toDigits 10 n from Nat.toList_repr, Nat.ofDigitChars_ten_toDigits]

/-- A dedup key and the seconds it was given. Only `tostring` writes it. -/
structure Entry where
  text : String
  ex : ℕ
  decimal : ∃ n, text = tostring n

def Entry.of (n ex : ℕ) : Entry := ⟨tostring n, ex, n, rfl⟩

structure TextKeys (τ : Type*) where
  seen : SortedSet ℕ String
  alerts : List τ
  cnt : Option ℕ
  dedup : String → Option Entry

def TextKeys.none {τ : Type*} : TextKeys τ := ⟨.empty, [], Option.none, fun _ => Option.none⟩

/-- The keys with the dedup texts read as numbers. -/
def TextKeys.read (k : TextKeys τ) : Keys τ where
  seen := k.seen
  alerts := k.alerts
  cnt := k.cnt
  dedup := fun c => (k.dedup c).map fun e => tonumber e.text

/-- `tonumber(redis.call('get', dedup_name) or "0")` -/
def TextKeys.currentMax (k : TextKeys τ) (safeThreat : String) : ℕ :=
  tonumber ((k.dedup safeThreat).elim "0" Entry.text)

-- `ttl` is the reply to TTL.
def writeSeverity (window : ℕ) (ttl : ℤ) (currentMax severityScore : ℕ) (old : Option Entry) : Option Entry :=
  if currentMax == 0 then some (.of severityScore window)
  else if severityScore > currentMax then
    if ttl > 0 then some (.of severityScore ttl.toNat) else some (.of severityScore window)
  else old

-- `time_window_sec`
def timeWindowSec : ℕ := 300

def textCorrelate (ttl : ℤ) (a : CorrelateArgs τ) (k : TextKeys τ) : Reply τ × TextKeys τ :=
  if refused a k.read then (⟨0, 0, []⟩, k)
  else
    let alerts := (a.alertJson :: k.alerts).take maxKept
    let totalCount := number k.cnt + 1
    let currentMax := k.currentMax a.safeThreat
    let flag := incidentFlag totalCount currentMax a.severityScore
    (⟨totalCount, if flag then 1 else 0, if flag then alerts else []⟩,
      { seen := admitSeen a.alertId k.seen
        alerts := alerts
        cnt := some totalCount
        dedup := fun c =>
          if c = a.safeThreat then writeSeverity timeWindowSec ttl currentMax a.severityScore (k.dedup c)
          else k.dedup c })

def textRollback [DecidableEq τ] (a : RollbackArgs τ) (k : TextKeys τ) : TextKeys τ :=
  { seen := if a.alertId = "" then k.seen else k.seen.zrem a.alertId
    alerts := k.alerts.erase a.alertJson
    cnt := if a.alertJson ∈ k.alerts then decrement k.cnt else k.cnt
    dedup := fun c => if c = a.safeThreat then none else k.dedup c }

/-! ## The numbers are what the texts say -/

theorem map_text (k : TextKeys τ) (c : String) : (k.dedup c).map Entry.text = (k.read.dedup c).map tostring := by
  rw [TextKeys.read, Option.map_map]
  refine Option.map_congr fun e _ => ?_
  obtain ⟨n, hn⟩ := e.decimal
  rw [Function.comp_apply, hn, tonumber_tostring]

theorem currentMax_eq (k : TextKeys τ) (c : String) : k.currentMax c = number (k.read.dedup c) := by
  simp only [TextKeys.currentMax, TextKeys.read]
  cases k.dedup c with
  | none => exact tonumber_tostring 0
  | some e => rfl

/-- All three branches write the same number. -/
theorem read_writeSeverity (window : ℕ) (ttl : ℤ) (currentMax sev : ℕ) (old : Option Entry) :
    (writeSeverity window ttl currentMax sev old).map (fun e => tonumber e.text) =
      if currentMax == 0 || sev > currentMax then some sev else old.map fun e => tonumber e.text := by
  have hof : ∀ ex, (some (Entry.of sev ex)).map (fun e => tonumber e.text) = some sev := fun ex =>
    congrArg some (tonumber_tostring sev)
  rw [writeSeverity]
  by_cases hzero : (currentMax == 0) = true
  · simp only [hzero, ↓reduceIte, hof, Bool.true_or]
  · rw [Bool.not_eq_true] at hzero
    simp only [hzero, Bool.false_eq_true, ↓reduceIte, Bool.false_or, decide_eq_true_eq]
    by_cases hgt : sev > currentMax
    · rw [if_pos hgt, if_pos hgt]
      split
      · exact hof _
      · exact hof _
    · rw [if_neg hgt, if_neg hgt]

/-- CORRELATE on the texts is CORRELATE on their numbers, whatever TTL replies. -/
theorem textCorrelate_read (ttl : ℤ) (a : CorrelateArgs τ) (k : TextKeys τ) :
    (textCorrelate ttl a k).1 = (correlate a k.read).1 ∧
      (textCorrelate ttl a k).2.read = (correlate a k.read).2 := by
  cases hadm : refused a k.read with
  | true => simp [textCorrelate, correlate, hadm]
  | false =>
      simp only [textCorrelate, correlate, hadm, Bool.false_eq_true, ↓reduceIte, currentMax_eq]
      refine ⟨rfl, ?_⟩
      rw [TextKeys.read]
      refine congrArg (Keys.mk _ _ _) (funext fun c => ?_)
      rw [recordSeverity]
      by_cases hc : c = a.safeThreat
      · subst hc
        simp only [↓reduceIte, read_writeSeverity]
        split
        · simp only [↓reduceIte]
        · rfl
      · simp only [hc, ↓reduceIte]
        split
        · simp only [hc, ↓reduceIte, TextKeys.read]
        · rfl

theorem textRollback_read [DecidableEq τ] (a : RollbackArgs τ) (k : TextKeys τ) :
    (textRollback a k).read = rollback a k.read := by
  refine congrArg (Keys.mk _ _ _) (funext fun c => ?_)
  simp only [textRollback]
  split
  · rfl
  · rfl

end NeuralSoc.Correlation
