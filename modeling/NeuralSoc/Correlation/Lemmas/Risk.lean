import NeuralSoc.Base.Best
import NeuralSoc.Correlation.Risk
import Mathlib.Algebra.Order.Field.Basic
import Mathlib.Tactic.Linarith
import Mathlib.Tactic.Positivity

/-!
# The score of a list of alerts

A list is scored by the greatest confidence of each of its detectors, unless a confidence does not fit
into a float, a detector cannot be a key, or the first confidence of a detector is NaN.
-/

namespace NeuralSoc.Correlation

variable {rt : Runtime}

/-! ## Detectors as keys -/

/-- Values of one key have one form. -/
def detectorKey (d : Json) : Json :=
  match numeric? d with
  | some x => .float x
  | none => d

theorem sameKey_iff {a b : Json} : sameKey a b = true ↔ detectorKey a = detectorKey b := by
  unfold sameKey detectorKey
  cases a <;> cases b <;> simp [numeric?]

theorem hashable_detectorKey (d : Json) : hashable (detectorKey d) = hashable d := by
  cases d <;> rfl

def keyOf (a : Object) : Json := detectorKey (detectorOf a)

theorem hashable_congr {a b : Object} (h : keyOf a = keyOf b) :
    hashable (detectorOf a) = hashable (detectorOf b) := by
  rw [← hashable_detectorKey (detectorOf a), ← hashable_detectorKey (detectorOf b)]
  exact congrArg hashable h

/-! ## Confidences -/

def givenConfidence (a : Object) : Json := a.getD "confidence_score" (a.get "confidence")

def overflows : Json → Bool
  | .int i => decide (2 ^ 1024 - 2 ^ 970 ≤ i.natAbs)
  | _ => false

def readsNan (rt : Runtime) : Json → Bool
  | .float x => x == .nan
  | .str s => rt.floatOfStr s == some .nan
  | _ => false

/-- The confidence before it is clamped. -/
def readConfidence (rt : Runtime) (a : Object) : Except Exc PyFloat :=
  toConfidence rt (if givenConfidence a = .null then
      .float (.fin (severityToConfidence (rt.lower (rt.str (a.getD "severity" (.str "low"))))))
    else givenConfidence a)

theorem confidenceOf_eq (rt : Runtime) (a : Object) :
    confidenceOf rt a = (readConfidence rt a).map clamp := rfl

theorem toConfidence_cases (rt : Runtime) (j : Json) :
    overflows j = true ∧ (∃ e, toConfidence rt j = .error e) ∨
    overflows j = false ∧ readsNan rt j = true ∧ toConfidence rt j = .ok .nan ∨
    overflows j = false ∧ readsNan rt j = false ∧ ∃ x, x ≠ .nan ∧ toConfidence rt j = .ok x := by
  cases j with
  | int i =>
      rw [overflows, decide_eq_true_eq, decide_eq_false_iff_not, not_le]
      by_cases hi : i.natAbs < 2 ^ 1024 - 2 ^ 970
      · exact .inr (.inr ⟨hi, rfl, .fin i, nofun, by rw [toConfidence, toFloat, if_pos hi]⟩)
      · refine .inl ⟨not_lt.mp hi, ⟨.other, "int too large to convert to float"⟩, ?_⟩
        rw [toConfidence, toFloat, if_neg hi]
        rfl
  | float x =>
      by_cases hx : x = .nan
      · subst hx
        exact .inr (.inl ⟨rfl, rfl, rfl⟩)
      · exact .inr (.inr ⟨rfl, by simpa [readsNan] using hx, x, hx, rfl⟩)
  | str s =>
      cases hs : rt.floatOfStr s with
      | none =>
          exact .inr (.inr ⟨rfl, by simp [readsNan, hs], .fin (11 / 20), nofun,
            by simp [toConfidence, toFloat, hs]⟩)
      | some x =>
          by_cases hx : x = .nan
          · subst hx
            exact .inr (.inl ⟨rfl, by simp [readsNan, hs], by simp [toConfidence, toFloat, hs]⟩)
          · exact .inr (.inr ⟨rfl, by simpa [readsNan, hs] using hx, x, hx,
              by simp [toConfidence, toFloat, hs]⟩)
  | bool b => exact .inr (.inr ⟨rfl, rfl, .fin (if b then 1 else 0), nofun, rfl⟩)
  | null => exact .inr (.inr ⟨rfl, rfl, .fin (11 / 20), nofun, by simp [toConfidence, toFloat]⟩)
  | lone u => exact .inr (.inr ⟨rfl, rfl, .fin (11 / 20), nofun, by simp [toConfidence, toFloat]⟩)
  | arr xs => exact .inr (.inr ⟨rfl, rfl, .fin (11 / 20), nofun, by simp [toConfidence, toFloat]⟩)
  | obj fs => exact .inr (.inr ⟨rfl, rfl, .fin (11 / 20), nofun, by simp [toConfidence, toFloat]⟩)

theorem max_fin (a b : ℚ) : (PyFloat.fin a).max (.fin b) = .fin (max a b) := by
  simp only [PyFloat.max, PyFloat.lt_fin, decide_eq_true_eq]
  split
  · next h => rw [max_eq_right h.le]
  · next h => rw [max_eq_left (not_lt.mp h)]

theorem min_fin (a b : ℚ) : (PyFloat.fin a).min (.fin b) = .fin (min a b) := by
  simp only [PyFloat.min, PyFloat.lt_fin, decide_eq_true_eq]
  split
  · next h => rw [min_eq_right h.le]
  · next h => rw [min_eq_left (not_lt.mp h)]

theorem clamp_nan : clamp .nan = .nan := rfl

def clampRat : PyFloat → ℚ
  | .nan => 0
  | .inf neg => if neg then 1 / 100 else 99 / 100
  | .fin q => min (max q (1 / 100)) (99 / 100)

theorem clamp_eq {x : PyFloat} (h : x ≠ .nan) : clamp x = .fin (clampRat x) := by
  cases x with
  | nan => exact absurd rfl h
  | inf neg =>
      cases neg with
      | true => norm_num [clamp, PyFloat.max, PyFloat.lt, min_fin, clampRat]
      | false => simp [clamp, PyFloat.max, PyFloat.min, PyFloat.lt, clampRat]
  | fin q => rw [clamp, max_fin, min_fin, clampRat]

theorem clampRat_bounds {x : PyFloat} (h : x ≠ .nan) :
    1 / 100 ≤ clampRat x ∧ clampRat x ≤ 99 / 100 := by
  cases x with
  | nan => exact absurd rfl h
  | inf neg => cases neg <;> norm_num [clampRat]
  | fin q => exact ⟨le_min (le_max_right _ _) (by norm_num), min_le_right _ _⟩

theorem clampRat_mono {x y : PyFloat} (hx : x ≠ .nan) (hy : y ≠ .nan) (h : y.lt x = false) :
    clampRat x ≤ clampRat y := by
  cases x with
  | nan => exact absurd rfl hx
  | inf n =>
      cases n with
      | true => exact (clampRat_bounds hy).1
      | false =>
          cases y with
          | nan => exact absurd rfl hy
          | inf m => cases m <;> simp_all [PyFloat.lt]
          | fin q => simp [PyFloat.lt] at h
  | fin p =>
      cases y with
      | nan => exact absurd rfl hy
      | inf m =>
          cases m with
          | true => simp [PyFloat.lt] at h
          | false => exact (clampRat_bounds (x := .fin p) nofun).2
      | fin q =>
          have hpq : p ≤ q := by simpa [PyFloat.lt] using h
          exact min_le_min_right _ (max_le_max_right _ hpq)

theorem readConfidence_cases (rt : Runtime) (a : Object) :
    overflows (givenConfidence a) = true ∧ (∃ e, readConfidence rt a = .error e) ∨
    overflows (givenConfidence a) = false ∧ readsNan rt (givenConfidence a) = true ∧
      readConfidence rt a = .ok .nan ∨
    overflows (givenConfidence a) = false ∧ readsNan rt (givenConfidence a) = false ∧
      ∃ x, x ≠ .nan ∧ readConfidence rt a = .ok x := by
  unfold readConfidence
  split
  · next hnull => exact .inr (.inr (by simp [hnull, overflows, readsNan, toConfidence, toFloat]))
  · exact toConfidence_cases rt (givenConfidence a)

/-! ## What a list says about its detectors -/

/-- The detector of an alert and its clamped confidence. -/
def evidenceOf (rt : Runtime) (a : Object) : Option (Json × ℚ) :=
  match readConfidence rt a with
  | .ok .nan => none
  | .ok x => some (keyOf a, clampRat x)
  | .error _ => none

def evidence (rt : Runtime) (alerts : List Object) : List (Json × ℚ) :=
  alerts.filterMap (evidenceOf rt)

theorem evidenceOf_some {a : Object} {x : PyFloat} (hread : readConfidence rt a = .ok x)
    (hx : x ≠ .nan) : evidenceOf rt a = some (keyOf a, clampRat x) := by
  unfold evidenceOf
  rw [hread]
  cases x with
  | nan => exact absurd rfl hx
  | inf neg => rfl
  | fin q => rfl

theorem evidenceOf_nan {a : Object} (hread : readConfidence rt a = .ok .nan) :
    evidenceOf rt a = none := by
  unfold evidenceOf
  rw [hread]

theorem of_evidenceOf {a : Object} {k : Json} {c : ℚ} (h : evidenceOf rt a = some (k, c)) :
    k = keyOf a ∧ ∃ x, x ≠ .nan ∧ readConfidence rt a = .ok x ∧ c = clampRat x := by
  unfold evidenceOf at h
  split at h
  · cases h
  · next x hx hread =>
      cases h
      exact ⟨rfl, x, hx, hread, rfl⟩
  · cases h

/-- The first alert of each detector beyond `seen` has a number for its confidence. -/
def Numbered (rt : Runtime) (seen : List Json) (alerts : List Object) : Prop :=
  ∀ before a after, alerts = before ++ a :: after → keyOf a ∉ seen →
    (∀ b ∈ before, keyOf b ≠ keyOf a) → readsNan rt (givenConfidence a) = false

theorem numbered_cons {seen : List Json} {a : Object} {alerts : List Object} :
    Numbered rt seen (a :: alerts) ↔
      (keyOf a ∉ seen → readsNan rt (givenConfidence a) = false) ∧
        Numbered rt (keyOf a :: seen) alerts := by
  constructor
  · intro h
    refine ⟨fun hnew => h [] a alerts rfl hnew (by simp), ?_⟩
    rintro before b after rfl hnew hfirst
    rw [List.mem_cons, not_or] at hnew
    apply h (a :: before) b after rfl hnew.2
    intro d hd
    rcases List.mem_cons.mp hd with rfl | hd
    · exact Ne.symm hnew.1
    · exact hfirst d hd
  · rintro ⟨hhead, htail⟩ before b after heq hnew hfirst
    cases before with
    | nil =>
        obtain ⟨rfl, rfl⟩ := List.cons.inj heq
        exact hhead hnew
    | cons d before =>
        obtain ⟨rfl, rfl⟩ := List.cons.inj heq
        apply htail before b after rfl
        · rw [List.mem_cons, not_or]
          exact ⟨(hfirst a List.mem_cons_self).symm, hnew⟩
        · exact fun e he => hfirst e (List.mem_cons_of_mem _ he)

structure Scorable (rt : Runtime) (alerts : List Object) : Prop where
  fits : ∀ a ∈ alerts, overflows (givenConfidence a) = false
  hashed : ∀ a ∈ alerts, hashable (detectorOf a) = true
  numbered : Numbered rt [] alerts

/-! ## The dict of the loop -/

def keyed (best : List (Json × PyFloat)) : List (Json × PyFloat) :=
  best.map fun e => (detectorKey e.1, e.2)

def finite (es : List (Json × ℚ)) : List (Json × PyFloat) := es.map fun e => (e.1, .fin e.2)

/-- The dict the loop has filled is `d`. -/
def Holds (best : List (Json × PyFloat)) (d : Dict Json ℚ) : Prop := keyed best = finite d.entries

theorem keyed_keepBest (det : Json) (c : ℚ) {best : List (Json × PyFloat)} {es : List (Json × ℚ)}
    (h : keyed best = finite es) :
    keyed (keepBest det (.fin c) best) = finite (raiseEntries (detectorKey det) c es) := by
  induction best generalizing es with
  | nil =>
      obtain rfl : es = [] := by simpa [keyed, finite] using h.symm
      rfl
  | cons b best ih =>
      cases es with
      | nil => simp [keyed, finite] at h
      | cons e es =>
          obtain ⟨d, x⟩ := b
          obtain ⟨k, w⟩ := e
          obtain ⟨hhead, htail⟩ := List.cons.inj h
          simp only [Prod.mk.injEq] at hhead
          obtain ⟨rfl, rfl⟩ := hhead
          by_cases hkey : detectorKey d = detectorKey det
          · have hsame : sameKey det d = true := sameKey_iff.mpr hkey.symm
            have hmax : (if (PyFloat.fin w).lt (.fin c) = true then PyFloat.fin c else .fin w) =
                .fin (max w c) := max_fin w c
            rw [keepBest, if_pos hsame, hmax, raiseEntries, if_pos hkey]
            exact congrArg _ htail
          · have hsame : ¬ sameKey det d = true := fun hs => hkey (sameKey_iff.mp hs).symm
            rw [keepBest, if_neg hsame, raiseEntries, if_neg hkey]
            exact congrArg _ (ih htail)

theorem holds_keepBest {best : List (Json × PyFloat)} {d : Dict Json ℚ} (h : Holds best d)
    (det : Json) (c : ℚ) : Holds (keepBest det (.fin c) best) (d.raise (detectorKey det) c) :=
  keyed_keepBest det c h

theorem keepBest_nan {det : Json} {best : List (Json × PyFloat)}
    (h : detectorKey det ∈ best.map fun e => detectorKey e.1) : keepBest det .nan best = best := by
  induction best with
  | nil => cases h
  | cons b best ih =>
      obtain ⟨d, x⟩ := b
      rw [keepBest]
      split
      · cases x <;> rfl
      · next hsame =>
          rw [List.map_cons, List.mem_cons] at h
          rw [ih (h.resolve_left fun heq => hsame (sameKey_iff.mpr heq))]

theorem keepBest_new_nan {det : Json} {best : List (Json × PyFloat)}
    (h : detectorKey det ∉ best.map fun e => detectorKey e.1) :
    keepBest det .nan best = best ++ [(det, .nan)] := by
  induction best with
  | nil => rfl
  | cons b best ih =>
      obtain ⟨d, x⟩ := b
      rw [List.map_cons, List.mem_cons, not_or] at h
      rw [keepBest, if_neg fun hsame => h.1 (sameKey_iff.mp hsame), ih h.2, List.cons_append]

theorem nan_mem_keepBest {d det : Json} {x : PyFloat} {best : List (Json × PyFloat)}
    (h : (d, PyFloat.nan) ∈ best) : (d, PyFloat.nan) ∈ keepBest det x best := by
  induction best with
  | nil => cases h
  | cons b best ih =>
      obtain ⟨e, y⟩ := b
      rw [keepBest]
      rcases List.mem_cons.mp h with heq | h
      · cases heq
        split <;> simp [PyFloat.lt]
      · split
        · exact List.mem_cons_of_mem _ h
        · exact List.mem_cons_of_mem _ (ih h)

theorem mem_keys_keepBest {det k : Json} {x : PyFloat} {best : List (Json × PyFloat)}
    (h : k ∈ (keepBest det x best).map fun e => detectorKey e.1) :
    k = detectorKey det ∨ k ∈ best.map fun e => detectorKey e.1 := by
  induction best with
  | nil => exact .inl (by simpa [keepBest] using h)
  | cons b best ih =>
      obtain ⟨d, y⟩ := b
      rw [keepBest] at h
      split at h
      · exact .inr h
      · rw [List.map_cons, List.mem_cons] at h ⊢
        rcases h with h | h
        · exact .inr (.inl h)
        · exact (ih h).imp_right .inr

theorem Holds.keys {best : List (Json × PyFloat)} {d : Dict Json ℚ} (h : Holds best d) :
    (best.map fun e => detectorKey e.1) = d.entries.map Prod.fst := by
  have hfst := congrArg (List.map Prod.fst) h
  simpa only [keyed, finite, List.map_map, Function.comp_def] using hfst

theorem Holds.confidences {best : List (Json × PyFloat)} {d : Dict Json ℚ} (h : Holds best d) :
    best.map Prod.snd = d.values.map PyFloat.fin := by
  have hsnd := congrArg (List.map Prod.snd) h
  simpa only [keyed, finite, List.map_map, Function.comp_def, Dict.values] using hsnd

/-! ## The loop -/

theorem bestConfidences_cons {a : Object} {alerts : List Object} {best best' : List (Json × PyFloat)} :
    bestConfidences rt (a :: alerts) best = .ok best' ↔
      ∃ x, readConfidence rt a = .ok x ∧ hashable (detectorOf a) = true ∧
        bestConfidences rt alerts (keepBest (detectorOf a) (clamp x) best) = .ok best' := by
  rw [bestConfidences, confidenceOf_eq]
  cases readConfidence rt a with
  | error e => simp [Except.map, bind, Except.bind]
  | ok x =>
      cases hh : hashable (detectorOf a) with
      | false => simp [Except.map, bind, Except.bind, throw, throwThe, MonadExceptOf.throw]
      | true => simp [Except.map, bind, Except.bind]

theorem bestConfidences_of_numbered {alerts : List Object} {seen : List Json}
    {best : List (Json × PyFloat)} {d : Dict Json ℚ}
    (hfits : ∀ a ∈ alerts, overflows (givenConfidence a) = false)
    (hhash : ∀ a ∈ alerts, hashable (detectorOf a) = true) (hnum : Numbered rt seen alerts)
    (hseen : ∀ k ∈ seen, k ∈ d.entries.map Prod.fst) (hold : Holds best d) :
    ∃ best', bestConfidences rt alerts best = .ok best' ∧
      Holds best' ((evidence rt alerts).foldl (fun d x => d.raise x.1 x.2) d) := by
  induction alerts generalizing seen best d with
  | nil => exact ⟨best, rfl, hold⟩
  | cons a alerts ih =>
      rw [List.forall_mem_cons] at hfits hhash
      rw [numbered_cons] at hnum
      have hread := readConfidence_cases rt a
      simp only [hfits.1, false_and, true_and, false_or, Bool.false_eq_true] at hread
      rcases hread with ⟨hnan, hread⟩ | ⟨-, x, hx, hread⟩
      · -- the detector has a confidence already
        have hold' : keyOf a ∈ d.entries.map Prod.fst := by
          by_contra hnew
          have hno := hnum.1 fun h => hnew (hseen _ h)
          rw [hnan] at hno
          cases hno
        obtain ⟨best', hrun, hbest'⟩ := ih hfits.2 hhash.2 hnum.2
          (List.forall_mem_cons.mpr ⟨hold', hseen⟩) hold
        refine ⟨best', bestConfidences_cons.mpr ⟨.nan, hread, hhash.1, ?_⟩, ?_⟩
        · rw [clamp_nan, keepBest_nan (by rw [hold.keys]; exact hold')]
          exact hrun
        · rw [evidence, List.filterMap_cons_none (evidenceOf_nan hread)]
          exact hbest'
      · have hseen' : ∀ k ∈ keyOf a :: seen,
            k ∈ (d.raise (keyOf a) (clampRat x)).entries.map Prod.fst := by
          intro k hk
          rw [Dict.mem_keys_raise]
          exact (List.mem_cons.mp hk).imp_right (hseen k)
        obtain ⟨best', hrun, hbest'⟩ := ih hfits.2 hhash.2 hnum.2 hseen'
          (holds_keepBest hold (detectorOf a) (clampRat x))
        refine ⟨best', bestConfidences_cons.mpr ⟨x, hread, hhash.1, ?_⟩, ?_⟩
        · rw [clamp_eq hx]
          exact hrun
        · rw [evidence, List.filterMap_cons_some (evidenceOf_some hread hx), List.foldl_cons]
          exact hbest'

theorem nan_mem_bestConfidences {alerts : List Object} {best best' : List (Json × PyFloat)} {d : Json}
    (hnan : (d, PyFloat.nan) ∈ best) (h : bestConfidences rt alerts best = .ok best') :
    (d, PyFloat.nan) ∈ best' := by
  induction alerts generalizing best with
  | nil =>
      cases h
      exact hnan
  | cons a alerts ih =>
      obtain ⟨x, -, -, hrun⟩ := bestConfidences_cons.mp h
      exact ih (nan_mem_keepBest hnan) hrun

theorem reads_of_bestConfidences {alerts : List Object} {best best' : List (Json × PyFloat)}
    (h : bestConfidences rt alerts best = .ok best') :
    (∀ a ∈ alerts, overflows (givenConfidence a) = false) ∧
      ∀ a ∈ alerts, hashable (detectorOf a) = true := by
  induction alerts generalizing best with
  | nil => exact ⟨nofun, nofun⟩
  | cons a alerts ih =>
      obtain ⟨x, hread, hhash, hrun⟩ := bestConfidences_cons.mp h
      obtain ⟨hfits, hhashes⟩ := ih hrun
      simp only [List.forall_mem_cons]
      rcases readConfidence_cases rt a with ⟨-, e, he⟩ | ⟨hfit, -⟩ | ⟨hfit, -⟩
      · rw [hread] at he
        cases he
      · exact ⟨⟨hfit, hfits⟩, hhash, hhashes⟩
      · exact ⟨⟨hfit, hfits⟩, hhash, hhashes⟩

theorem numbered_of_bestConfidences {alerts : List Object} {seen : List Json}
    {best best' : List (Json × PyFloat)} (h : bestConfidences rt alerts best = .ok best')
    (hno : ∀ d, (d, PyFloat.nan) ∉ best')
    (hseen : ∀ k ∈ best.map fun e => detectorKey e.1, k ∈ seen) : Numbered rt seen alerts := by
  induction alerts generalizing seen best with
  | nil =>
      rintro before a after heq
      simp at heq
  | cons a alerts ih =>
      obtain ⟨x, hread, -, hrun⟩ := bestConfidences_cons.mp h
      have hseen' : ∀ k ∈ (keepBest (detectorOf a) (clamp x) best).map fun e => detectorKey e.1,
          k ∈ keyOf a :: seen := by
        intro k hk
        rw [List.mem_cons]
        rcases mem_keys_keepBest hk with hk | hk
        · exact .inl hk
        · exact .inr (hseen k hk)
      refine numbered_cons.mpr ⟨fun hnew => ?_, ih hrun hseen'⟩
      rcases readConfidence_cases rt a with ⟨-, e, he⟩ | ⟨-, -, hx⟩ | ⟨-, hnan, -⟩
      · rw [hread] at he
        cases he
      · rw [hread] at hx
        cases hx
        have hkeys : detectorKey (detectorOf a) ∉ best.map fun e => detectorKey e.1 :=
          fun hk => hnew (hseen _ hk)
        rw [clamp_nan, keepBest_new_nan hkeys] at hrun
        exact absurd (nan_mem_bestConfidences (List.mem_append_right _ List.mem_cons_self) hrun) (hno _)
      · exact hnan

/-! ## The score -/

def oddsOf (c : ℚ) : ℚ := c / (1 - c)

/-- The product of the odds of the detectors' greatest confidences. -/
def jointOdds (rt : Runtime) (alerts : List Object) : ℚ := (bests (evidence rt alerts)).prod oddsOf

def percent (p : ℚ) : ℚ := 100 * (p / (1 + p))

theorem percent_le_percent {p q : ℚ} (hp : 0 < p) (hq : 0 < q) : percent p ≤ percent q ↔ p ≤ q := by
  have hp' : 0 < 1 + p := by linarith
  have hq' : 0 < 1 + q := by linarith
  rw [percent, percent, mul_le_mul_iff_right₀ (by norm_num), div_le_div_iff₀ hp' hq']
  constructor <;> intro h <;> linarith

theorem percent_bounds {p : ℚ} (hp : 0 < p) : 0 ≤ percent p ∧ percent p ≤ 100 := by
  have hp' : 0 < 1 + p := by linarith
  have hle : p / (1 + p) ≤ 1 := (div_le_one hp').mpr (by linarith)
  have hnn : 0 ≤ p / (1 + p) := (div_pos hp hp').le
  rw [percent]
  exact ⟨by linarith, by linarith⟩

theorem oddsOf_pos {c : ℚ} (h : 1 / 100 ≤ c ∧ c ≤ 99 / 100) : 0 < oddsOf c :=
  div_pos (by linarith [h.1]) (by linarith [h.2])

theorem oddsOf_le_oddsOf {b c : ℚ} (hb : 1 / 100 ≤ b ∧ b ≤ 99 / 100) (hc : 1 / 100 ≤ c ∧ c ≤ 99 / 100)
    (h : b ≤ c) : oddsOf b ≤ oddsOf c := by
  rw [oddsOf, oddsOf, div_le_div_iff₀ (by linarith [hb.2]) (by linarith [hc.2])]
  linarith

theorem one_le_oddsOf {c : ℚ} (h : 1 / 100 ≤ c ∧ c ≤ 99 / 100) : 1 ≤ oddsOf c ↔ 1 / 2 ≤ c := by
  rw [oddsOf, one_le_div (by linarith [h.2])]
  constructor <;> intro h <;> linarith

theorem evidence_bounds {alerts : List Object} {k : Json} {c : ℚ} (h : (k, c) ∈ evidence rt alerts) :
    1 / 100 ≤ c ∧ c ≤ 99 / 100 := by
  obtain ⟨a, -, ha⟩ := List.mem_filterMap.mp h
  obtain ⟨-, x, hx, -, rfl⟩ := of_evidenceOf ha
  exact clampRat_bounds hx

theorem best_bounds {alerts : List Object} {k : Json} {c : ℚ}
    (h : (bests (evidence rt alerts)).get? k = some c) : 1 / 100 ≤ c ∧ c ≤ 99 / 100 :=
  evidence_bounds (get?_bests_eq_some.mp h).1

theorem jointOdds_pos (rt : Runtime) (alerts : List Object) : 0 < jointOdds rt alerts := by
  rw [jointOdds, Dict.prod_eq_entries]
  apply List.prod_pos
  intro p hp
  obtain ⟨⟨k, c⟩, hmem, rfl⟩ := List.mem_map.mp hp
  exact oddsOf_pos (best_bounds (Dict.get?_eq_some.mpr hmem))

theorem oddsProduct_fin (cs : List ℚ) :
    oddsProduct (cs.map PyFloat.fin) = .fin (cs.map oddsOf).prod := by
  induction cs with
  | nil => rfl
  | cons c cs ih =>
      simp only [oddsProduct, List.map_cons, List.foldr_cons] at ih ⊢
      rw [ih]
      rfl

theorem oddsProduct_nan {cs : List PyFloat} (h : PyFloat.nan ∈ cs) : oddsProduct cs = .nan := by
  induction cs with
  | nil => cases h
  | cons c cs ih =>
      rw [oddsProduct, List.foldr_cons]
      rcases List.mem_cons.mp h with rfl | h
      · rfl
      · have hrest := ih h
        rw [oddsProduct] at hrest
        rw [hrest]
        cases odds c <;> rfl

theorem Scorable.bestConfidences {alerts : List Object} (h : Scorable rt alerts) :
    ∃ best, bestConfidences rt alerts [] = .ok best ∧ Holds best (bests (evidence rt alerts)) :=
  bestConfidences_of_numbered h.fits h.hashed h.numbered nofun rfl

theorem scorable_of_bestConfidences {alerts : List Object} {best : List (Json × PyFloat)}
    (h : Correlation.bestConfidences rt alerts [] = .ok best)
    (hno : ∀ d, (d, PyFloat.nan) ∉ best) : Scorable rt alerts := by
  obtain ⟨hfits, hhash⟩ := reads_of_bestConfidences h
  exact ⟨hfits, hhash, numbered_of_bestConfidences h hno nofun⟩

def pooled : PyFloat → PyFloat
  | .fin p => .fin (percent p)
  | x => x

theorem calculateRiskScore_eq {alerts : List Object} (hne : alerts ≠ []) :
    calculateRiskScore rt alerts =
      (bestConfidences rt alerts []).map fun best => pooled (oddsProduct (best.map Prod.snd)) := by
  rw [calculateRiskScore, if_neg hne]
  cases bestConfidences rt alerts [] with
  | error e => rfl
  | ok best =>
      simp only [bind, Except.bind, Except.map]
      cases oddsProduct (best.map Prod.snd) <;> rfl

theorem Scorable.score {alerts : List Object} (h : Scorable rt alerts) (hne : alerts ≠ []) :
    calculateRiskScore rt alerts = .ok (.fin (percent (jointOdds rt alerts))) := by
  obtain ⟨best, hbest, hold⟩ := h.bestConfidences
  have hprod : oddsProduct (best.map Prod.snd) = .fin (jointOdds rt alerts) := by
    rw [hold.confidences, oddsProduct_fin]
    rfl
  rw [calculateRiskScore_eq hne, hbest, Except.map, hprod]
  rfl

theorem scorable_of_score {alerts : List Object} {s : ℚ}
    (h : calculateRiskScore rt alerts = .ok (.fin s)) : Scorable rt alerts := by
  by_cases hne : alerts = []
  · subst hne
    exact ⟨nofun, nofun, by rintro before a after heq; simp at heq⟩
  · rw [calculateRiskScore_eq hne] at h
    cases hbest : bestConfidences rt alerts [] with
    | error e => rw [hbest] at h; cases h
    | ok best =>
        refine scorable_of_bestConfidences hbest fun d hd => ?_
        have hnan : oddsProduct (best.map Prod.snd) = .nan :=
          oddsProduct_nan (List.mem_map.mpr ⟨_, hd, rfl⟩)
        rw [hbest, Except.map, hnan] at h
        cases h

/-! ## Longer and shorter lists -/

theorem numbered_append_singleton {seen : List Json} {alerts : List Object} {a : Object}
    (h : Numbered rt seen alerts) (ha : readsNan rt (givenConfidence a) = false) :
    Numbered rt seen (alerts ++ [a]) := by
  induction alerts generalizing seen with
  | nil =>
      rw [List.nil_append, numbered_cons]
      refine ⟨fun _ => ha, ?_⟩
      rintro before b after heq
      simp at heq
  | cons b alerts ih =>
      rw [numbered_cons] at h
      rw [List.cons_append, numbered_cons]
      exact ⟨h.1, ih h.2⟩

theorem Scorable.append_singleton {alerts : List Object} {a : Object} (h : Scorable rt alerts)
    (hfit : overflows (givenConfidence a) = false) (hhash : hashable (detectorOf a) = true)
    (hnan : readsNan rt (givenConfidence a) = false) : Scorable rt (alerts ++ [a]) where
  fits := by
    simp only [List.forall_mem_append, List.forall_mem_singleton]
    exact ⟨h.fits, hfit⟩
  hashed := by
    simp only [List.forall_mem_append, List.forall_mem_singleton]
    exact ⟨h.hashed, hhash⟩
  numbered := numbered_append_singleton h.numbered hnan

theorem scorable_of_numbers {alerts : List Object}
    (hfits : ∀ a ∈ alerts, overflows (givenConfidence a) = false)
    (hhash : ∀ a ∈ alerts, hashable (detectorOf a) = true)
    (hnum : ∀ a ∈ alerts, readsNan rt (givenConfidence a) = false) : Scorable rt alerts where
  fits := hfits
  hashed := hhash
  numbered := by
    rintro before a after rfl - -
    exact hnum a (by simp)

theorem mem_evidence {alerts : List Object} {k : Json} {c : ℚ} :
    (k, c) ∈ evidence rt alerts ↔ ∃ a ∈ alerts, evidenceOf rt a = some (k, c) := List.mem_filterMap

theorem evidence_append (xs ys : List Object) :
    evidence rt (xs ++ ys) = evidence rt xs ++ evidence rt ys := List.filterMap_append

theorem Scorable.exists_evidence {alerts : List Object} (h : Scorable rt alerts) {b : Object}
    (hb : b ∈ alerts) : ∃ c, (keyOf b, c) ∈ evidence rt alerts := by
  have hsome : (alerts.find? fun a => keyOf a = keyOf b).isSome := by
    rw [List.find?_isSome]
    exact ⟨b, hb, by simp⟩
  obtain ⟨a, ha⟩ := Option.isSome_iff_exists.mp hsome
  obtain ⟨hkey, before, after, heq, hfirst⟩ := List.find?_eq_some_iff_append.mp ha
  have hnan : readsNan rt (givenConfidence a) = false := by
    apply h.numbered before a after heq (by simp)
    intro d hd hda
    have hne := hfirst d hd
    simp [hda, of_decide_eq_true hkey] at hne
  have hmem : a ∈ alerts := List.mem_of_find?_eq_some ha
  rcases readConfidence_cases rt a with ⟨hov, -⟩ | ⟨-, hx, -⟩ | ⟨-, -, x, hx, hread⟩
  · rw [h.fits a hmem] at hov
    cases hov
  · rw [hnan] at hx
    cases hx
  · refine ⟨clampRat x, mem_evidence.mpr ⟨a, hmem, ?_⟩⟩
    rw [evidenceOf_some hread hx, of_decide_eq_true hkey]

theorem jointOdds_append_new {alerts : List Object} {a : Object} {c : ℚ}
    (hnew : ∀ c, (keyOf a, c) ∉ evidence rt alerts) (ha : evidenceOf rt a = some (keyOf a, c)) :
    jointOdds rt (alerts ++ [a]) = jointOdds rt alerts * oddsOf c := by
  have hone : evidence rt [a] = [(keyOf a, c)] := by simp [evidence, ha]
  rw [jointOdds, evidence_append, hone, bests_append,
    Dict.prod_raise_of_none (get?_bests_eq_none.mpr hnew), jointOdds]

/-- A list with the same detectors, each at least as confident, has no smaller odds. -/
theorem jointOdds_le {xs ys : List Object}
    (hxy : ∀ k c, (k, c) ∈ evidence rt xs → ∃ c', c ≤ c' ∧ (k, c') ∈ evidence rt ys)
    (hyx : ∀ k c, (k, c) ∈ evidence rt ys → ∃ c', (k, c') ∈ evidence rt xs) :
    jointOdds rt xs ≤ jointOdds rt ys := by
  apply Dict.prod_le_prod
  · intro k
    rw [get?_bests_eq_none, get?_bests_eq_none]
    constructor
    · intro hno c hc
      obtain ⟨c', hc'⟩ := hyx k c hc
      exact hno c' hc'
    · intro hno c hc
      obtain ⟨c', -, hc'⟩ := hxy k c hc
      exact hno c' hc'
  · intro k c hc
    exact (oddsOf_pos (best_bounds hc)).le
  · intro k c c' hc hc'
    obtain ⟨e, hce, he⟩ := hxy k c (get?_bests_eq_some.mp hc).1
    exact oddsOf_le_oddsOf (best_bounds hc) (best_bounds hc')
      (hce.trans ((get?_bests_eq_some.mp hc').2 e he))

theorem jointOdds_congr {xs ys : List Object}
    (hxy : ∀ k c, (k, c) ∈ evidence rt xs → ∃ c', c ≤ c' ∧ (k, c') ∈ evidence rt ys)
    (hyx : ∀ k c, (k, c) ∈ evidence rt ys → ∃ c', c ≤ c' ∧ (k, c') ∈ evidence rt xs) :
    jointOdds rt xs = jointOdds rt ys :=
  Dict.prod_congr (get?_bests_congr hxy hyx)

theorem jointOdds_append_known {alerts : List Object} {a b : Object} (hb : b ∈ alerts)
    (h : Scorable rt alerts) (hkey : keyOf a = keyOf b) :
    jointOdds rt alerts ≤ jointOdds rt (alerts ++ [a]) := by
  apply jointOdds_le
  · intro k c hc
    exact ⟨c, le_rfl, by simp [evidence_append, hc]⟩
  · intro k c hc
    rw [evidence_append, List.mem_append] at hc
    rcases hc with hc | hc
    · exact ⟨c, hc⟩
    · obtain ⟨d, hd, hev⟩ := mem_evidence.mp hc
      obtain rfl := List.mem_singleton.mp hd
      obtain ⟨rfl, -⟩ := of_evidenceOf hev
      rw [hkey]
      exact h.exists_evidence hb

end NeuralSoc.Correlation
