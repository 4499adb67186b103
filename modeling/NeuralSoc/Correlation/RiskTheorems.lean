import NeuralSoc.Correlation.Lemmas.Risk
import NeuralSoc.Correlation.LogOdds
import NeuralSoc.Correlation.Theorems
import Mathlib.Analysis.Complex.ExponentialBounds

/-!
# The risk score: main results
-/

namespace NeuralSoc.Correlation

variable {rt : Runtime}

/-! ## One more alert -/

/-- An alert as a detector sends it. -/
structure Emitted (a : Object) (c : ℚ) : Prop where
  named : hashable (detectorOf a) = true
  confidence : givenConfidence a = .float (.fin c)
  pos : 0 < c
  lt_one : c < 1

/-- Both lists have a score, and the alert does not lower it. -/
def NotLowered (rt : Runtime) (alerts : List Object) (a : Object) : Prop :=
  ∃ s t, calculateRiskScore rt alerts = .ok (.fin s) ∧
    calculateRiskScore rt (alerts ++ [a]) = .ok (.fin t) ∧ s ≤ t

theorem Emitted.evidence {a : Object} {c : ℚ} (h : Emitted a c) :
    evidenceOf rt a = some (keyOf a, clampRat (.fin c)) := by
  have hread : readConfidence rt a = .ok (.fin c) := by
    rw [readConfidence, h.confidence, if_neg nofun]
    rfl
  exact evidenceOf_some hread nofun

theorem half_le_clampRat {c : ℚ} : 1 / 2 ≤ clampRat (.fin c) ↔ 1 / 2 ≤ c := by
  simp only [clampRat, le_min_iff, le_max_iff]
  norm_num

theorem Emitted.scorable {alerts : List Object} {a : Object} {c : ℚ} (ha : Emitted a c)
    (h : Scorable rt alerts) : Scorable rt (alerts ++ [a]) := by
  apply h.append_singleton
  · rw [ha.confidence, overflows]
    intro i hi
    cases hi
  · exact ha.named
  · simp [ha.confidence, readsNan]

theorem notLowered_iff_odds {alerts : List Object} {a : Object} {c : ℚ} (hne : alerts ≠ [])
    (ha : Emitted a c) :
    NotLowered rt alerts a ↔
      Scorable rt alerts ∧ jointOdds rt alerts ≤ jointOdds rt (alerts ++ [a]) := by
  have hone := percent_le_percent (jointOdds_pos rt alerts) (jointOdds_pos rt (alerts ++ [a]))
  have hne' : alerts ++ [a] ≠ [] := by simp
  constructor
  · rintro ⟨s, t, hs, ht, hle⟩
    have h := scorable_of_score hs
    refine ⟨h, hone.mp ?_⟩
    rw [h.score hne] at hs
    rw [(ha.scorable h).score hne'] at ht
    cases hs
    cases ht
    exact hle
  · rintro ⟨h, hle⟩
    exact ⟨_, _, h.score hne, (ha.scorable h).score hne', hone.mpr hle⟩

/-- An alert of a detector that is new to the list and less than half sure lowers the score. -/
theorem notLowered_iff (rt : Runtime) (alerts : List Object) (a : Object) (c : ℚ)
    (hne : alerts ≠ []) (ha : Emitted a c) :
    NotLowered rt alerts a ↔
      Scorable rt alerts ∧
        ((∃ b ∈ alerts, sameKey (detectorOf a) (detectorOf b) = true) ∨ 1 / 2 ≤ c) := by
  rw [notLowered_iff_odds hne ha]
  refine and_congr_right fun h => ?_
  by_cases hknown : ∃ b ∈ alerts, sameKey (detectorOf a) (detectorOf b) = true
  · obtain ⟨b, hb, hsame⟩ := hknown
    have hle := jointOdds_append_known hb h (sameKey_iff.mp hsame)
    simp only [hle, true_iff]
    exact .inl ⟨b, hb, hsame⟩
  · have hnew : ∀ c, (keyOf a, c) ∉ evidence rt alerts := by
      intro c hc
      obtain ⟨b, hb, hev⟩ := mem_evidence.mp hc
      obtain ⟨hkey, -⟩ := of_evidenceOf hev
      exact hknown ⟨b, hb, sameKey_iff.mpr hkey⟩
    have hbounds : 1 / 100 ≤ clampRat (.fin c) ∧ clampRat (.fin c) ≤ 99 / 100 := clampRat_bounds nofun
    rw [or_iff_right hknown, jointOdds_append_new hnew ha.evidence,
      le_mul_iff_one_le_right (jointOdds_pos rt alerts), one_le_oddsOf hbounds, half_le_clampRat]

def alertOf (ruleId : String) (conf : ℚ) : Object :=
  [("rule_id", .str ruleId), ("confidence_score", .float (.fin conf))]

theorem emitted_alertOf (ruleId : String) (conf : ℚ) (hpos : 0 < conf) (hlt : conf < 1)
    (hid : ruleId ≠ "") : Emitted (alertOf ruleId conf) conf where
  named := by simp [alertOf, detectorOf, Object.get, List.lookup_cons, Json.or, Json.truthy, hashable, hid]
  confidence := by simp [alertOf, givenConfidence, Object.getD, List.lookup_cons]
  pos := hpos
  lt_one := hlt

theorem notLowered_iff_flood :
    NotLowered plainRuntime [alertOf "RULE_DDOS_CONN_RATE" (19 / 20)]
        (alertOf "RULE_DNS_QUERY_BURST" (9 / 10)) ↔
      Scorable plainRuntime [alertOf "RULE_DDOS_CONN_RATE" (19 / 20)] ∧
        ((∃ b ∈ [alertOf "RULE_DDOS_CONN_RATE" (19 / 20)],
          sameKey (detectorOf (alertOf "RULE_DNS_QUERY_BURST" (9 / 10))) (detectorOf b) = true) ∨
        (1 / 2 : ℚ) ≤ 9 / 10) :=
  notLowered_iff plainRuntime _ _ _ (by simp)
    (emitted_alertOf "RULE_DNS_QUERY_BURST" (9 / 10) (by norm_num) (by norm_num) (by decide))

/-- The beacon rule, whose confidence is 0.40, takes a flood from 95 to 93. -/
theorem beacon_lowers_score :
    ¬ ∀ (rt : Runtime) (alerts : List Object) (a : Object) (c : ℚ), alerts ≠ [] → Emitted a c →
      NotLowered rt alerts a := by
  intro h
  obtain ⟨s, t, hs, ht, hle⟩ := h plainRuntime [alertOf "RULE_DDOS_CONN_RATE" (19 / 20)] _ _ (by simp)
    (emitted_alertOf "RULE_C2_BEACON_PERIODIC" (2 / 5) (by norm_num) (by norm_num) (by decide))
  have hflood : calculateRiskScore plainRuntime [alertOf "RULE_DDOS_CONN_RATE" (19 / 20)] =
      .ok (.fin 95) := by decide +kernel
  have hboth : calculateRiskScore plainRuntime ([alertOf "RULE_DDOS_CONN_RATE" (19 / 20)] ++
      [alertOf "RULE_C2_BEACON_PERIODIC" (2 / 5)]) = .ok (.fin (3800 / 41)) := by decide +kernel
  rw [hflood] at hs
  rw [hboth] at ht
  cases hs
  cases ht
  norm_num at hle

/-! ## Only the strongest alert of a detector counts -/

def HasNumber (rt : Runtime) (a : Object) : Prop := readsNan rt (givenConfidence a) = false

/-- `a` comes from the detector of `b` and its confidence does not exceed that of `b`. -/
def AtMost (rt : Runtime) (a b : Object) : Prop :=
  sameKey (detectorOf a) (detectorOf b) = true ∧
    ∃ x y, readConfidence rt a = .ok x ∧ readConfidence rt b = .ok y ∧ y.lt x = false

/-- The two calls return the same score, or neither returns one. -/
def SameScore (rt : Runtime) (xs ys : List Object) : Prop :=
  ∀ s, calculateRiskScore rt xs = .ok s ↔ calculateRiskScore rt ys = .ok s

theorem scorable_of_ok {alerts : List Object} (hnum : ∀ a ∈ alerts, HasNumber rt a) {s : PyFloat}
    (h : calculateRiskScore rt alerts = .ok s) : Scorable rt alerts := by
  by_cases hne : alerts = []
  · subst hne
    exact scorable_of_numbers nofun nofun nofun
  · rw [calculateRiskScore_eq hne] at h
    cases hbest : bestConfidences rt alerts [] with
    | error e =>
        rw [hbest] at h
        cases h
    | ok best =>
        obtain ⟨hfits, hhash⟩ := reads_of_bestConfidences hbest
        exact scorable_of_numbers hfits hhash hnum

theorem sameScore_of_odds {xs ys : List Object} (hx : ∀ a ∈ xs, HasNumber rt a)
    (hy : ∀ a ∈ ys, HasNumber rt a) (hscore : Scorable rt xs ↔ Scorable rt ys)
    (hnil : xs = [] ↔ ys = []) (hodds : jointOdds rt xs = jointOdds rt ys) : SameScore rt xs ys := by
  intro s
  by_cases hne : xs = []
  · rw [hne, hnil.mp hne]
  · have hne' : ys ≠ [] := fun h => hne (hnil.mpr h)
    constructor
    · intro h
      have hxs := scorable_of_ok hx h
      rwa [hxs.score hne, hodds, ← (hscore.mp hxs).score hne'] at h
    · intro h
      have hys := scorable_of_ok hy h
      rwa [hys.score hne', ← hodds, ← (hscore.mpr hys).score hne] at h

theorem readConfidence_number {a : Object} (ha : HasNumber rt a) {x : PyFloat}
    (h : readConfidence rt a = .ok x) : x ≠ .nan ∧ overflows (givenConfidence a) = false := by
  rcases readConfidence_cases rt a with ⟨-, e, he⟩ | ⟨-, hnan, -⟩ | ⟨hfit, -, y, hy, hread⟩
  · rw [h] at he
    cases he
  · rw [ha] at hnan
    cases hnan
  · rw [h] at hread
    cases hread
    exact ⟨hy, hfit⟩

theorem AtMost.evidence {a b : Object} (h : AtMost rt a b) (ha : HasNumber rt a)
    (hb : HasNumber rt b) :
    ∃ c c', evidenceOf rt a = some (keyOf b, c) ∧ evidenceOf rt b = some (keyOf b, c') ∧ c ≤ c' := by
  obtain ⟨hsame, x, y, hx, hy, hle⟩ := h
  have hkey : keyOf a = keyOf b := sameKey_iff.mp hsame
  obtain ⟨hxn, -⟩ := readConfidence_number ha hx
  obtain ⟨hyn, -⟩ := readConfidence_number hb hy
  refine ⟨clampRat x, clampRat y, ?_, evidenceOf_some hy hyn, clampRat_mono hxn hyn hle⟩
  rw [evidenceOf_some hx hxn, hkey]

theorem AtMost.hashed {a b : Object} (h : AtMost rt a b) :
    hashable (detectorOf a) = hashable (detectorOf b) := hashable_congr (sameKey_iff.mp h.1)

theorem AtMost.fits {a b : Object} (h : AtMost rt a b) (ha : HasNumber rt a) (hb : HasNumber rt b) :
    overflows (givenConfidence a) = false ∧ overflows (givenConfidence b) = false := by
  obtain ⟨-, x, y, hx, hy, -⟩ := h
  exact ⟨(readConfidence_number ha hx).2, (readConfidence_number hb hy).2⟩

theorem Scorable.perm {xs ys : List Object} (hs : Scorable rt xs) (h : xs.Perm ys)
    (hnum : ∀ a ∈ ys, HasNumber rt a) : Scorable rt ys :=
  scorable_of_numbers (fun a ha => hs.fits a (h.mem_iff.mpr ha)) (fun a ha => hs.hashed a (h.mem_iff.mpr ha)) hnum

theorem jointOdds_perm {xs ys : List Object} (h : xs.Perm ys) : jointOdds rt xs = jointOdds rt ys := by
  have hev := h.filterMap (evidenceOf rt)
  apply jointOdds_congr
  · intro k c hc
    exact ⟨c, le_rfl, hev.mem_iff.mp hc⟩
  · intro k c hc
    exact ⟨c, le_rfl, hev.mem_iff.mpr hc⟩

theorem sameScore_of_perm {xs ys : List Object} (h : xs.Perm ys) (hnum : ∀ a ∈ xs, HasNumber rt a) :
    SameScore rt xs ys := by
  have hnum' : ∀ a ∈ ys, HasNumber rt a := fun a ha => hnum a (h.mem_iff.mpr ha)
  refine sameScore_of_odds hnum hnum' ⟨fun hs => hs.perm h hnum', fun hs => hs.perm h.symm hnum⟩ ?_
    (jointOdds_perm h)
  constructor
  · rintro rfl
    exact h.nil_eq.symm
  · rintro rfl
    exact h.eq_nil

theorem sameScore_append {kept extra : List Object} (hnum : ∀ a ∈ kept ++ extra, HasNumber rt a)
    (hextra : ∀ e ∈ extra, ∃ b ∈ kept, AtMost rt e b) : SameScore rt (kept ++ extra) kept := by
  have hkept : ∀ a ∈ kept, HasNumber rt a := fun a ha => hnum a (List.mem_append_left _ ha)
  apply sameScore_of_odds hnum hkept
  · constructor
    · intro hs
      exact scorable_of_numbers (fun a ha => hs.fits a (List.mem_append_left _ ha))
        (fun a ha => hs.hashed a (List.mem_append_left _ ha)) hkept
    · intro hs
      refine scorable_of_numbers (fun a ha => ?_) (fun a ha => ?_) hnum
      · rcases List.mem_append.mp ha with hk | he
        · exact hs.fits a hk
        · obtain ⟨b, hb, hle⟩ := hextra a he
          exact (hle.fits (hnum a ha) (hkept b hb)).1
      · rcases List.mem_append.mp ha with hk | he
        · exact hs.hashed a hk
        · obtain ⟨b, hb, hle⟩ := hextra a he
          rw [hle.hashed]
          exact hs.hashed b hb
  · constructor
    · intro h
      exact (List.append_eq_nil_iff.mp h).1
    · rintro rfl
      cases extra with
      | nil => rfl
      | cons e extra =>
          obtain ⟨b, hb, -⟩ := hextra e List.mem_cons_self
          cases hb
  · rw [← jointOdds_congr]
    · intro k c hc
      exact ⟨c, le_rfl, by simp [evidence_append, hc]⟩
    · intro k c hc
      rw [evidence_append, List.mem_append] at hc
      rcases hc with hc | hc
      · exact ⟨c, le_rfl, hc⟩
      · obtain ⟨e, he, hev⟩ := mem_evidence.mp hc
        obtain ⟨b, hb, hle⟩ := hextra e he
        obtain ⟨c₁, c₂, hc₁, hc₂, hcc⟩ := hle.evidence (hnum e (List.mem_append_right _ he)) (hkept b hb)
        rw [hev] at hc₁
        cases hc₁
        exact ⟨c₂, hcc, mem_evidence.mpr ⟨b, hb, hc₂⟩⟩

theorem SameScore.trans {xs ys zs : List Object} (h : SameScore rt xs ys) (h' : SameScore rt ys zs) :
    SameScore rt xs zs := fun s => (h s).trans (h' s)

def Raised (rt : Runtime) : List Object → List Object → Prop := List.Forall₂ (AtMost rt)

theorem Raised.exists_above {xs ys : List Object} (h : Raised rt xs ys) :
    ∀ a ∈ xs, ∃ b ∈ ys, AtMost rt a b := by
  induction h with
  | nil => exact nofun
  | cons hab _ ih =>
      rintro a ha
      rcases List.mem_cons.mp ha with rfl | ha
      · exact ⟨_, List.mem_cons_self, hab⟩
      · obtain ⟨b, hb, hle⟩ := ih a ha
        exact ⟨b, List.mem_cons_of_mem _ hb, hle⟩

theorem Raised.exists_below {xs ys : List Object} (h : Raised rt xs ys) :
    ∀ b ∈ ys, ∃ a ∈ xs, AtMost rt a b := by
  induction h with
  | nil => exact nofun
  | cons hab _ ih =>
      rintro b hb
      rcases List.mem_cons.mp hb with rfl | hb
      · exact ⟨_, List.mem_cons_self, hab⟩
      · obtain ⟨a, ha, hle⟩ := ih b hb
        exact ⟨a, List.mem_cons_of_mem _ ha, hle⟩

theorem score_le_of_raised {xs ys : List Object} (h : Raised rt xs ys)
    (hx : ∀ a ∈ xs, HasNumber rt a) (hy : ∀ a ∈ ys, HasNumber rt a) {s : ℚ}
    (hs : calculateRiskScore rt xs = .ok (.fin s)) :
    ∃ t, calculateRiskScore rt ys = .ok (.fin t) ∧ s ≤ t := by
  by_cases hne : xs = []
  · subst hne
    obtain rfl := List.forall₂_nil_left_iff.mp h
    exact ⟨s, hs, le_rfl⟩
  · have hne' : ys ≠ [] := by
      rintro rfl
      exact hne (List.forall₂_nil_right_iff.mp h)
    have hxs := scorable_of_score hs
    have hys : Scorable rt ys := by
      refine scorable_of_numbers (fun b hb => ?_) (fun b hb => ?_) hy
      · obtain ⟨a, ha, hle⟩ := h.exists_below b hb
        exact (hle.fits (hx a ha) (hy b hb)).2
      · obtain ⟨a, ha, hle⟩ := h.exists_below b hb
        rw [← hle.hashed]
        exact hxs.hashed a ha
    rw [hxs.score hne] at hs
    cases hs
    refine ⟨_, hys.score hne', ?_⟩
    rw [percent_le_percent (jointOdds_pos rt xs) (jointOdds_pos rt ys)]
    apply jointOdds_le
    · intro k c hc
      obtain ⟨a, ha, hev⟩ := mem_evidence.mp hc
      obtain ⟨b, hb, hle⟩ := h.exists_above a ha
      obtain ⟨c₁, c₂, hc₁, hc₂, hcc⟩ := hle.evidence (hx a ha) (hy b hb)
      rw [hev] at hc₁
      cases hc₁
      exact ⟨c₂, hcc, mem_evidence.mpr ⟨b, hb, hc₂⟩⟩
    · intro k c hc
      obtain ⟨b, hb, hev⟩ := mem_evidence.mp hc
      obtain ⟨a, ha, hle⟩ := h.exists_below b hb
      obtain ⟨c₁, c₂, hc₁, hc₂, -⟩ := hle.evidence (hx a ha) (hy b hb)
      rw [hev] at hc₂
      cases hc₂
      exact ⟨c₁, mem_evidence.mpr ⟨a, ha, hc₁⟩⟩

/-- The order of the alerts does not matter, an alert that does not exceed another one of its detector
can come or go, and no score falls with a confidence raised. -/
theorem score_of_strongest (rt : Runtime) (xs ys : List Object) (hx : ∀ a ∈ xs, HasNumber rt a)
    (hy : ∀ a ∈ ys, HasNumber rt a) :
    (xs.Perm ys → SameScore rt xs ys) ∧
    (∀ extra, xs.Perm (ys ++ extra) → (∀ e ∈ extra, ∃ b ∈ ys, AtMost rt e b) →
      SameScore rt xs ys) ∧
    (Raised rt xs ys → ∀ s, calculateRiskScore rt xs = .ok (.fin s) →
      ∃ t, calculateRiskScore rt ys = .ok (.fin t) ∧ s ≤ t) := by
  refine ⟨fun hperm => sameScore_of_perm hperm hx, fun extra hperm hextra => ?_,
    fun hraised s hs => score_le_of_raised hraised hx hy hs⟩
  have hnum : ∀ a ∈ ys ++ extra, HasNumber rt a := fun a ha => hx a (hperm.mem_iff.mpr ha)
  exact (sameScore_of_perm hperm hx).trans (sameScore_append hnum hextra)

theorem hasNumber_alertOf (rt : Runtime) (ruleId : String) (conf : ℚ) :
    HasNumber rt (alertOf ruleId conf) := by
  simp [HasNumber, alertOf, givenConfidence, Object.getD, List.lookup_cons, readsNan]

theorem atMost_alertOf (rt : Runtime) (ruleId : String) {b c : ℚ} (h : b ≤ c) :
    AtMost rt (alertOf ruleId b) (alertOf ruleId c) := by
  have hread : ∀ q, readConfidence rt (alertOf ruleId q) = .ok (.fin q) := by
    intro q
    simp [readConfidence, alertOf, givenConfidence, Object.getD, List.lookup_cons, toConfidence, toFloat]
  refine ⟨sameKey_iff.mpr rfl, .fin b, .fin c, hread b, hread c, ?_⟩
  rw [PyFloat.lt_fin]
  exact decide_eq_false (not_lt.mpr h)

def burst (conf : ℚ) : Object := alertOf "RULE_DNS_QUERY_BURST" conf

theorem score_of_strongest_burst :
    SameScore plainRuntime [burst (1 / 2), burst (9 / 10)] [burst (9 / 10), burst (1 / 2)] ∧
    SameScore plainRuntime [burst (9 / 10), burst (1 / 2)] [burst (9 / 10)] ∧
    ∀ s, calculateRiskScore plainRuntime [burst (1 / 2)] = .ok (.fin s) →
      ∃ t, calculateRiskScore plainRuntime [burst (9 / 10)] = .ok (.fin t) ∧ s ≤ t := by
  have hnum : ∀ confs : List ℚ, ∀ a ∈ confs.map burst, HasNumber plainRuntime a := by
    intro confs a ha
    obtain ⟨q, -, rfl⟩ := List.mem_map.mp ha
    exact hasNumber_alertOf _ _ q
  have hle : AtMost plainRuntime (burst (1 / 2)) (burst (9 / 10)) :=
    atMost_alertOf _ _ (by norm_num)
  refine ⟨?_, ?_, ?_⟩
  · exact (score_of_strongest plainRuntime _ _ (hnum [1 / 2, 9 / 10]) (hnum [9 / 10, 1 / 2])).1
      (List.Perm.swap _ _ _)
  · exact (score_of_strongest plainRuntime _ _ (hnum [9 / 10, 1 / 2]) (hnum [9 / 10])).2.1
      [burst (1 / 2)] (List.Perm.refl _) (by simpa using hle)
  · exact (score_of_strongest plainRuntime _ _ (hnum [1 / 2]) (hnum [9 / 10])).2.2
      (List.Forall₂.cons hle List.Forall₂.nil)

/-! ## The score as it is computed -/

theorem logOddsSum_nan {confs : List PyFloat} (h : PyFloat.nan ∈ confs) : logOddsSum confs = none := by
  have hnone : confs.mapM logOdds = none := by
    induction confs with
    | nil => cases h
    | cons c confs ih =>
        rw [List.mapM_cons]
        rcases List.mem_cons.mp h with rfl | h
        · rfl
        · cases logOdds c with
          | none => rfl
          | some x => rw [ih h]; rfl
  rw [logOddsSum, hnone]
  rfl

theorem logOddsSum_fin {cs : List ℚ} (h : ∀ c ∈ cs, 0 < oddsOf c) :
    logOddsSum (cs.map PyFloat.fin) = some (Real.log ((cs.map oddsOf).prod : ℚ)) := by
  induction cs with
  | nil => simp [logOddsSum]
  | cons c cs ih =>
      rw [List.forall_mem_cons] at h
      have hprod : 0 < (cs.map oddsOf).prod := by
        apply List.prod_pos
        intro p hp
        obtain ⟨d, hd, rfl⟩ := List.mem_map.mp hp
        exact h.2 d hd
      have hlog : Real.log ((oddsOf c * (cs.map oddsOf).prod : ℚ) : ℝ) =
          Real.log (oddsOf c : ℚ) + Real.log ((cs.map oddsOf).prod : ℚ) := by
        rw [Rat.cast_mul]
        apply Real.log_mul
        · exact_mod_cast h.1.ne'
        · exact_mod_cast hprod.ne'
      have hrest := ih h.2
      rw [logOddsSum] at hrest
      obtain ⟨xs, hxs, hsum⟩ := Option.map_eq_some_iff.mp hrest
      rw [logOddsSum, List.map_cons, List.mapM_cons, hxs, List.map_cons, List.prod_cons, hlog, ← hsum]
      rfl

theorem calculateRiskScoreExp_eq {alerts : List Object} (hne : alerts ≠ []) :
    calculateRiskScoreExp rt alerts = (bestConfidences rt alerts []).bind fun best =>
      (mathExp ((logOddsSum (best.map Prod.snd)).map fun s => -s)).map fun e =>
        e.map fun e => 1 / (1 + e) * 100 := by
  rw [calculateRiskScoreExp, if_neg hne]
  cases bestConfidences rt alerts [] with
  | error e => rfl
  | ok best =>
      simp only [bind, Except.bind]
      cases mathExp ((logOddsSum (best.map Prod.snd)).map fun s => -s) <;> rfl

/-- The two ways to write the score agree where the exponential does not overflow. -/
theorem Scorable.scoreExp {alerts : List Object} (h : Scorable rt alerts) (hne : alerts ≠ []) :
    calculateRiskScoreExp rt alerts =
      if 709.79 < -Real.log (jointOdds rt alerts) then .error ⟨.other, "math range error"⟩
      else .ok (some (percent (jointOdds rt alerts) : ℚ)) := by
  obtain ⟨best, hbest, hold⟩ := h.bestConfidences
  have hpos := jointOdds_pos rt alerts
  have hpos' : (0 : ℝ) < jointOdds rt alerts := by exact_mod_cast hpos
  have hsum : logOddsSum (best.map Prod.snd) = some (Real.log (jointOdds rt alerts)) := by
    rw [hold.confidences, logOddsSum_fin]
    · rfl
    · intro c hc
      obtain ⟨k, hk⟩ := Dict.mem_values.mp hc
      exact oddsOf_pos (best_bounds hk)
  have hexp : 1 / (1 + Real.exp (-Real.log (jointOdds rt alerts))) * 100 =
      (percent (jointOdds rt alerts) : ℚ) := by
    rw [Real.exp_neg, Real.exp_log hpos', percent]
    push_cast
    field_simp
    ring
  rw [calculateRiskScoreExp_eq hne, hbest, Except.bind, hsum, Option.map_some, mathExp]
  split
  · rfl
  · rw [Except.map, Option.map_some, hexp]

theorem scorable_of_scoreExp {alerts : List Object} {x : ℝ}
    (h : calculateRiskScoreExp rt alerts = .ok (some x)) : Scorable rt alerts := by
  by_cases hne : alerts = []
  · subst hne
    exact scorable_of_numbers nofun nofun nofun
  · rw [calculateRiskScoreExp_eq hne] at h
    cases hbest : bestConfidences rt alerts [] with
    | error e => rw [hbest] at h; cases h
    | ok best =>
        refine scorable_of_bestConfidences hbest fun d hd => ?_
        have hnan : logOddsSum (best.map Prod.snd) = none :=
          logOddsSum_nan (List.mem_map.mpr ⟨_, hd, rfl⟩)
        rw [hbest, Except.bind, hnan] at h
        cases h

theorem jointOdds_nil (rt : Runtime) : jointOdds rt [] = 1 := rfl

/-- A detector that cannot be a key, an integer too large for a float, NaN in the first alert of a
detector, and too many weak detectors take the score off its scale. -/
theorem inRange_iff (rt : Runtime) (alerts : List Object) :
    InRange rt alerts ↔ Scorable rt alerts ∧ Real.exp (-709.79) ≤ jointOdds rt alerts := by
  have hpos : (0 : ℝ) < jointOdds rt alerts := by exact_mod_cast jointOdds_pos rt alerts
  have hexp : Real.exp (-709.79) ≤ jointOdds rt alerts ↔
      ¬ 709.79 < -Real.log (jointOdds rt alerts) := by
    rw [not_lt, ← Real.le_log_iff_exp_le hpos, neg_le]
  by_cases hne : alerts = []
  · subst hne
    have hone : Real.exp (-709.79) ≤ ((jointOdds rt [] : ℚ) : ℝ) := by
      rw [jointOdds_nil, Rat.cast_one, Real.exp_le_one_iff]
      norm_num
    simp only [hone, and_true]
    constructor
    · intro _
      exact scorable_of_numbers nofun nofun nofun
    · intro _
      exact ⟨0, rfl, le_rfl, by norm_num⟩
  · rw [hexp]
    constructor
    · rintro ⟨x, hx, -⟩
      have h := scorable_of_scoreExp hx
      refine ⟨h, fun hover => ?_⟩
      rw [h.scoreExp hne, if_pos hover] at hx
      cases hx
    · rintro ⟨h, hfit⟩
      obtain ⟨hlo, hhi⟩ := percent_bounds (jointOdds_pos rt alerts)
      refine ⟨_, (h.scoreExp hne).trans (if_neg hfit), ?_, ?_⟩
      · exact_mod_cast hlo
      · exact_mod_cast hhi

def faint (n : ℕ) : List Object := (List.range n).map fun i => alertOf (tag i) (1 / 100)

theorem keyOf_alertOf {ruleId : String} (h : ruleId ≠ "") (conf : ℚ) :
    keyOf (alertOf ruleId conf) = .str ruleId := by
  simp [keyOf, alertOf, detectorOf, Object.get, List.lookup_cons, Json.or, Json.truthy, h, detectorKey,
    numeric?]

theorem emitted_faint (i : ℕ) : Emitted (alertOf (tag i) (1 / 100)) (1 / 100) :=
  emitted_alertOf _ _ (by norm_num) (by norm_num) (tag_ne (by decide))

theorem jointOdds_faint (rt : Runtime) (n : ℕ) : jointOdds rt (faint n) = (1 / 99) ^ n := by
  induction n with
  | zero => exact (jointOdds_nil rt).trans (pow_zero _).symm
  | succ n ih =>
      have hsplit : faint (n + 1) = faint n ++ [alertOf (tag n) (1 / 100)] := by
        simp [faint, List.range_succ]
      have hnew : ∀ c, (keyOf (alertOf (tag n) (1 / 100)), c) ∉ evidence rt (faint n) := by
        intro c hc
        obtain ⟨a, ha, hev⟩ := mem_evidence.mp hc
        obtain ⟨i, hi, rfl⟩ := List.mem_map.mp ha
        obtain ⟨hkey, -⟩ := of_evidenceOf hev
        rw [keyOf_alertOf (tag_ne (by decide)), keyOf_alertOf (tag_ne (by decide)), Json.str.injEq] at hkey
        have hlt := List.mem_range.mp hi
        exact absurd (tag_injective hkey) hlt.ne'
      rw [hsplit, jointOdds_append_new hnew (emitted_faint n).evidence, ih, pow_succ]
      norm_num [oddsOf, clampRat]

theorem faint_detectors_raise : ¬ ∀ (rt : Runtime) (alerts : List Object), InRange rt alerts := by
  intro h
  obtain ⟨x, hx, -⟩ := h plainRuntime (faint 155)
  have hscore := (scorable_of_scoreExp hx).scoreExp (by simp [faint])
  have hover : (709.79 : ℝ) < -Real.log (jointOdds plainRuntime (faint 155)) := by
    have hbase : Real.exp 142 < 99 ^ 31 := by
      calc Real.exp 142 = Real.exp 1 ^ 142 := by rw [← Real.exp_nat_mul]; norm_num
        _ < 2.7182818286 ^ 142 := by
          exact pow_lt_pow_left₀ Real.exp_one_lt_d9 (Real.exp_pos 1).le (by norm_num)
        _ < 99 ^ 31 := by norm_num
    have hlog : (142 : ℝ) < 31 * Real.log 99 := by
      rw [← Real.log_rpow (by norm_num), Real.lt_log_iff_exp_lt (by positivity)]
      exact_mod_cast hbase
    rw [jointOdds_faint]
    push_cast
    rw [Real.log_pow, one_div, Real.log_inv]
    push_cast
    linarith
  rw [hscore, if_pos hover] at hx
  cases hx

end NeuralSoc.Correlation
