import NeuralSoc.Incidents.Lemmas.Groups

/-! # One incident for each source. -/

namespace NeuralSoc.Incidents

open Shell Correlation

variable {rt : Runtime} {now : Json → String} {ρ : Type} {score : List Object → Except Exc ρ}

def groupOf (alerts : List Object) (src : Json) : List Object := alerts.filter fun a => sourceOf a = src

theorem groupOf_ne_nil {alerts : List Object} {src : Json} :
    groupOf alerts src ≠ [] ↔ ∃ a ∈ alerts, sourceOf a = src := by
  rw [groupOf, ne_eq, List.filter_eq_nil_iff]
  simp

theorem mem_groupOf {alerts : List Object} {src : Json} {a : Object} :
    a ∈ groupOf alerts src ↔ a ∈ alerts ∧ sourceOf a = src := by
  rw [groupOf, List.mem_filter, decide_eq_true_eq]

/-! ## The groups -/

theorem addAlert_eq {a : Object} (h : FromApi a) (bySrc : Dict Json Group) :
    addAlert rt now bySrc a =
      .ok (bySrc.set (sourceOf a) (grown rt now (bySrc.get? (sourceOf a)) a)) := by
  unfold addAlert grown
  cases bySrc.get? (sourceOf a) with
  | none =>
      rw [newGroup_eq h]
      simp only [bind, Except.bind, add_eq h]
      rfl
  | some inc =>
      simp only [bind, Except.bind, pure, Except.pure, add_eq h]
      rfl

theorem foldlM_addAlert {alerts : List Object} (h : ∀ a ∈ alerts, FromApi a) (bySrc : Dict Json Group) :
    alerts.foldlM (addAlert rt now) bySrc =
      .ok (Dict.accumulate sourceOf (grown rt now) alerts bySrc) := by
  induction alerts generalizing bySrc with
  | nil => rfl
  | cons a alerts ih =>
      obtain ⟨ha, halerts⟩ := List.forall_mem_cons.mp h
      rw [List.foldlM_cons, addAlert_eq ha]
      exact ih halerts _

def groups (rt : Runtime) (now : Json → String) (alerts : List Object) : Dict Json Group :=
  Dict.accumulate sourceOf (grown rt now) alerts .empty

theorem get?_groups (alerts : List Object) (src : Json) :
    (groups rt now alerts).get? src =
      (groupOf alerts src).foldl (fun v a => some (grown rt now v a)) none :=
  Dict.get?_accumulate sourceOf (grown rt now) alerts .empty src

theorem groups_collected {alerts : List Object} {src : Json} {inc : Group}
    (h : (groups rt now alerts).get? src = some inc) : Collected rt now src (groupOf alerts src) inc := by
  rw [get?_groups] at h
  have hne : groupOf alerts src ≠ [] := fun hnil => by
    rw [hnil] at h
    cases h
  obtain ⟨inc', hinc', hcollected⟩ := collected_foldl rt now hne fun a ha => (mem_groupOf.mp ha).2
  cases hinc'.symm.trans h
  exact hcollected

theorem mem_groups_iff {alerts : List Object} {src : Json} :
    src ∈ (groups rt now alerts).entries.map Prod.fst ↔ ∃ a ∈ alerts, sourceOf a = src := by
  rw [← Dict.get?_isSome, get?_groups, ← groupOf_ne_nil]
  constructor
  · intro h hnil
    rw [hnil] at h
    cases h
  · intro hne
    obtain ⟨inc, hinc, -⟩ := collected_foldl rt now hne fun a ha => (mem_groupOf.mp ha).2
    rw [hinc]
    rfl

/-! ## The incidents -/

/-- The incident of a source is its group with the risk score of the group's alerts. -/
def IsIncidentOf (rt : Runtime) (score : List Object → Except Exc ρ) (now : Json → String)
    (alerts : List Object) (src : Json) (i : Incident ρ) : Prop :=
  ∃ inc r, Collected rt now src (groupOf alerts src) inc ∧ score (groupOf alerts src) = .ok r ∧
    i = present src inc r

theorem mapM_eq_ok {α β : Type} {f : α → Except Exc β} {xs : List α} {ys : List β} :
    xs.mapM f = .ok ys ↔ List.Forall₂ (fun x y => f x = .ok y) xs ys := by
  induction xs generalizing ys with
  | nil =>
      rw [List.forall₂_nil_left_iff]
      exact ⟨fun h => (Except.ok.inj h).symm, fun h => h ▸ rfl⟩
  | cons x xs ih =>
      rw [List.mapM_cons, List.forall₂_cons_left_iff]
      cases hx : f x with
      | error e => exact iff_of_false nofun (by rintro ⟨_, _, hy, -⟩; cases hy)
      | ok y =>
          cases hxs : xs.mapM f with
          | error e =>
              refine iff_of_false nofun ?_
              rintro ⟨_, _, -, hrest, -⟩
              rw [← ih, hxs] at hrest
              cases hrest
          | ok rest =>
              constructor
              · intro h
                cases h
                exact ⟨y, rest, rfl, ih.mp hxs, rfl⟩
              · rintro ⟨y', rest', hy, hrest, rfl⟩
                cases hy
                cases hxs.symm.trans (ih.mpr hrest)
                rfl

theorem exists_of_forall₂ {α β : Type} {R : α → β → Prop} {xs : List α} {ys : List β} (h : List.Forall₂ R xs ys) :
    ∀ y ∈ ys, ∃ x ∈ xs, R x y := by
  induction h with
  | nil => exact fun _ hy => absurd hy List.not_mem_nil
  | @cons x y xs ys hxy _ ih =>
      intro z hz
      rcases List.mem_cons.mp hz with rfl | hz
      · exact ⟨x, List.mem_cons_self, hxy⟩
      · obtain ⟨w, hw, hwz⟩ := ih z hz
        exact ⟨w, List.mem_cons_of_mem _ hw, hwz⟩

theorem exists_forall₂ {α β : Type} {R : α → β → Prop} {xs : List α} :
    (∃ ys, List.Forall₂ R xs ys) ↔ ∀ x ∈ xs, ∃ y, R x y := by
  induction xs with
  | nil => exact iff_of_true ⟨[], .nil⟩ fun _ hx => absurd hx List.not_mem_nil
  | cons x xs ih =>
      rw [List.forall_mem_cons, ← ih]
      constructor
      · rintro ⟨_, h⟩
        obtain ⟨y, ys, hy, hys, -⟩ := List.forall₂_cons_left_iff.mp h
        exact ⟨⟨y, hy⟩, ys, hys⟩
      · rintro ⟨⟨y, hy⟩, ys, hys⟩
        exact ⟨y :: ys, .cons hy hys⟩

/-- The incident that is made of an entry of the dict. -/
def Presents (score : List Object → Except Exc ρ) (e : Json × Group) (x : Json × Incident ρ) : Prop :=
  ∃ r, score e.2.groupAlerts = .ok r ∧ x = (e.1, present e.1 e.2 r)

theorem synthesizeBySource_eq_ok {alerts : List Object} (h : ∀ a ∈ alerts, FromApi a)
    {incidents : List (Json × Incident ρ)} :
    synthesizeBySource rt score now alerts = .ok incidents ↔
      List.Forall₂ (Presents score) (groups rt now alerts).entries incidents := by
  have hrun : synthesizeBySource rt score now alerts = (groups rt now alerts).entries.mapM fun e =>
      score e.2.groupAlerts >>= fun r => pure (e.1, present e.1 e.2 r) := by
    rw [synthesizeBySource, foldlM_addAlert h]
    rfl
  have hone : ∀ (e : Json × Group) (x : Json × Incident ρ),
      (score e.2.groupAlerts >>= fun r => pure (e.1, present e.1 e.2 r)) = .ok x ↔ Presents score e x := by
    intro e x
    unfold Presents
    cases score e.2.groupAlerts with
    | error err => exact iff_of_false nofun (by rintro ⟨_, hr, -⟩; cases hr)
    | ok r =>
        constructor
        · intro hx
          exact ⟨r, rfl, (Except.ok.inj hx).symm⟩
        · rintro ⟨_, hr, rfl⟩
          cases hr
          rfl
  rw [hrun, mapM_eq_ok]
  exact ⟨fun hall => hall.imp fun e x => (hone e x).mp, fun hall => hall.imp fun e x => (hone e x).mpr⟩

theorem synthesizeBySource_ok {alerts : List Object} (h : ∀ a ∈ alerts, FromApi a)
    {incidents : List (Json × Incident ρ)} (hok : synthesizeBySource rt score now alerts = .ok incidents) :
    (incidents.map Prod.fst).Nodup ∧
      (∀ src, src ∈ incidents.map Prod.fst ↔ ∃ a ∈ alerts, sourceOf a = src) ∧
      ∀ e ∈ incidents, IsIncidentOf rt score now alerts e.1 e.2 := by
  have hall := (synthesizeBySource_eq_ok h).mp hok
  have hsources : (groups rt now alerts).entries.map Prod.fst = incidents.map Prod.fst := by
    rw [← List.forall₂_eq_eq_eq, List.forall₂_map_left_iff, List.forall₂_map_right_iff]
    refine hall.imp ?_
    rintro x y ⟨r, -, rfl⟩
    rfl
  rw [← hsources]
  refine ⟨(groups rt now alerts).nodup, fun src => mem_groups_iff, fun e he => ?_⟩
  obtain ⟨⟨src, inc⟩, hinc, r, hr, rfl⟩ := exists_of_forall₂ hall e he
  have hcollected := groups_collected (Dict.get?_eq_some.mpr hinc)
  exact ⟨inc, r, hcollected, hcollected.groupAlerts ▸ hr, rfl⟩

section

variable {alerts : List Object} (h : ∀ a ∈ alerts, FromApi a) {incidents : List (Json × Incident ρ)}
  (hok : synthesizeBySource rt score now alerts = .ok incidents)
include h hok

theorem exists_incident {a : Object} (ha : a ∈ alerts) :
    ∃ i, (sourceOf a, i) ∈ incidents ∧ IsIncidentOf rt score now alerts (sourceOf a) i := by
  obtain ⟨-, hsources, hin⟩ := synthesizeBySource_ok h hok
  obtain ⟨⟨src, i⟩, hx, hsrc⟩ := List.mem_map.mp ((hsources _).mpr ⟨a, ha, rfl⟩)
  dsimp only at hsrc
  subst hsrc
  exact ⟨i, hx, hin _ hx⟩

theorem incident_cases {x : Json × Incident ρ} (hx : x ∈ incidents) :
    ∃ a ∈ alerts, x.1 = sourceOf a ∧ IsIncidentOf rt score now alerts (sourceOf a) x.2 := by
  obtain ⟨-, hsources, hin⟩ := synthesizeBySource_ok h hok
  obtain ⟨a, ha, hsrc⟩ := (hsources x.1).mp (List.mem_map_of_mem hx)
  exact ⟨a, ha, hsrc.symm, hsrc ▸ hin x hx⟩

end

/-- Only a risk score that raises stops the incidents. -/
theorem synthesizes_iff (rt : Runtime) (now : Json → String) {alerts : List Object} (h : ∀ a ∈ alerts, FromApi a) :
    (∃ incidents, synthesizeBySource rt score now alerts = .ok incidents) ↔
      ∀ a ∈ alerts, ∃ r, score (groupOf alerts (sourceOf a)) = .ok r := by
  simp only [synthesizeBySource_eq_ok h, exists_forall₂]
  constructor
  · intro hall a ha
    obtain ⟨⟨src, inc⟩, hinc, hsrc⟩ := List.mem_map.mp (mem_groups_iff.mpr ⟨a, ha, rfl⟩)
    dsimp only at hsrc
    subst hsrc
    obtain ⟨_, r, hr, -⟩ := hall _ hinc
    have hcollected := groups_collected (Dict.get?_eq_some.mpr hinc)
    exact ⟨r, hcollected.groupAlerts ▸ hr⟩
  · rintro hall ⟨src, inc⟩ hinc
    obtain ⟨a, ha, rfl⟩ := mem_groups_iff.mp (List.mem_map_of_mem hinc)
    obtain ⟨r, hr⟩ := hall a ha
    have hcollected := groups_collected (Dict.get?_eq_some.mpr hinc)
    exact ⟨_, r, by rw [hcollected.groupAlerts]; exact hr, rfl⟩

end NeuralSoc.Incidents
