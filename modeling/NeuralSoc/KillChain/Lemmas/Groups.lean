import Mathlib.Data.List.Induction
import NeuralSoc.KillChain.Phases

/-!
# The phases of a chain

Each phase is the summary of the alerts of its key in the order of their timestamps, and the phases stand in
the order in which their keys first come.
-/

namespace NeuralSoc.KillChain

variable {rt : Runtime}

/-! ## One pass as a dict of groups -/

def step (rt : Runtime) : Option Phase → Alert → Phase
  | none, a => openPhase rt a
  | some p, a => p.extend rt a

/-- The phases of the alerts in their order. -/
def phasesOf (rt : Runtime) (xs : List Alert) : Dict Key Phase := Dict.accumulate Alert.key (step rt) xs .empty

theorem addAlert_phasesByKey (c : Chain) (a : Alert) :
    (addAlert rt c a).phasesByKey = c.phasesByKey.set a.key (step rt (c.phasesByKey.get? a.key) a) := by
  rw [addAlert]
  split
  · next h => rw [h, step]
  · next p h => rw [h, step]

theorem addAlert_order {c : Chain} (h : c.order = c.phasesByKey.entries.map Prod.fst) (a : Alert) :
    (addAlert rt c a).order = (addAlert rt c a).phasesByKey.entries.map Prod.fst := by
  rw [addAlert]
  split
  · next hnone =>
      rw [Dict.set_of_none hnone, List.map_append, ← h]
      rfl
  · next p hsome =>
      rw [Dict.set_of_some hsome, Dict.map_fst_overwrite]
      exact h

theorem foldl_addAlert (rt : Runtime) (xs : List Alert) (c : Chain)
    (h : c.order = c.phasesByKey.entries.map Prod.fst) :
    (xs.foldl (addAlert rt) c).phasesByKey = Dict.accumulate Alert.key (step rt) xs c.phasesByKey ∧
      (xs.foldl (addAlert rt) c).order = (xs.foldl (addAlert rt) c).phasesByKey.entries.map Prod.fst := by
  induction xs generalizing c with
  | nil => exact ⟨rfl, h⟩
  | cons a xs ih =>
      obtain ⟨hphases, horder⟩ := ih (addAlert rt c a) (addAlert_order h a)
      refine ⟨?_, horder⟩
      rw [List.foldl_cons, hphases, addAlert_phasesByKey]
      rfl

theorem buildKillChain_eq (alerts : List Alert) : buildKillChain rt alerts = (phasesOf rt (ordered alerts)).values := by
  obtain ⟨hphases, horder⟩ := foldl_addAlert rt (ordered alerts) ⟨.empty, []⟩ rfl
  unfold buildKillChain
  dsimp only
  rw [horder, hphases, Dict.filterMap_get?]
  rfl

/-! ## One group -/

/-- A phase and the alerts that went into it. -/
structure Summary (rt : Runtime) (g : List Alert) (p : Phase) : Prop where
  start : g.head?.map Alert.timestamp = some p.startTime
  last : g.getLast?.map Alert.timestamp = some p.endTime
  count : p.count = g.length
  severity : ∃ a ∈ g, a.severityText rt = p.severity
  least : ∀ a ∈ g, severityRank p.severity ≤ severityRank (a.severityText rt)

theorem summary_open (a : Alert) : Summary rt [a] (openPhase rt a) where
  start := rfl
  last := rfl
  count := rfl
  severity := ⟨a, List.mem_singleton_self a, rfl⟩
  least b hb := by rw [List.mem_singleton.mp hb]; exact le_rfl

theorem summary_extend {g : List Alert} {p : Phase} (h : Summary rt g p) (a : Alert) :
    Summary rt (g ++ [a]) (p.extend rt a) where
  start := by
    obtain ⟨b, hb, hstart⟩ := Option.map_eq_some_iff.mp h.start
    rw [List.head?_append, hb]
    exact congrArg some hstart
  last := by
    rw [List.getLast?_append]
    rfl
  count := by
    rw [List.length_append, ← h.count]
    rfl
  severity := by
    obtain ⟨b, hb, hsev⟩ := h.severity
    by_cases hlt : severityRank (a.severityText rt) < severityRank p.severity
    · exact ⟨a, List.mem_append_right g List.mem_cons_self, (if_pos hlt).symm⟩
    · exact ⟨b, List.mem_append_left [a] hb, hsev.trans (if_neg hlt).symm⟩
  least b hb := by
    have hnew : severityRank (p.extend rt a).severity ≤ severityRank (a.severityText rt) ∧
        severityRank (p.extend rt a).severity ≤ severityRank p.severity := by
      rw [Phase.extend]
      dsimp only
      split
      · next hlt => exact ⟨le_rfl, hlt.le⟩
      · next hlt => exact ⟨not_lt.mp hlt, le_rfl⟩
    rcases List.mem_append.mp hb with hb | hb
    · exact hnew.2.trans (h.least b hb)
    · rw [List.mem_singleton.mp hb]
      exact hnew.1

/-- The value of a key after the alerts of its group. -/
theorem group_summary (rt : Runtime) {k : Key} {g : List Alert} (hkey : ∀ a ∈ g, a.key = k) :
    match g.foldl (fun v a => some (step rt v a)) none with
    | none => g = []
    | some p => p.key = k ∧ Summary rt g p := by
  induction g using List.reverseRecOn with
  | nil => rfl
  | append_singleton g a ih =>
      have hbefore := ih fun b hb => hkey b (List.mem_append_left [a] hb)
      rw [List.foldl_append, List.foldl_cons, List.foldl_nil]
      cases hfold : g.foldl (fun v a => some (step rt v a)) none with
      | none =>
          rw [hfold] at hbefore
          obtain rfl : g = [] := hbefore
          exact ⟨hkey a List.mem_cons_self, summary_open a⟩
      | some p =>
          rw [hfold] at hbefore
          exact ⟨hbefore.1, summary_extend hbefore.2 a⟩

def group (xs : List Alert) (k : Key) : List Alert := xs.filter fun a => a.key = k

theorem mem_group {xs : List Alert} {k : Key} {a : Alert} : a ∈ group xs k ↔ a ∈ xs ∧ a.key = k := by
  rw [group, List.mem_filter, decide_eq_true_eq]

theorem get?_phasesOf {xs : List Alert} {k : Key} {p : Phase} (h : (phasesOf rt xs).get? k = some p) :
    p.key = k ∧ Summary rt (group xs k) p := by
  have hsummary := group_summary rt fun a (ha : a ∈ group xs k) => (mem_group.mp ha).2
  rw [phasesOf, Dict.get?_accumulate, Dict.get?_empty] at h
  rw [group, h] at hsummary
  exact hsummary

theorem get?_phasesOf_eq_none {xs : List Alert} {k : Key} :
    (phasesOf rt xs).get? k = none ↔ ∀ a ∈ xs, a.key ≠ k := by
  have hsummary := group_summary rt fun a (ha : a ∈ group xs k) => (mem_group.mp ha).2
  rw [phasesOf, Dict.get?_accumulate, Dict.get?_empty]
  have hempty : group xs k = [] ↔ ∀ a ∈ xs, a.key ≠ k := by
    rw [group, List.filter_eq_nil_iff]
    simp only [decide_eq_true_eq, Ne]
  rw [← hempty]
  change (group xs k).foldl (fun v a => some (step rt v a)) none = none ↔ _
  cases hfold : (group xs k).foldl (fun v a => some (step rt v a)) none with
  | none =>
      rw [hfold] at hsummary
      exact iff_of_true rfl hsummary
  | some p =>
      rw [hfold] at hsummary
      refine iff_of_false nofun fun hnil => ?_
      have hstart := hsummary.2.start
      rw [hnil] at hstart
      cases hstart

theorem mem_phases {xs : List Alert} {p : Phase} (h : p ∈ (phasesOf rt xs).values) :
    Summary rt (group xs p.key) p := by
  obtain ⟨k, hk⟩ := Dict.mem_values.mp h
  obtain ⟨hkey, hsummary⟩ := get?_phasesOf hk
  rwa [hkey]

/-! ## All groups -/

theorem map_key_values (xs : List Alert) :
    (phasesOf rt xs).values.map Phase.key = (phasesOf rt xs).entries.map Prod.fst := by
  rw [Dict.values, List.map_map]
  apply List.map_congr_left
  rintro ⟨k, p⟩ he
  exact (get?_phasesOf (Dict.get?_eq_some.mpr he)).1

theorem sum_count (rt : Runtime) (xs : List Alert) (d : Dict Key Phase) :
    (Dict.accumulate Alert.key (step rt) xs d).sum Phase.count = d.sum Phase.count + xs.length := by
  induction xs generalizing d with
  | nil => rfl
  | cons a xs ih =>
      have hset := d.sum_set Phase.count a.key (step rt (d.get? a.key) a)
      have hone : (step rt (d.get? a.key) a).count = (d.get? a.key).elim 0 Phase.count + 1 := by
        cases d.get? a.key <;> rfl
      have hrest := ih (d.set a.key (step rt (d.get? a.key) a))
      rw [Dict.accumulate, List.foldl_cons]
      rw [Dict.accumulate] at hrest
      rw [hrest, List.length_cons]
      omega

/-! ## The order of the phases -/

def Phase.sortKey (p : Phase) : String := orText p.startTime ""

theorem accumulate_concat (xs : List Alert) (a : Alert) :
    phasesOf rt (xs ++ [a]) = (phasesOf rt xs).set a.key (step rt ((phasesOf rt xs).get? a.key) a) := by
  rw [phasesOf, Dict.accumulate, List.foldl_append]
  rfl

theorem sorted_phases {xs : List Alert} (h : xs.Pairwise fun a b => a.sortKey ≤ b.sortKey) :
    ((phasesOf rt xs).values.map Phase.sortKey).Pairwise (· ≤ ·) ∧
      ∀ s ∈ (phasesOf rt xs).values.map Phase.sortKey, ∃ a ∈ xs, a.sortKey = s := by
  induction xs using List.reverseRecOn with
  | nil => exact ⟨List.Pairwise.nil, nofun⟩
  | append_singleton xs a ih =>
      obtain ⟨hxs, -, hlast⟩ := List.pairwise_append.mp h
      obtain ⟨hsorted, hstarts⟩ := ih hxs
      rw [accumulate_concat]
      cases hget : (phasesOf rt xs).get? a.key with
      | some p =>
          have hstart : (step rt (some p) a).sortKey = p.sortKey := rfl
          rw [Dict.map_values_set_of_some hget hstart]
          refine ⟨hsorted, fun s hs => ?_⟩
          obtain ⟨b, hb, hbs⟩ := hstarts s hs
          exact ⟨b, List.mem_append_left [a] hb, hbs⟩
      | none =>
          rw [Dict.values_set_of_none hget, List.map_append]
          constructor
          · refine List.pairwise_append.mpr ⟨hsorted, List.pairwise_singleton _ _, ?_⟩
            intro s hs s' hs'
            obtain ⟨b, hb, rfl⟩ := hstarts s hs
            obtain rfl := List.mem_singleton.mp hs'
            exact hlast b hb a List.mem_cons_self
          · intro s hs
            rcases List.mem_append.mp hs with hs | hs
            · obtain ⟨b, hb, hbs⟩ := hstarts s hs
              exact ⟨b, List.mem_append_left [a] hb, hbs⟩
            · obtain rfl := List.mem_singleton.mp hs
              exact ⟨a, List.mem_append_right xs List.mem_cons_self, rfl⟩

/-! ## The sort -/

theorem perm_ordered (alerts : List Alert) : (ordered alerts).Perm alerts := List.mergeSort_perm ..

theorem sorted_ordered (alerts : List Alert) : (ordered alerts).Pairwise fun a b => a.sortKey ≤ b.sortKey := by
  refine (List.pairwise_mergeSort (fun a b c hab hbc => ?_) (fun a b => ?_) alerts).imp of_decide_eq_true
  · exact decide_eq_true ((of_decide_eq_true hab).trans (of_decide_eq_true hbc))
  · simpa using le_total a.sortKey b.sortKey

/-- With different timestamps only one order is sorted. -/
theorem ordered_of_perm {alerts others : List Alert} (hperm : others.Perm alerts)
    (h : (alerts.map Alert.sortKey).Nodup) : ordered others = ordered alerts := by
  have hsame : (ordered others).Perm (ordered alerts) :=
    (perm_ordered others).trans (hperm.trans (perm_ordered alerts).symm)
  refine hsame.eq_of_pairwise (fun a b ha hb hab hba => ?_) (sorted_ordered others) (sorted_ordered alerts)
  have hb' : b ∈ alerts := (perm_ordered alerts).mem_iff.mp hb
  have ha' : a ∈ alerts := hperm.mem_iff.mp ((perm_ordered others).mem_iff.mp ha)
  exact List.inj_on_of_nodup_map h ha' hb' (le_antisymm hab hba)

end NeuralSoc.KillChain
