import NeuralSoc.Base.IsoTime
import NeuralSoc.KillChain.Lemmas.Groups

/-!
# The kill chain as a chronological partition
-/

namespace NeuralSoc.KillChain

variable {rt : Runtime} {alerts : List Alert}

/-- Every alert is counted in the one phase of its key. -/
structure Partition (rt : Runtime) (alerts : List Alert) (phases : List Phase) : Prop where
  keys_nodup : (phases.map Phase.key).Nodup
  mem_keys : ∀ k, k ∈ phases.map Phase.key ↔ ∃ a ∈ alerts, a.key = k
  group_count : ∀ p ∈ phases, p.count = alerts.countP fun a => a.key = p.key
  count : (phases.map Phase.count).sum = alerts.length
  severity : ∀ p ∈ phases, ∃ a ∈ alerts, a.key = p.key ∧ a.severityText rt = p.severity
  least : ∀ p ∈ phases, ∀ a ∈ alerts, a.key = p.key → severityRank p.severity ≤ severityRank (a.severityText rt)

/-- `time` gives the times of the timestamps. -/
structure Chronological (time : Alert → UtcTime) (alerts : List Alert) (phases : List Phase) : Prop where
  start : ∀ p ∈ phases, ∃ first ∈ alerts, first.key = p.key ∧ p.startTime = some (time first).isoformat ∧
    ∀ a ∈ alerts, a.key = p.key → (time first).fields ≤ (time a).fields
  last : ∀ p ∈ phases, ∃ last ∈ alerts, last.key = p.key ∧ p.endTime = some (time last).isoformat ∧
    ∀ a ∈ alerts, a.key = p.key → (time a).fields ≤ (time last).fields
  order : phases.Pairwise fun p q => ∀ t u : UtcTime, p.startTime = some t.isoformat →
    q.startTime = some u.isoformat → t.fields ≤ u.fields

/-! ## Partition -/

theorem partition_buildKillChain (rt : Runtime) (alerts : List Alert) :
    Partition rt alerts (buildKillChain rt alerts) := by
  rw [buildKillChain_eq]
  have hmem : ∀ {a : Alert}, a ∈ ordered alerts ↔ a ∈ alerts := (perm_ordered alerts).mem_iff
  constructor
  · rw [map_key_values]
    exact (phasesOf rt (ordered alerts)).nodup
  · intro k
    rw [map_key_values, ← Dict.get?_isSome, Option.isSome_iff_ne_none, Ne, get?_phasesOf_eq_none]
    simp only [hmem, not_forall, Ne, not_not, exists_prop]
  · intro p hp
    rw [(mem_phases hp).count, group, ← List.countP_eq_length_filter]
    exact (perm_ordered alerts).countP_eq _
  · have hsum := sum_count rt (ordered alerts) .empty
    rw [(perm_ordered alerts).length_eq] at hsum
    exact hsum.trans (Nat.zero_add _)
  · intro p hp
    obtain ⟨a, ha, hsev⟩ := (mem_phases hp).severity
    obtain ⟨ha, hkey⟩ := mem_group.mp ha
    exact ⟨a, hmem.mp ha, hkey, hsev⟩
  · intro p hp a ha hkey
    exact (mem_phases hp).least a (mem_group.mpr ⟨hmem.mpr ha, hkey⟩)

/-! ## Chronology -/

theorem orText_isoformat (t : UtcTime) (default : String) : orText (some t.isoformat) default = t.isoformat := by
  refine if_neg fun hempty => ?_
  have hchars := congrArg String.toList hempty
  rw [UtcTime.isoformat, String.toList_ofList] at hchars
  simp at hchars

theorem sortKey_isoformat {time : Alert → UtcTime} {a : Alert} (h : a.timestamp = some (time a).isoformat) :
    a.sortKey = (time a).isoformat := by
  rw [Alert.sortKey, h, orText_isoformat]

theorem sortKey_head_le {xs : List Alert} (h : xs.Pairwise fun a b => a.sortKey ≤ b.sortKey) {first a : Alert}
    (hfirst : xs.head? = some first) (ha : a ∈ xs) : first.sortKey ≤ a.sortKey := by
  obtain ⟨rest, rfl⟩ := List.head?_eq_some_iff.mp hfirst
  rcases List.mem_cons.mp ha with rfl | hrest
  · exact le_rfl
  · exact (List.pairwise_cons.mp h).1 a hrest

theorem sortKey_le_last {xs : List Alert} (h : xs.Pairwise fun a b => a.sortKey ≤ b.sortKey) {last a : Alert}
    (hlast : xs.getLast? = some last) (ha : a ∈ xs) : a.sortKey ≤ last.sortKey := by
  obtain ⟨before, rfl⟩ := List.getLast?_eq_some_iff.mp hlast
  rcases List.mem_append.mp ha with hbefore | hself
  · exact (List.pairwise_append.mp h).2.2 a hbefore last List.mem_cons_self
  · rw [List.mem_singleton.mp hself]

theorem chronological_buildKillChain (rt : Runtime) {time : Alert → UtcTime}
    (htime : ∀ a ∈ alerts, a.timestamp = some (time a).isoformat) :
    Chronological time alerts (buildKillChain rt alerts) := by
  rw [buildKillChain_eq]
  have hmem : ∀ {a : Alert}, a ∈ ordered alerts ↔ a ∈ alerts := (perm_ordered alerts).mem_iff
  have hle : ∀ a ∈ alerts, ∀ b ∈ alerts, a.sortKey ≤ b.sortKey → (time a).fields ≤ (time b).fields := by
    intro a ha b hb h
    rwa [sortKey_isoformat (htime a ha), sortKey_isoformat (htime b hb), isoformat_le_iff] at h
  have hgroup : ∀ k, (group (ordered alerts) k).Pairwise fun a b => a.sortKey ≤ b.sortKey := fun k =>
    (sorted_ordered alerts).sublist List.filter_sublist
  constructor
  · intro p hp
    obtain ⟨first, hfirst, hstart⟩ := Option.map_eq_some_iff.mp (mem_phases hp).start
    obtain ⟨hin, hkey⟩ := mem_group.mp (List.mem_of_mem_head? hfirst)
    refine ⟨first, hmem.mp hin, hkey, by rw [← hstart, htime first (hmem.mp hin)], fun a ha hak => ?_⟩
    exact hle first (hmem.mp hin) a ha (sortKey_head_le (hgroup _) hfirst (mem_group.mpr ⟨hmem.mpr ha, hak⟩))
  · intro p hp
    obtain ⟨last, hlast, hend⟩ := Option.map_eq_some_iff.mp (mem_phases hp).last
    obtain ⟨hin, hkey⟩ := mem_group.mp (List.mem_of_getLast? hlast)
    refine ⟨last, hmem.mp hin, hkey, by rw [← hend, htime last (hmem.mp hin)], fun a ha hak => ?_⟩
    exact hle a ha last (hmem.mp hin) (sortKey_le_last (hgroup _) hlast (mem_group.mpr ⟨hmem.mpr ha, hak⟩))
  · refine (List.pairwise_map.mp (sorted_phases (sorted_ordered alerts)).1).imp ?_
    intro p q hpq t u ht hu
    rwa [Phase.sortKey, Phase.sortKey, ht, hu, orText_isoformat, orText_isoformat, isoformat_le_iff] at hpq

/-! ## The kill chain -/

/-- One phase for each key; in the order of the times where the timestamps are ISO texts; and the same in every
order of the alerts where the timestamps are different. -/
theorem kill_chain_faithful (rt : Runtime) (alerts : List Alert) :
    Partition rt alerts (buildKillChain rt alerts) ∧
      (∀ time : Alert → UtcTime, (∀ a ∈ alerts, a.timestamp = some (time a).isoformat) →
        Chronological time alerts (buildKillChain rt alerts)) ∧
      ((alerts.map Alert.sortKey).Nodup → ∀ others : List Alert, others.Perm alerts →
        buildKillChain rt others = buildKillChain rt alerts) := by
  refine ⟨partition_buildKillChain rt alerts, fun time htime => chronological_buildKillChain rt htime, ?_⟩
  intro hdistinct others hperm
  rw [buildKillChain_eq, buildKillChain_eq, ordered_of_perm hperm hdistinct]

end NeuralSoc.KillChain
