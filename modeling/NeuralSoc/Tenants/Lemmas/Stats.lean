import NeuralSoc.Tenants.Lemmas.Isolation
import Mathlib.Algebra.BigOperators.Group.List.Lemmas

/-! # The groups of `get_stats`. -/

namespace NeuralSoc.Tenants

open Api Handler

variable {db : Database} (p : Platform)

/-- The alerts in all, and those whose severity is one of the four words but for its capitals. -/
def exactStats (rows : List (ℕ × Alert)) : BackendResponse :=
  let counted (word : String) := rows.countP fun e => e.2.severity.map p.lower = some word
  .stats rows.length (counted "critical") (counted "high") (counted "medium") (counted "low")

/-- The severities that stand under one name are one. -/
def NamesApart (rows : List (ℕ × Alert)) : Prop :=
  ∀ x ∈ rows, ∀ y ∈ rows, severityName p x.2.severity = severityName p y.2.severity →
    x.2.severity = y.2.severity

variable {p}

/-- The caller passes the scope check and the rate limiter. -/
theorem getStats_answer {env : Env} {credentials : Option Token} {s : Backend db} {principal : Principal}
    (hscope : (requireScope env "stats:read" credentials s.world).1 = .ok principal)
    (hfree : env.limited = false) :
    (getStats p env credentials s).1 =
      let severities := severityMap p db
        (scopeToTenant principal (fun a => some a.tenantId) s.alerts.rows.entries)
      .ok (.stats severities.values.sum ((severities.get? "critical").getD 0)
        ((severities.get? "high").getD 0) ((severities.get? "medium").getD 0)
        ((severities.get? "low").getD 0)) := by
  obtain ⟨r, hr⟩ := requireScope_run env "stats:read" credentials s.world
  rw [hr] at hscope
  dsimp only at hscope
  subst hscope
  rw [getStats, bind_run_ok (onWorld_run hr), hfree, ensure_bind_run, Bool.not_false, if_pos rfl, get_bind_run]
  rfl

theorem severityName_eq {severity : Option String} {word : String} (hempty : p.lower "" = "")
    (hword : word ≠ "unknown") (hne : word ≠ "") :
    severityName p severity = word ↔ severity.map p.lower = some word := by
  cases severity with
  | none => simp [severityName, hword.symm]
  | some s =>
      rw [severityName, Option.map_some, Option.some.injEq]
      split
      · next hs =>
          rw [hs, hempty]
          exact iff_of_false hword.symm hne.symm
      · rfl

section Groups

/-- The severities of the groups count all rows together. -/
theorem sum_counts {α : Type} [DecidableEq α] [b : BEq α] [LawfulBEq α] (xs : List α) :
    (xs.dedup.map fun x => xs.count x).sum = xs.length := by
  obtain rfl : b = instBEqOfDecidableEq := lawful_beq_subsingleton _ _
  exact List.sum_map_count_dedup_eq_length xs

variable (horder : ∀ groups, (db.groupOrder groups).Perm groups) {rows : List (ℕ × Alert)}
include horder

theorem mem_groupOrder {severity : Option String} :
    severity ∈ db.groupOrder (rows.map fun e => e.2.severity).dedup ↔ ∃ e ∈ rows, e.2.severity = severity := by
  rw [(horder _).mem_iff, List.mem_dedup, List.mem_map]

/-- The groups have different names. -/
theorem nodup_names_iff :
    ((db.groupOrder (rows.map fun e => e.2.severity).dedup).map (severityName p)).Nodup ↔ NamesApart p rows := by
  have hgroups : (db.groupOrder (rows.map fun e => e.2.severity).dedup).Nodup :=
    (horder _).nodup_iff.mpr (List.nodup_dedup _)
  rw [List.nodup_map_iff_inj_on hgroups]
  simp only [mem_groupOrder horder]
  constructor
  · exact fun h x hx y hy hname => h _ ⟨x, hx, rfl⟩ _ ⟨y, hy, rfl⟩ hname
  · rintro h _ ⟨x, hx, rfl⟩ _ ⟨y, hy, rfl⟩ hname
    exact h x hx y hy hname

theorem sum_severityMap_iff :
    (severityMap p db rows).values.sum = rows.length ↔ NamesApart p rows := by
  set severities := rows.map fun e => e.2.severity with hseverities
  have hgroups := horder severities.dedup
  have hsum : ((db.groupOrder severities.dedup).map fun x => severities.count x).sum = rows.length := by
    rw [(hgroups.map _).sum_eq, sum_counts, hseverities, List.length_map]
  have hpos : ∀ x ∈ db.groupOrder severities.dedup, 0 < id (severities.count x) := fun x hx =>
    List.count_pos_iff.mpr (List.mem_dedup.mp (hgroups.mem_iff.mp hx))
  have hfill := @Dict.sum_fill_eq_iff String ℕ _ _ (severityName p) (fun x => severities.count x) id _ hpos .empty
    fun _ _ h => by cases h
  have hvalues : (severityMap p db rows).values.sum = Dict.sum id (severityMap p db rows) := by
    rw [Dict.sum, List.map_id]
  have hempty : Dict.sum id (.empty : Dict String ℕ) = 0 := rfl
  simp only [id_eq] at hfill
  rw [hempty, zero_add, hsum, nodup_names_iff horder] at hfill
  rw [hvalues]
  exact hfill.trans (and_iff_left fun _ _ => rfl)

theorem get?_severityMap (h : NamesApart p rows) (word : String) :
    ((severityMap p db rows).get? word).getD 0 =
      rows.countP fun e => severityName p e.2.severity = word := by
  have hnames := (nodup_names_iff horder).mpr h
  by_cases hword : ∃ e ∈ rows, severityName p e.2.severity = word
  · obtain ⟨e, he, rfl⟩ := hword
    have hget := @Dict.get?_fill String ℕ _ _ _ (fun x => (rows.map fun e => e.2.severity).count x) _ hnames _
      ((mem_groupOrder horder).mpr ⟨e, he, rfl⟩) .empty
    have hmap : (severityMap p db rows).get? (severityName p e.2.severity) =
        some ((rows.map fun e => e.2.severity).count e.2.severity) := hget
    rw [hmap, Option.getD_some, List.count, List.countP_map]
    refine List.countP_congr fun x hx => ?_
    simp only [Function.comp_apply, beq_iff_eq, decide_eq_true_eq]
    exact ⟨fun hsame => by rw [hsame], fun hname => h x hx e he hname⟩
  · have hnone : (severityMap p db rows).get? word = none := by
      refine (Dict.get?_fill_of_not_mem ?_ _).trans (Dict.get?_empty _)
      intro hmem
      obtain ⟨severity, hsev, hname⟩ := List.mem_map.mp hmem
      obtain ⟨e, he, rfl⟩ := (mem_groupOrder horder).mp hsev
      exact hword ⟨e, he, hname⟩
    rw [hnone, Option.getD_none, eq_comm, List.countP_eq_zero]
    exact fun e he hname => hword ⟨e, he, by simpa using hname⟩

end Groups

end NeuralSoc.Tenants
