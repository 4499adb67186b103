import NeuralSoc.Base.Runs
import NeuralSoc.Correlation.Lemmas.Scripts
import Mathlib.Data.List.TakeDrop

/-!
# ROLLBACK against CORRELATE

`Agree` compares what the claims about compensation are about: the list, the ids and the count. The
dedup keys and the scores are left out. A pending alert is carried through other alerts by the
invariant that rolling it back now would give the state it was never added to.
-/

namespace NeuralSoc.Correlation

variable {τ : Type*}

structure Agree (k k' : Keys τ) : Prop where
  alerts : k.alerts = k'.alerts
  seen : ∀ x, x ∈ k.seen ↔ x ∈ k'.seen
  cnt : number k.cnt = number k'.cnt

theorem Agree.symm {k k' : Keys τ} (h : Agree k k') : Agree k' k :=
  ⟨h.alerts.symm, fun x => (h.seen x).symm, h.cnt.symm⟩

theorem Agree.trans {k₁ k₂ k₃ : Keys τ} (h : Agree k₁ k₂) (h' : Agree k₂ k₃) : Agree k₁ k₃ :=
  ⟨h.alerts.trans h'.alerts, fun x => (h.seen x).trans (h'.seen x), h.cnt.trans h'.cnt⟩

theorem refused_congr {b : CorrelateArgs τ} {k k' : Keys τ}
    (h : b.alertId ∈ k.seen ↔ b.alertId ∈ k'.seen) : refused b k = refused b k' := by
  rw [Bool.eq_iff_iff, refused_iff, refused_iff, h]

/-! ## Scripts that exceed no cap -/

/-- Neither cap is exceeded by the script, before anything is trimmed. -/
def Fits (k : Keys τ) : Call τ → Prop
  | .correlate b => refused b k = true ∨ k.alerts.length + 1 ≤ maxKept ∧
      (b.alertId ≠ "" → (k.seen.zadd k.seen.zcard b.alertId).zcard ≤ maxSeen)
  | .rollback _ => True

theorem mem_admitSeen_of_room {id x : String} {seen : SortedSet ℕ String}
    (hroom : id ≠ "" → (seen.zadd seen.zcard id).zcard ≤ maxSeen) :
    x ∈ admitSeen id seen ↔ id ≠ "" ∧ x = id ∨ x ∈ seen := by
  unfold admitSeen
  split
  · rename_i hid; simp [hid]
  · rename_i hid
    have hle := hroom hid
    simp only [not_lt.mpr hle, ↓reduceIte, SortedSet.mem_zadd, ne_eq, hid, not_false_eq_true, true_and]

theorem Fits.of_smaller {b : CorrelateArgs τ} {k k' : Keys τ} (h : Fits k (.correlate b))
    (hadm : refused b k = false) (hlen : k'.alerts.length ≤ k.alerts.length)
    (hsub : ∀ x, x ∈ k'.seen → x ∈ k.seen) : Fits k' (.correlate b) := by
  rcases h with h | ⟨hl, hs⟩
  · simp [hadm] at h
  · refine Or.inr ⟨by omega, fun hid => Nat.le_trans ?_ (hs hid)⟩
    apply SortedSet.zcard_le_of_subset
    intro x hx
    rw [SortedSet.mem_zadd] at hx ⊢
    exact hx.imp_right (hsub x)

theorem correlate_of_fits {b : CorrelateArgs τ} {k : Keys τ} (h : Fits k (.correlate b))
    (hadm : refused b k = false) :
    (correlate b k).2.alerts = b.alertJson :: k.alerts ∧
    (∀ x, x ∈ (correlate b k).2.seen ↔ b.alertId ≠ "" ∧ x = b.alertId ∨ x ∈ k.seen) ∧
    number (correlate b k).2.cnt = number k.cnt + 1 := by
  rcases h with h | ⟨hl, hs⟩
  · simp [hadm] at h
  · refine ⟨?_, fun x => ?_, ?_⟩
    · rw [correlate_alerts hadm, List.take_of_length_le]
      simpa using hl
    · rw [correlate_seen hadm, mem_admitSeen_of_room hs]
    · rw [correlate_cnt hadm, number_some]

/-! ## The pending alert -/

structure Gone (r : RollbackArgs τ) (k : Keys τ) : Prop where
  seen : r.alertId ∉ k.seen
  alerts : r.alertJson ∉ k.alerts

variable {r : RollbackArgs τ} {b : CorrelateArgs τ} {k k' : Keys τ}

theorem Gone.correlate (hg : Gone r k) (hjson : b.alertJson ≠ r.alertJson)
    (hne : b.alertId ≠ r.alertId) (hfits : Fits k (.correlate b)) : Gone r (correlate b k).2 := by
  cases hadm : refused b k with
  | true => rw [correlate_of_refused hadm]; exact hg
  | false =>
      obtain ⟨ha, hs, -⟩ := correlate_of_fits hfits hadm
      constructor
      · rw [hs]
        exact fun h => h.elim (fun h => hne h.2.symm) hg.seen
      · rw [ha, List.mem_cons]
        exact fun h => h.elim (fun h => hjson h.symm) hg.alerts

variable [DecidableEq τ]

/-- `r` can be rolled back once, and its entry is counted. -/
structure Pending (r : RollbackArgs τ) (k : Keys τ) : Prop where
  once : r.alertJson ∉ k.alerts.erase r.alertJson
  counted : r.alertJson ∈ k.alerts → 1 ≤ number k.cnt

theorem rollback_alerts : (rollback r k).alerts = k.alerts.erase r.alertJson := rfl

theorem number_rollback :
    number (rollback r k).cnt = if r.alertJson ∈ k.alerts then number k.cnt - 1 else number k.cnt := by
  simp only [rollback]
  split
  · exact number_decrement _
  · rfl

theorem Gone.agree (h : Gone r k) : Agree (rollback r k) k := by
  obtain ⟨hs, ha, hc⟩ := rollback_of_absent h.seen h.alerts
  exact ⟨ha, fun x => by rw [hs], by rw [hc]⟩

theorem Pending.gone (h : Pending r k) (hid : r.alertId ≠ "") : Gone r (rollback r k) :=
  ⟨fun hx => ((mem_rollback_seen hid).mp hx).2 rfl, h.once⟩

theorem Gone.pending (h : Gone r k) : Pending r k :=
  ⟨fun hx => h.alerts (List.mem_of_mem_erase hx), fun hx => absurd hx h.alerts⟩

/-- Adding another alert commutes with rolling `r` back. -/
theorem agree_correlate (hfits : Fits k (.correlate b)) (hagree : Agree (rollback r k) k')
    (hp : Pending r k) (hid : r.alertId ≠ "") (hjson : b.alertJson ≠ r.alertJson)
    (hne : b.alertId ≠ r.alertId) :
    Agree (rollback r (correlate b k).2) (correlate b k').2 := by
  have hmem : b.alertId ∈ k.seen ↔ b.alertId ∈ k'.seen := by
    rw [← hagree.seen, mem_rollback_seen hid]; simp [hne]
  have href := refused_congr hmem
  cases hadm : refused b k with
  | true =>
      rw [correlate_of_refused hadm, correlate_of_refused (href ▸ hadm)]
      exact hagree
  | false =>
      have hlen : k'.alerts.length ≤ k.alerts.length := by
        rw [← hagree.alerts]; exact List.erase_sublist.length_le
      have hsub : ∀ x, x ∈ k'.seen → x ∈ k.seen := fun x hx =>
        ((mem_rollback_seen hid).mp ((hagree.seen x).mpr hx)).1
      have hfits' := hfits.of_smaller hadm hlen hsub
      obtain ⟨ha, hs, hc⟩ := correlate_of_fits hfits hadm
      obtain ⟨ha', hs', hc'⟩ := correlate_of_fits hfits' (href ▸ hadm)
      refine ⟨?_, fun x => ?_, ?_⟩
      · rw [rollback_alerts, ha, ha', List.erase_cons_tail (by simpa using hjson), ← hagree.alerts]
        rfl
      · have hx := hagree.seen x
        rw [mem_rollback_seen hid] at hx ⊢
        rw [hs, hs', ← hx]
        have hne' : b.alertId ≠ "" ∧ x = b.alertId → x ≠ r.alertId := fun h => h.2 ▸ hne
        rw [or_and_right, and_iff_left_of_imp hne']
      · have hcnt := hagree.cnt
        rw [number_rollback] at hcnt ⊢
        rw [ha, hc, hc', ← hcnt]
        simp only [List.mem_cons, hjson.symm, false_or]
        split
        · have := hp.counted ‹_›; omega
        · rfl

theorem Pending.correlate (hp : Pending r k) (hjson : b.alertJson ≠ r.alertJson)
    (hfits : Fits k (.correlate b)) : Pending r (correlate b k).2 := by
  cases hadm : refused b k with
  | true => rw [correlate_of_refused hadm]; exact hp
  | false =>
      obtain ⟨ha, -, hc⟩ := correlate_of_fits hfits hadm
      refine ⟨?_, fun _ => by omega⟩
      rw [ha, List.erase_cons_tail (by simpa using hjson), List.mem_cons]
      exact fun h => h.elim (fun h => hjson h.symm) hp.once

/-! ## Runs -/

/-- A step of a run around `r`: another alert, or a rollback of `r`. -/
def Around (r : RollbackArgs τ) (c : Call τ) : Prop :=
  c = .rollback r ∨ ∃ b, c = .correlate b ∧ b.alertJson ≠ r.alertJson ∧ b.alertId ≠ r.alertId

def without : List (Call τ) → List (Call τ)
  | [] => []
  | .correlate b :: cs => .correlate b :: without cs
  | .rollback _ :: cs => without cs

theorem agree_run (hid : r.alertId ≠ "") (cs : List (Call τ)) (haround : ∀ c ∈ cs, Around r c)
    (hfits : Each exec Fits k cs) (hagree : Agree (rollback r k) k') (hp : Pending r k) :
    Agree (rollback r (cs.foldl exec k)) ((without cs).foldl exec k') := by
  induction cs generalizing k k' with
  | nil => exact hagree
  | cons c cs ih =>
      have hrest : ∀ c ∈ cs, Around r c := fun c hc => haround c (List.mem_cons_of_mem _ hc)
      obtain ⟨hfit, hfits⟩ := hfits
      rcases haround c List.mem_cons_self with rfl | ⟨b, rfl, hjson, hne⟩
      · have hg := hp.gone hid
        exact ih hrest hfits (hg.agree.trans hagree) hg.pending
      · exact ih hrest hfits (agree_correlate hfit hagree hp hid hjson hne) (hp.correlate hjson hfit)

theorem gone_run (hid : r.alertId ≠ "") (cs : List (Call τ)) (haround : ∀ c ∈ cs, Around r c)
    (hfits : Each exec Fits k cs) (hp : Pending r k) (h : Gone r k ∨ .rollback r ∈ cs) :
    Gone r (cs.foldl exec k) := by
  induction cs generalizing k with
  | nil => simpa using h
  | cons c cs ih =>
      have hrest : ∀ c ∈ cs, Around r c := fun c hc => haround c (List.mem_cons_of_mem _ hc)
      obtain ⟨hfit, hfits⟩ := hfits
      rcases haround c List.mem_cons_self with rfl | ⟨b, rfl, hjson, hne⟩
      · have hg := hp.gone hid
        exact ih hrest hfits hg.pending (Or.inl hg)
      · have hp' := hp.correlate hjson hfit
        refine ih hrest hfits hp' ?_
        rcases h with hg | hmem
        · exact Or.inl (hg.correlate hjson hne hfit)
        · exact Or.inr (by simpa using hmem)

/-- A fresh alert that fits is pending, and rolling it back gives the state before it. -/
theorem pending_of_fresh (hfits : Fits k (.correlate b)) (hr : r.alertJson = b.alertJson)
    (hri : r.alertId = b.alertId) (hid : r.alertId ≠ "") (hseen : b.alertId ∉ k.seen)
    (hjson : b.alertJson ∉ k.alerts) :
    Pending r (correlate b k).2 ∧ Agree (rollback r (correlate b k).2) k := by
  obtain ⟨ha, hs, hc⟩ := correlate_of_fits hfits (admitted_of_not_mem hseen)
  refine ⟨⟨?_, fun _ => by omega⟩, ⟨?_, fun x => ?_, ?_⟩⟩
  · simpa [ha, hr] using hjson
  · simp [rollback_alerts, ha, hr]
  · rw [mem_rollback_seen hid, hs, hri]
    have hne : x ∈ k.seen → x ≠ b.alertId := fun hx he => hseen (he ▸ hx)
    rw [or_and_right, and_iff_left_of_imp hne]
    exact or_iff_right fun h => h.2 h.1.2
  · simp [number_rollback, ha, hc, hr]

/-! ## Two scripts in either order -/

/-- What the two scripts do to the seen set leaves it as it was. `rid` is the id as ROLLBACK gets it. -/
def IdComesOut (id rid : String) (seen : SortedSet ℕ String) : Prop :=
  id = "" ∨
  seen.zcard < maxSeen ∧ rid = id ∨
  maxSeen ≤ seen.zcard ∧ (rid = "" ∨ rid ∉ seen) ∧
    ∀ x m, x ≠ id → seen.zscore x = some m → toLex (seen.zcard, id) ≤ toLex (m, x)

theorem mem_zrem_nonempty {rid x : String} {seen : SortedSet ℕ String} :
    x ∈ (if rid = "" then seen else seen.zrem rid) ↔ x ∈ seen ∧ (rid = "" ∨ x ≠ rid) := by
  split
  · rename_i h; simp [h]
  · rename_i h; rw [SortedSet.mem_zrem]; simp [h]

theorem idComesOut_iff {id rid : String} {seen : SortedSet ℕ String} (hrid : id = "" → rid = "")
    (hid : id ∉ seen) :
    (∀ x, x ∈ (if rid = "" then admitSeen id seen else (admitSeen id seen).zrem rid) ↔ x ∈ seen) ↔
      IdComesOut id rid seen := by
  simp only [mem_zrem_nonempty]
  by_cases hne : id = ""
  · simp [IdComesOut, hne, hrid hne, admitSeen_empty]
  rcases Nat.lt_or_ge seen.zcard maxSeen with hlt | hge
  · rw [admitSeen_of_room hne hid hlt]
    simp only [SortedSet.mem_zadd, IdComesOut, hne, hlt, not_le.mpr hlt, false_or, true_and,
      false_and, or_false]
    constructor
    · intro h
      have hx := h id
      simp only [true_or, true_and, hid, iff_false, not_or, not_not] at hx
      exact hx.2.symm
    · rintro rfl x
      have hx : x ∈ seen → x ≠ rid := fun hx he => hid (he ▸ hx)
      tauto
  · rw [admitSeen_of_full hne hid hge]
    simp only [SortedSet.mem_popMin, SortedSet.mem_zadd, IdComesOut, hne, not_lt.mpr hge, hge,
      false_or, false_and, true_and, ← SortedSet.first?_zadd_self]
    constructor
    · intro h
      obtain ⟨p, hp⟩ := SortedSet.exists_first? (SortedSet.mem_zadd.mpr (Or.inl rfl) :
        id ∈ seen.zadd seen.zcard id)
      have hpid : p = id := by
        by_contra hpne
        have hps := (SortedSet.mem_zadd.mp (SortedSet.first?_mem hp)).resolve_left hpne
        exact ((h p).mpr hps).1.2 hp
      refine ⟨?_, hpid ▸ hp⟩
      by_cases hr : rid = ""
      · exact Or.inl hr
      · exact Or.inr fun hmem => (((h rid).mpr hmem).2.resolve_left hr) rfl
    · rintro ⟨hr, hfirst⟩ x
      rw [hfirst]
      have hx : x ∈ seen → x ≠ id := fun hx he => hid (he ▸ hx)
      have hxr : x ∈ seen → rid = "" ∨ x ≠ rid := fun hx =>
        hr.imp_right fun hr he => hr (he ▸ hx)
      simp only [Option.some.injEq, ne_eq, eq_comm (a := id)]
      constructor
      · rintro ⟨⟨heq | hmem, hne⟩, -⟩
        · exact absurd heq hne
        · exact hmem
      · exact fun h => ⟨⟨.inr h, hx h⟩, hxr h⟩

theorem take_erase_eq_iff {x : τ} {xs : List τ} :
    ((x :: xs).take maxKept).erase x = xs ↔ xs.length < maxKept := by
  rw [show maxKept = 99 + 1 from rfl, List.take_succ_cons, List.erase_cons_head,
    List.take_eq_self_iff]
  omega

theorem agree_correlate_rollback_iff (hr : r.alertJson = b.alertJson)
    (hrid : b.alertId = "" → r.alertId = "") (hseen : b.alertId ∉ k.seen) :
    Agree (rollback r (correlate b k).2) k ↔
      k.alerts.length < maxKept ∧ IdComesOut b.alertId r.alertId k.seen := by
  have hadm := admitted_of_not_mem hseen
  have halerts : (rollback r (correlate b k).2).alerts = k.alerts ↔ k.alerts.length < maxKept := by
    rw [rollback_alerts, correlate_alerts hadm, hr]
    exact take_erase_eq_iff
  have hset : (∀ x, x ∈ (rollback r (correlate b k).2).seen ↔ x ∈ k.seen) ↔
      IdComesOut b.alertId r.alertId k.seen := by
    rw [← idComesOut_iff hrid hseen, ← correlate_seen hadm]
    rfl
  have hcnt : number (rollback r (correlate b k).2).cnt = number k.cnt := by
    have hmem : r.alertJson ∈ (correlate b k).2.alerts := by
      rw [correlate_alerts hadm, hr, show maxKept = 99 + 1 from rfl, List.take_succ_cons]
      exact List.mem_cons_self
    simp [number_rollback, hmem, correlate_cnt hadm]
  rw [← halerts, ← hset]
  exact ⟨fun h => ⟨h.alerts, h.seen⟩, fun h => ⟨h.1, h.2, hcnt⟩⟩

theorem not_agree_rollback_correlate (hseen : b.alertId ∉ k.seen) (hjson : b.alertJson ∉ k.alerts) :
    ¬ Agree (correlate b (rollback r k)).2 k := by
  intro h
  have hseen' : b.alertId ∉ (rollback r k).seen := by
    intro hx
    exact hseen (mem_zrem_nonempty.mp hx).1
  apply hjson
  rw [← h.alerts, correlate_alerts (admitted_of_not_mem hseen'), show maxKept = 99 + 1 from rfl,
    List.take_succ_cons]
  exact List.mem_cons_self

end NeuralSoc.Correlation
