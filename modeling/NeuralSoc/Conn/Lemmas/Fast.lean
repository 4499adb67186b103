import NeuralSoc.Conn.Fast
import NeuralSoc.Conn.Lemmas.Window

/-!
# What the state in memory holds

The deques hold their windows. The running sum of the bytes is the sum over its window until an infinite
count has been taken out of it.
-/

namespace NeuralSoc.Conn

variable {rt : ConnRuntime} {p : Settings} {ks : List Connection} {k : Connection}

/-! ## The run of one pair -/

def PairState.run (p : Settings) (ks : List Connection) : PairState :=
  ks.foldl (fun st k => st.record p k.timestamp k.bytes) .init

theorem PairState.run_concat (p : Settings) (ks : List Connection) (k : Connection) :
    PairState.run p (ks ++ [k]) = (PairState.run p ks).record p k.timestamp k.bytes := by
  rw [PairState.run, List.foldl_append]
  rfl

theorem fastServe_eq (rt : Runtime) (p : Settings) (c : Call) (pairs : Pairs) :
    Fast.serve rt p pairs c = match connection rt c with
      | none => pairs
      | some k => Function.update pairs k.pair
          (some (((pairs k.pair).getD .init).record p k.timestamp k.bytes)) := by
  unfold Fast.serve Fast.record Fast.recordConnection connection
  cases safePair rt c.sourceIp c.destIp with
  | none => rfl
  | some pair =>
      cases safeBytes rt c.origBytes with
      | error e => rfl
      | ok bytes => rfl

theorem fast_run (rt : Runtime) (p : Settings) (pair : String × String) (calls : List Call) :
    (calls.foldl (Fast.serve rt p) noPairs pair).getD .init = PairState.run p (connections rt pair calls) := by
  induction calls using List.reverseRecOn with
  | nil => rfl
  | append_singleton calls c ih =>
      rw [List.foldl_append, List.foldl_cons, List.foldl_nil, fastServe_eq, connections_concat]
      cases hc : connection rt c with
      | none => simpa using ih
      | some k =>
          dsimp only
          by_cases hsame : k.pair = pair
          · subst hsame
            rw [Function.update_self, ih]
            simp [PairState.run_concat]
          · rw [Function.update_of_ne (Ne.symm hsame), ih]
            simp [hsame]

/-! ## Windows -/

def Ordered (ks : List Connection) : Prop := ks.Pairwise (·.timestamp ≤ ·.timestamp)

theorem Ordered.le_last (h : Ordered (ks ++ [k])) : ∀ k' ∈ ks, k'.timestamp ≤ k.timestamp := fun k' hk' =>
  (List.pairwise_append.mp h).2.2 k' hk' k (List.mem_singleton_self k)

theorem run_ddosTs (p : Settings) (ks : List Connection) :
    (PairState.run p ks).ddosTs =
      (ks.map Connection.timestamp).foldl (slide id (· - p.ddosWindowSeconds)) [] := by
  induction ks using List.reverseRecOn with
  | nil => rfl
  | append_singleton ks k ih =>
      rw [PairState.run_concat, List.map_append, List.foldl_append, ← ih]
      rfl

theorem run_beaconTs (p : Settings) (ks : List Connection) :
    (PairState.run p ks).beaconTs =
      (ks.map Connection.timestamp).foldl (slide id (· - p.beaconWindowSeconds)) [] := by
  induction ks using List.reverseRecOn with
  | nil => rfl
  | append_singleton ks k ih =>
      rw [PairState.run_concat, List.map_append, List.foldl_append, ← ih]
      rfl

def byteEntry (k : Connection) : ℚ × PyFloat := (k.timestamp, k.bytes)

theorem run_exfilEntries (p : Settings) (ks : List Connection) :
    (PairState.run p ks).exfilEntries =
      (ks.map byteEntry).foldl (slide Prod.fst (·.1 - p.exfilWindowSeconds)) [] := by
  induction ks using List.reverseRecOn with
  | nil => rfl
  | append_singleton ks k ih =>
      rw [PairState.run_concat, List.map_append, List.foldl_append, ← ih]
      exact expire_fst _ _

/-- A window that slides over timestamps holds those that are no older than the last one allows. -/
theorem slide_timestamps (w : ℚ) (hordered : Ordered (ks ++ [k])) :
    ((ks ++ [k]).map Connection.timestamp).foldl (slide id (· - w)) [] =
      ((ks ++ [k]).map Connection.timestamp).filter fun s => k.timestamp - w ≤ s := by
  have hkey : ((ks ++ [k]).map Connection.timestamp).Pairwise (id · ≤ id ·) := List.pairwise_map.mpr hordered
  rw [List.map_append, List.map_singleton] at hkey ⊢
  refine slide_run hkey fun s hs => ?_
  obtain ⟨k', hk', rfl⟩ := List.mem_map.mp hs
  exact sub_le_sub_right (hordered.le_last k' hk') w

theorem within_last (w : ℚ) (hordered : Ordered (ks ++ [k])) :
    within w k.timestamp (ks ++ [k]) = (ks ++ [k]).filter fun k' => k.timestamp - w ≤ k'.timestamp := by
  refine List.filter_congr fun k' hk' => ?_
  have hle : k'.timestamp ≤ k.timestamp := by
    rcases List.mem_append.mp hk' with hk' | hk'
    · exact hordered.le_last k' hk'
    · rw [List.mem_singleton.mp hk']
  rw [decide_eq_true hle, Bool.and_true]

theorem length_slide (w : ℚ) (hordered : Ordered (ks ++ [k])) :
    (((ks ++ [k]).map Connection.timestamp).foldl (slide id (· - w)) []).length =
      (within w k.timestamp (ks ++ [k])).length := by
  rw [slide_timestamps w hordered, within_last w hordered, List.filter_map, List.length_map]
  rfl

theorem exfilEntries_last (hordered : Ordered (ks ++ [k])) :
    (PairState.run p (ks ++ [k])).exfilEntries =
      (within p.exfilWindowSeconds k.timestamp (ks ++ [k])).map byteEntry := by
  have hkey : ((ks ++ [k]).map byteEntry).Pairwise (·.1 ≤ ·.1) := List.pairwise_map.mpr hordered
  have hslide : ((ks ++ [k]).map byteEntry).foldl (slide Prod.fst (·.1 - p.exfilWindowSeconds)) [] =
      ((ks ++ [k]).map byteEntry).filter fun e => k.timestamp - p.exfilWindowSeconds ≤ e.1 := by
    rw [List.map_append, List.map_singleton] at hkey ⊢
    refine slide_run hkey fun e he => ?_
    obtain ⟨k', hk', rfl⟩ := List.mem_map.mp he
    exact sub_le_sub_right (hordered.le_last k' hk') _
  rw [run_exfilEntries, hslide, within_last _ hordered, List.filter_map]
  rfl

/-! ## The running sum of the bytes -/

/-- NaN once an infinite count is gone, else the sum of what is left. -/
def settled (dropped left : List (ℚ × PyFloat)) : PyFloat :=
  if .inf false ∈ dropped.map Prod.snd then .nan else (left.map Prod.snd).sum

structure Settled (dropped left : List (ℚ × PyFloat)) (sum : PyFloat) : Prop where
  nonneg : ∀ e ∈ left, e.2.Nonneg
  eq : sum = settled dropped left

theorem Settled.pop {dropped left : List (ℚ × PyFloat)} {e : ℚ × PyFloat} {sum : PyFloat}
    (h : Settled dropped (e :: left) sum) : Settled (dropped ++ [e]) left (sum - e.2) where
  nonneg e' he' := h.nonneg e' (List.mem_cons_of_mem _ he')
  eq := by
    have hleft : (left.map Prod.snd).sum.Nonneg := by
      refine PyFloat.nonneg_sum fun x hx => ?_
      obtain ⟨e', he', rfl⟩ := List.mem_map.mp hx
      exact h.nonneg e' (List.mem_cons_of_mem _ he')
    have hfirst : e.2.Nonneg := h.nonneg e (List.mem_cons_self ..)
    rw [h.eq, settled, settled, List.map_append, List.map_cons, List.map_cons, List.map_nil, List.sum_cons]
    by_cases hgone : .inf false ∈ dropped.map Prod.snd
    · rw [if_pos hgone, if_pos (List.mem_append_left _ hgone), PyFloat.nan_sub]
    · rw [if_neg hgone]
      cases hbytes : e.2 with
      | nan =>
          rw [hbytes] at hfirst
          exact hfirst.elim
      | inf neg =>
          rw [hbytes] at hfirst
          cases hfirst
          rw [if_pos (by simp)]
          exact PyFloat.inf_add_sub_inf hleft
      | fin q =>
          rw [if_neg (by simp [hgone])]
          exact PyFloat.fin_add_sub_fin q _

theorem Settled.push {dropped left : List (ℚ × PyFloat)} {sum : PyFloat} (h : Settled dropped left sum)
    {e : ℚ × PyFloat} (he : e.2.Nonneg) : Settled dropped (left ++ [e]) (sum + e.2) where
  nonneg e' he' := by
    rcases List.mem_append.mp he' with he' | he'
    · exact h.nonneg e' he'
    · rwa [List.mem_singleton.mp he']
  eq := by
    rw [h.eq, settled, settled, List.map_append, List.sum_append, List.map_singleton, List.sum_singleton]
    split
    · rfl
    · rfl

theorem run_settled (hbytes : ∀ k ∈ ks, k.bytes.Nonneg) :
    ∃ dropped, dropped ++ (PairState.run p ks).exfilEntries = ks.map byteEntry ∧
      Settled dropped (PairState.run p ks).exfilEntries (PairState.run p ks).exfilSum := by
  induction ks using List.reverseRecOn with
  | nil => exact ⟨[], rfl, nofun, rfl⟩
  | append_singleton ks k ih =>
      obtain ⟨dropped, happend, hsettled⟩ := ih fun k' hk' => hbytes k' (List.mem_append_left _ hk')
      have hpush := hsettled.push (e := byteEntry k) (hbytes k (by simp))
      obtain ⟨dropped', happend', hsettled'⟩ :=
        expire_keeps (·.1 < k.timestamp - p.exfilWindowSeconds) (fun sum e => sum - e.2)
          (fun _ _ _ _ => Settled.pop) hpush
      refine ⟨dropped', ?_, ?_⟩
      · rw [PairState.run_concat, List.map_append, ← happend, List.append_assoc]
        exact happend'
      · rw [PairState.run_concat]
        exact hsettled'

def LostInfinity (w : ℚ) (t : ℚ) (ks : List Connection) : Prop :=
  ∃ k ∈ ks, k.timestamp < t - w ∧ k.bytes = .inf false

theorem exfilSum_last (hordered : Ordered (ks ++ [k])) (hbytes : ∀ k' ∈ ks ++ [k], k'.bytes.Nonneg) :
    (LostInfinity p.exfilWindowSeconds k.timestamp (ks ++ [k]) ∧
        (PairState.run p (ks ++ [k])).exfilSum = .nan) ∨
      (¬ LostInfinity p.exfilWindowSeconds k.timestamp (ks ++ [k]) ∧
        (PairState.run p (ks ++ [k])).exfilSum =
          totalBytes (within p.exfilWindowSeconds k.timestamp (ks ++ [k]))) := by
  obtain ⟨dropped, happend, hsettled⟩ := run_settled (p := p) hbytes
  have hleft := exfilEntries_last (p := p) hordered
  have hfilter : (PairState.run p (ks ++ [k])).exfilEntries =
      ((ks ++ [k]).map byteEntry).filter fun e => k.timestamp - p.exfilWindowSeconds ≤ e.1 := by
    rw [hleft, within_last _ hordered, List.filter_map]
    rfl
  have hlost : .inf false ∈ dropped.map Prod.snd ↔
      LostInfinity p.exfilWindowSeconds k.timestamp (ks ++ [k]) := by
    simp only [List.mem_map, mem_dropped_iff happend hfilter]
    constructor
    · rintro ⟨_, ⟨⟨k', hk', rfl⟩, hold⟩, hinf⟩
      exact ⟨k', hk', hold, hinf⟩
    · rintro ⟨k', hk', hold, hinf⟩
      exact ⟨byteEntry k', ⟨⟨k', hk', rfl⟩, hold⟩, hinf⟩
  rw [hsettled.eq, settled]
  by_cases hgone : LostInfinity p.exfilWindowSeconds k.timestamp (ks ++ [k])
  · exact Or.inl ⟨hgone, if_pos (hlost.mpr hgone)⟩
  · refine Or.inr ⟨hgone, ?_⟩
    rw [if_neg (mt hlost.mp hgone), hleft, List.map_map]
    rfl

end NeuralSoc.Conn
