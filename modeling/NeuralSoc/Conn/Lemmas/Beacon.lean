import Mathlib.Algebra.Order.BigOperators.Group.List
import Mathlib.Tactic.FieldSimp
import Mathlib.Tactic.Ring
import NeuralSoc.Conn.Lemmas.Agreement

/-!
# The statistics of the intervals

The two beacon checks look at the same intervals while no connection has left the window and no two have the
same timestamp. The variance from the two sums is then that from the list.
-/

namespace NeuralSoc.Conn

variable {rt : ConnRuntime} {p : Settings} {before : List Call} {c : Call} {k : Connection}
variable {ks : List Connection} {ts : List ℚ} {t : ℚ}

/-! ## Intervals -/

theorem intervals_concat (ts : List ℚ) (s t : ℚ) :
    intervals (ts ++ [s, t]) = intervals (ts ++ [s]) ++ [t - s] := by
  induction ts with
  | nil => rfl
  | cons r ts ih =>
      cases ts with
      | nil => rfl
      | cons q ts => exact congrArg ((q - r) :: ·) ih

theorem length_intervals (ts : List ℚ) : (intervals ts).length = ts.length - 1 := by
  simp [intervals]

theorem sum_sq_sub (xs : List ℚ) (m : ℚ) :
    (xs.map fun x => (x - m) ^ 2).sum = (xs.map fun x => x * x).sum - 2 * m * xs.sum + xs.length * m ^ 2 := by
  induction xs with
  | nil => simp
  | cons x xs ih =>
      simp only [List.map_cons, List.sum_cons, List.length_cons, Nat.cast_add, Nat.cast_one, ih]
      ring

theorem sum_sq_sub_mean {xs : List ℚ} (hxs : xs ≠ []) :
    (xs.map fun x => x * x).sum - xs.length * (xs.sum / xs.length) * (xs.sum / xs.length) =
      (xs.map fun x => (x - xs.sum / xs.length) ^ 2).sum := by
  have hlength : (xs.length : ℚ) ≠ 0 := by simpa using hxs
  rw [sum_sq_sub]
  field_simp
  ring

theorem sum_sq_nonneg (xs : List ℚ) (m : ℚ) : 0 ≤ (xs.map fun x => (x - m) ^ 2).sum := by
  refine List.sum_nonneg fun y hy => ?_
  obtain ⟨x, -, rfl⟩ := List.mem_map.mp hy
  exact sq_nonneg _

/-! ## The sums in memory -/

structure Tracks (st : PairState) (ts : List ℚ) : Prop where
  ends : ∀ e ∈ st.beaconIntervals, e.1 ∈ ts
  lengths : st.beaconIntervals.map Prod.snd = intervals ts
  sum : st.beaconSum = (intervals ts).sum
  sumsq : st.beaconSumsq = ((intervals ts).map fun x => x * x).sum
  last : st.lastTs = ts.getLast?

theorem tracks_init : Tracks .init [] := ⟨nofun, rfl, rfl, rfl, rfl⟩

theorem Tracks.added {st : PairState} (h : Tracks st ts) (hlater : ∀ s ∈ ts, s < t) :
    (∀ e ∈ (addInterval t st).1, e.1 ∈ ts ++ [t]) ∧
      (addInterval t st).1.map Prod.snd = intervals (ts ++ [t]) ∧
      (addInterval t st).2.1 = (intervals (ts ++ [t])).sum ∧
      (addInterval t st).2.2 = ((intervals (ts ++ [t])).map fun x => x * x).sum := by
  have hends : ∀ e ∈ st.beaconIntervals, e.1 ∈ ts ++ [t] := fun e he => List.mem_append_left _ (h.ends e he)
  cases ts using List.reverseRecOn with
  | nil =>
      have hnone : st.lastTs = none := h.last
      rw [addInterval, hnone]
      exact ⟨hends, h.lengths, h.sum, h.sumsq⟩
  | append_singleton ts s =>
      have hsome : st.lastTs = some s := by rw [h.last, List.getLast?_concat]
      have hpos : t - s > 0 := sub_pos.mpr (hlater s (by simp))
      rw [addInterval, hsome]
      dsimp only
      rw [if_pos hpos, List.append_assoc, List.singleton_append, intervals_concat]
      refine ⟨fun e he => ?_, ?_, ?_, ?_⟩
      · rcases List.mem_append.mp he with he | he
        · simpa using hends e he
        · rw [List.mem_singleton.mp he]
          simp
      · rw [List.map_append, h.lengths]
        rfl
      · rw [List.sum_append, ← h.sum, List.sum_singleton]
      · rw [List.map_append, List.sum_append, ← h.sumsq, List.map_singleton, List.sum_singleton]

/-- Nothing is taken out while all timestamps are in the window. -/
theorem Tracks.record {st : PairState} (h : Tracks st ts) (hlater : ∀ s ∈ ts, s < t)
    (hwindow : ∀ s ∈ ts ++ [t], t - p.beaconWindowSeconds ≤ s) (bytes : PyFloat) :
    Tracks (st.record p t bytes) (ts ++ [t]) := by
  obtain ⟨hends, hlengths, hsum, hsumsq⟩ := h.added hlater
  have hkeep : expireIntervals (t - p.beaconWindowSeconds) (addInterval t st).1 (addInterval t st).2.1
      (addInterval t st).2.2 = addInterval t st :=
    expire_of_none (fun e he => decide_eq_false (hwindow e.1 (hends e he)).not_gt) _
  have hintervals : (st.record p t bytes).beaconIntervals = (addInterval t st).1 := congrArg Prod.fst hkeep
  have hsums : (st.record p t bytes).beaconSum = (addInterval t st).2.1 := congrArg (·.2.1) hkeep
  have hsumsqs : (st.record p t bytes).beaconSumsq = (addInterval t st).2.2 := congrArg (·.2.2) hkeep
  exact
    { ends := by rwa [hintervals]
      lengths := by rw [hintervals, hlengths]
      sum := by rw [hsums, hsum]
      sumsq := by rw [hsumsqs, hsumsq]
      last := by rw [List.getLast?_concat]; rfl }

/-- No two connections are a window apart. -/
def Close (w : ℚ) (ks : List Connection) : Prop := ∀ k ∈ ks, ∀ k' ∈ ks, k.timestamp - w ≤ k'.timestamp

theorem run_tracks (hstrict : ks.Pairwise (·.timestamp < ·.timestamp)) (hclose : Close p.beaconWindowSeconds ks) :
    Tracks (PairState.run p ks) (ks.map Connection.timestamp) := by
  induction ks using List.reverseRecOn with
  | nil => exact tracks_init
  | append_singleton ks k ih =>
      obtain ⟨hbefore, -, hlater⟩ := List.pairwise_append.mp hstrict
      have ih := ih hbefore fun a ha b hb => hclose a (List.mem_append_left _ ha) b (List.mem_append_left _ hb)
      rw [PairState.run_concat, List.map_append]
      refine ih.record (fun s hs => ?_) (fun s hs => ?_) k.bytes
      · obtain ⟨k', hk', rfl⟩ := List.mem_map.mp hs
        exact hlater k' hk' k (List.mem_singleton_self k)
      · rw [← List.map_singleton, ← List.map_append] at hs
        obtain ⟨k', hk', rfl⟩ := List.mem_map.mp hs
        exact hclose k (by simp) k' hk'

/-! ## One event -/

/-- Too few connections for a decision, or all of them in the window at timestamps of their own. -/
def Steady (p : Settings) (t : ℚ) (ks : List Connection) : Prop :=
  ((within p.beaconWindowSeconds t ks).length : ℤ) < p.beaconMinObservations ∨
    (∀ k ∈ ks, t - p.beaconWindowSeconds < k.timestamp) ∧ ks.Pairwise (·.timestamp < ·.timestamp)

/-- What the shared set holds in the longest window just after a call. -/
theorem beacon_entries (hlongest : p.retentionSeconds = p.beaconWindowSeconds)
    (hlast : ∀ k' ∈ ks ++ [k], k'.timestamp ≤ k.timestamp)
    (hcounts : ((ks ++ [k]).map Connection.count).Nodup) :
    (recordAll rt.toRuntime p (ks ++ [k])).zrangebyscore (k.timestamp - p.beaconWindowSeconds) k.timestamp =
      (latest rt.toRuntime maxTrackedTimestampsPerPair
        ((ks ++ [k]).filter fun k' => k.timestamp - p.beaconWindowSeconds < k'.timestamp)).map
          (Connection.entry rt.toRuntime) := by
  have hpruned : ∀ e ∈ (recordAll rt.toRuntime p (ks ++ [k])).entries,
      k.timestamp - p.beaconWindowSeconds < (ofLex e).1 := by
    intro e he
    rw [recordAll_concat] at he
    rw [← hlongest]
    exact (SortedSet.mem_of_mem_removeUpTo (SortedSet.mem_of_mem_keepLast he)).2
  have hrange : (recordAll rt.toRuntime p (ks ++ [k])).zrangebyscore
        (k.timestamp - p.beaconWindowSeconds) k.timestamp =
      (recordAll rt.toRuntime p (ks ++ [k])).entries.filter
        fun e => k.timestamp - p.beaconWindowSeconds < (ofLex e).1 :=
    List.filter_congr fun e he => by
      rw [decide_eq_true (hpruned e he), decide_eq_true (hpruned e he).le,
        decide_eq_true (recordAll_timestamps hlast e he), Bool.and_true]
  rw [hrange]
  refine recordAll_filter (k.timestamp - p.beaconWindowSeconds < ·) (fun _ _ hst hs => hs.trans_le hst)
    (fun k' hk' s hs => ?_) hcounts
  rw [hlongest]
  exact (sub_le_sub_right (hlast k' hk') _).trans_lt hs

/-- The timestamps that the check sorts are those of the pair, in order, when all of them are in the window. -/
theorem beacon_timestamps (hlongest : p.retentionSeconds = p.beaconWindowSeconds)
    (hordered : Ordered (ks ++ [k])) (hcounts : ((ks ++ [k]).map Connection.count).Nodup)
    (hcap : (ks ++ [k]).length ≤ maxTrackedTimestampsPerPair)
    (hwindow : ∀ k' ∈ ks ++ [k], k.timestamp - p.beaconWindowSeconds < k'.timestamp) :
    (((recordAll rt.toRuntime p (ks ++ [k])).zrangebyscore
        (k.timestamp - p.beaconWindowSeconds) k.timestamp).map fun e => (ofLex e).1).insertionSort (· ≤ ·) =
      (ks ++ [k]).map Connection.timestamp := by
  have hall : (ks ++ [k]).filter (fun k' => k.timestamp - p.beaconWindowSeconds < k'.timestamp) = ks ++ [k] :=
    List.filter_eq_self.mpr fun k' hk' => decide_eq_true (hwindow k' hk')
  have hperm := (latest_perm rt.toRuntime hcap).map Connection.timestamp
  rw [beacon_entries hlongest hordered.all_le hcounts, hall, List.map_map]
  exact List.Perm.eq_of_pairwise (fun a b _ _ => le_antisymm) (List.pairwise_insertionSort _ _)
    (List.pairwise_map.mpr hordered) ((List.perm_insertionSort _ _).trans hperm)

theorem judge_agrees {st : PairState} (h : Tracks st ts) (hn : st.beaconTs.length = ts.length)
    (hobs : 2 ≤ p.beaconMinObservations) : (judge p ts).map Prod.fst = .ok (st.judge p).1 := by
  have hlength : st.beaconIntervals.length = (intervals ts).length := by
    rw [← h.lengths, List.length_map]
  unfold judge PairState.judge
  simp only [hn, hlength, h.sum, h.sumsq]
  by_cases hfew : (ts.length : ℤ) < p.beaconMinObservations
  · simp only [hfew, ↓reduceIte]
    rfl
  · have hsome : intervals ts ≠ [] := by
      rw [← List.length_pos_iff, length_intervals]
      omega
    have hpos : ¬ (intervals ts).length = 0 := by simpa using hsome
    have hvariance := sum_sq_sub_mean hsome
    have hnonneg := sum_sq_nonneg (intervals ts) ((intervals ts).sum / (intervals ts).length)
    simp only [hfew, hpos, ↓reduceIte, hvariance, max_eq_right hnonneg]
    by_cases hshort : (intervals ts).sum / (intervals ts).length < p.beaconMinIntervalSeconds
    · simp only [hshort, ↓reduceIte]
      rfl
    · by_cases htwo : (intervals ts).length < 2
      · simp only [hshort, htwo, ↓reduceIte]
        rfl
      · simp only [hshort, htwo, ↓reduceIte]
        rfl

theorem few_observations (hfew : (ts.length : ℤ) < p.beaconMinObservations) :
    (judge p ts).map Prod.fst = .ok false := by
  unfold judge
  dsimp only
  rw [if_pos hfew]
  rfl

theorem beacon_agrees (hc : connection rt.toRuntime c = some k)
    (hlongest : p.retentionSeconds = p.beaconWindowSeconds) (hobs : 2 ≤ p.beaconMinObservations)
    (hsound : Sound rt.toRuntime (before ++ [c]))
    (hcap : Uncapped rt.toRuntime p before c)
    (hsteady : Steady p k.timestamp (connections rt.toRuntime k.pair (before ++ [c]))) :
    beacon rt.toRuntime p before c = Fast.beacon rt.toRuntime p before c := by
  obtain ⟨hpair, -, htime, -⟩ := connection_eq_some hc
  have hordered := hsound.ordered k.pair
  have hcounts := connections_counts rt.toRuntime k.pair hsound.counts
  have hcapped := hcap k.pair
  have hredis := redis_last p before hc
  have hstate := state_last p before hc
  rw [connections_last _ _ hc] at hordered hcounts hcapped hredis hstate hsteady
  rw [← htime, hlongest] at hcapped
  set ks := connections rt.toRuntime k.pair before
  have hobserved : (PairState.run p (ks ++ [k])).beaconTs.length =
      (within p.beaconWindowSeconds k.timestamp (ks ++ [k])).length := by
    rw [run_beaconTs, length_slide _ hordered]
  simp only [beacon, Fast.beacon, record_some hc, fastRecord_some hc, isC2Beacon, Fast.isC2Beacon, hpair,
    hredis, hstate, ← htime]
  rcases hsteady with hfew | ⟨hin, hstrict⟩
  · have hsub : ((ks ++ [k]).filter fun k' =>
        k.timestamp - p.beaconWindowSeconds < k'.timestamp).length ≤
          (within p.beaconWindowSeconds k.timestamp (ks ++ [k])).length := by
      rw [within_last _ hordered]
      refine List.Sublist.length_le (List.monotone_filter_right _ fun k' hk' => ?_)
      exact decide_eq_true (of_decide_eq_true hk').le
    rw [few_observations, PairState.judge]
    · simp only [hobserved, if_pos hfew]
    · rw [List.length_insertionSort, List.length_map, beacon_entries hlongest hordered.all_le hcounts,
        List.length_map, length_latest]
      omega
  · have hall : (ks ++ [k]).filter (fun k' => k.timestamp - p.beaconWindowSeconds < k'.timestamp) = ks ++ [k] :=
      List.filter_eq_self.mpr fun k' hk' => decide_eq_true (hin k' hk')
    rw [hall] at hcapped
    have hwithin : within p.beaconWindowSeconds k.timestamp (ks ++ [k]) = ks ++ [k] := by
      rw [within_last _ hordered]
      exact List.filter_eq_self.mpr fun k' hk' => decide_eq_true (hin k' hk').le
    have hclose : Close p.beaconWindowSeconds (ks ++ [k]) := fun a ha b hb =>
      (sub_le_sub_right (hordered.all_le a ha) _).trans (hin b hb).le
    rw [beacon_timestamps hlongest hordered hcounts hcapped hin]
    refine judge_agrees (run_tracks hstrict hclose) ?_ hobs
    rw [hobserved, hwithin, List.length_map]

end NeuralSoc.Conn
