import Mathlib.Tactic.Linarith
import NeuralSoc.Conn.Lemmas.Kept

/-!
# What the checks find in their windows

A window that is shorter than the retention is not touched by pruning. Its check sees the latest connections
in it, all of them while there are no more than the cap.
-/

namespace NeuralSoc.Conn

variable {rt : ConnRuntime} {p : Settings} {ks : List Connection} {w t : ℚ}

/-! ## The latest connections -/

theorem length_latest (rt : Runtime) (n : ℕ) (ks : List Connection) :
    (latest rt n ks).length = min n ks.length := by
  rw [latest, List.length_drop, List.length_insertionSort]
  omega

theorem latest_perm (rt : Runtime) {n : ℕ} (h : ks.length ≤ n) : (latest rt n ks).Perm ks := by
  rw [latest, Nat.sub_eq_zero_of_le h, List.drop_zero]
  exact List.perm_insertionSort _ ks

theorem totalBytes_split (rt : Runtime) (n : ℕ) (ks : List Connection) :
    ∃ others : List Connection, (∀ k ∈ others, k ∈ ks) ∧
      totalBytes ks = totalBytes (latest rt n ks) + totalBytes others := by
  set sorted := ks.insertionSort fun a b => a.entry rt ≤ b.entry rt with hsorted
  have hperm : sorted.Perm ks := List.perm_insertionSort _ ks
  refine ⟨sorted.take (ks.length - n), fun k hk => hperm.subset (List.mem_of_mem_take hk), ?_⟩
  have hsum : totalBytes ks = totalBytes sorted := ((hperm.map Connection.bytes).sum_eq).symm
  calc
    totalBytes ks = totalBytes (sorted.take (ks.length - n) ++ sorted.drop (ks.length - n)) := by
      rw [hsum, List.take_append_drop]
    _ = totalBytes (sorted.take (ks.length - n)) + totalBytes (sorted.drop (ks.length - n)) := by
      rw [totalBytes, List.map_append, List.sum_append]
      rfl
    _ = totalBytes (latest rt n ks) + totalBytes (sorted.take (ks.length - n)) := by
      rw [add_comm]
      rfl

theorem safeBytes_nonneg {rt : Runtime} {origBytes : Json} {x : PyFloat}
    (h : safeBytes rt origBytes = .ok x) : x.Nonneg := by
  have hzero : PyFloat.Nonneg (.fin 0) := le_refl (0 : ℚ)
  unfold safeBytes at h
  cases hx : toFloat rt origBytes with
  | ok y =>
      rw [hx] at h
      cases h
      exact PyFloat.nonneg_max_zero y
  | error e =>
      rw [hx] at h
      dsimp only at h
      split at h
      · cases h
        exact hzero
      · cases h
        exact hzero
      · cases h

theorem connections_nonneg (rt : Runtime) (pair : String × String) (calls : List Call) :
    ∀ k ∈ connections rt pair calls, k.bytes.Nonneg := by
  intro k hk
  obtain ⟨c, -, hc⟩ := List.mem_filterMap.mp (List.mem_of_mem_filter hk)
  exact safeBytes_nonneg (connection_eq_some hc).2.1

theorem totalBytes_nonneg (h : ∀ k ∈ ks, k.bytes.Nonneg) : (totalBytes ks).Nonneg := by
  refine PyFloat.nonneg_sum fun x hx => ?_
  obtain ⟨k, hk, rfl⟩ := List.mem_map.mp hx
  exact h k hk

theorem le_totalBytes_of_latest {rt : Runtime} {n : ℕ} {q : ℚ} (h : ∀ k ∈ ks, k.bytes.Nonneg)
    (hq : PyFloat.le (.fin q) (totalBytes (latest rt n ks)) = true) :
    PyFloat.le (.fin q) (totalBytes ks) = true := by
  obtain ⟨others, hsub, hsplit⟩ := totalBytes_split rt n ks
  rw [hsplit]
  exact PyFloat.le_add_of_nonneg hq (totalBytes_nonneg fun k hk => h k (hsub k hk))

/-! ## The counters of a run -/

theorem connections_counts (rt : Runtime) (pair : String × String) {calls : List Call}
    (hcounts : (calls.map Call.count).Nodup) : ((connections rt pair calls).map Connection.count).Nodup := by
  refine List.Nodup.sublist (List.filter_sublist.map _) ?_
  rw [List.nodup_iff_pairwise_ne, List.pairwise_map] at hcounts ⊢
  refine hcounts.filterMap _ fun c c' hne k hk k' hk' hcount => hne ?_
  rw [← (connection_eq_some hk).2.2.2, ← (connection_eq_some hk').2.2.2, hcount]

/-! ## One window -/

theorem recordAll_timestamps (hlast : ∀ k ∈ ks, k.timestamp ≤ t) :
    ∀ e ∈ (recordAll rt.toRuntime p ks).entries, (ofLex e).1 ≤ t := by
  intro e he
  obtain ⟨k, hk, rfl⟩ := List.mem_map.mp (entries_subset rt.toRuntime p ks e he)
  exact hlast k hk

theorem window_entries (hw : w < p.retentionSeconds) (hlast : ∀ k ∈ ks, k.timestamp ≤ t)
    (hcounts : (ks.map Connection.count).Nodup) :
    (recordAll rt.toRuntime p ks).zrangebyscore (t - w) t =
      (latest rt.toRuntime maxTrackedTimestampsPerPair (within w t ks)).map
        (Connection.entry rt.toRuntime) := by
  have hwithin : within w t ks = ks.filter fun k => t - w ≤ k.timestamp :=
    List.filter_congr fun k hk => by rw [decide_eq_true (hlast k hk), Bool.and_true]
  have hrange : (recordAll rt.toRuntime p ks).zrangebyscore (t - w) t =
      (recordAll rt.toRuntime p ks).entries.filter fun e => t - w ≤ (ofLex e).1 :=
    List.filter_congr fun e he => by
      rw [decide_eq_true (recordAll_timestamps hlast e he), Bool.and_true]
  rw [hrange, hwithin]
  refine recordAll_filter (t - w ≤ ·) (fun _ _ hst hs => hs.trans hst) (fun k hk s hs => ?_) hcounts
  have := hlast k hk
  linarith

theorem window_count (hw : w < p.retentionSeconds) (hlast : ∀ k ∈ ks, k.timestamp ≤ t)
    (hcounts : (ks.map Connection.count).Nodup) :
    (recordAll rt.toRuntime p ks).zcount (t - w) t =
      min maxTrackedTimestampsPerPair (within w t ks).length := by
  rw [SortedSet.zcount, window_entries hw hlast hcounts, List.length_map, length_latest]

theorem read_entries (ks : List Connection) :
    (ks.map (Connection.entry rt.toRuntime)).filterMap (fun e => memberBytes rt.toRuntime (ofLex e).2) =
      ks.map Connection.bytes := by
  have hread : (fun e : Entry => memberBytes rt.toRuntime (ofLex e).2) ∘ Connection.entry rt.toRuntime =
      fun k => some k.bytes :=
    funext fun k => memberBytes_member k.timestamp k.count k.bytes
  rw [List.filterMap_map, hread]
  exact congrFun (List.filterMap_eq_map (f := Connection.bytes)) ks

theorem window_bytes (hw : w < p.retentionSeconds) (hlast : ∀ k ∈ ks, k.timestamp ≤ t)
    (hcounts : (ks.map Connection.count).Nodup) :
    (((recordAll rt.toRuntime p ks).zrangebyscore (t - w) t).filterMap
        fun e => memberBytes rt.toRuntime (ofLex e).2).foldl (· + ·) 0 =
      totalBytes (latest rt.toRuntime maxTrackedTimestampsPerPair (within w t ks)) := by
  rw [window_entries hw hlast hcounts, read_entries, totalBytes, List.sum_eq_foldl]

/-! ## The checks -/

variable {sourceIp destIp : String} {pair : String × String} {redis : Redis}

theorem ddos_eq (hpair : safePair rt.toRuntime sourceIp destIp = some pair)
    (hredis : redis (pairKey pair) = recordAll rt.toRuntime p ks) (hw : p.ddosWindowSeconds < p.retentionSeconds)
    (hlast : ∀ k ∈ ks, k.timestamp ≤ t) (hcounts : (ks.map Connection.count).Nodup) :
    isDdosVolumetric rt.toRuntime p redis sourceIp destIp t =
      (decide (((min maxTrackedTimestampsPerPair (within p.ddosWindowSeconds t ks).length : ℕ) : ℤ) ≥
          p.ddosConnectionCountThreshold),
        ⟨min maxTrackedTimestampsPerPair (within p.ddosWindowSeconds t ks).length,
          some p.ddosWindowSeconds⟩) := by
  simp only [isDdosVolumetric, hpair, hredis, window_count hw hlast hcounts]

theorem exfil_eq (hpair : safePair rt.toRuntime sourceIp destIp = some pair)
    (hredis : redis (pairKey pair) = recordAll rt.toRuntime p ks)
    (hw : p.exfilWindowSeconds < p.retentionSeconds) (hlast : ∀ k ∈ ks, k.timestamp ≤ t)
    (hcounts : (ks.map Connection.count).Nodup) :
    isBulkExfil rt.toRuntime p redis sourceIp destIp t =
      (PyFloat.le (.fin p.exfilBytesThreshold) (totalBytes
          (latest rt.toRuntime maxTrackedTimestampsPerPair (within p.exfilWindowSeconds t ks))),
        ⟨totalBytes (latest rt.toRuntime maxTrackedTimestampsPerPair (within p.exfilWindowSeconds t ks)),
          some p.exfilWindowSeconds⟩) := by
  simp only [isBulkExfil, hpair, hredis, window_bytes hw hlast hcounts]

end NeuralSoc.Conn
