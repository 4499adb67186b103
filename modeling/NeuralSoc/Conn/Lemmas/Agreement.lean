import NeuralSoc.Conn.Lemmas.Fast

/-!
# One event in both trackers

After a call that records a connection both trackers hold that connection after the earlier ones of its pair.
A call that records nothing has the same result in both.
-/

namespace NeuralSoc.Conn

variable {rt : ConnRuntime} {p : Settings} {before : List Call} {c : Call} {k : Connection}

/-! ## The two states after a call -/

theorem record_some {rt : Runtime} (h : connection rt c = some k) (redis : Redis) :
    c.record rt p redis = .ok (serve rt p redis c) := by
  obtain ⟨hpair, hbytes, -, -⟩ := connection_eq_some h
  simp only [serve, Call.record, recordConnection, hpair, hbytes]

theorem fastRecord_some {rt : Runtime} (h : connection rt c = some k) (pairs : Pairs) :
    Fast.record rt p c pairs = .ok (Fast.serve rt p pairs c) := by
  obtain ⟨hpair, hbytes, -, -⟩ := connection_eq_some h
  simp only [Fast.serve, Fast.record, Fast.recordConnection, hpair, hbytes]

theorem connections_last (rt : Runtime) (before : List Call) (h : connection rt c = some k) :
    connections rt k.pair (before ++ [c]) = connections rt k.pair before ++ [k] := by
  rw [connections_concat, h]
  simp

theorem redis_last (p : Settings) (before : List Call) (h : connection rt.toRuntime c = some k) :
    serve rt.toRuntime p (before.foldl (serve rt.toRuntime p) noKeys) c (pairKey k.pair) =
      recordAll rt.toRuntime p (connections rt.toRuntime k.pair (before ++ [c])) := by
  rw [← redis_run (connection_valid h), List.foldl_append]
  rfl

theorem state_last {rt : Runtime} (p : Settings) (before : List Call) (h : connection rt c = some k) :
    Fast.state? rt c.sourceIp c.destIp (Fast.serve rt p (before.foldl (Fast.serve rt p) noPairs) c) =
      some (PairState.run p (connections rt k.pair (before ++ [c]))) := by
  obtain ⟨hpair, -, -, -⟩ := connection_eq_some h
  rw [Fast.state?, hpair, Option.bind_some, fastServe_eq, h]
  dsimp only
  rw [Function.update_self, fast_run, connections_last rt before h, PairState.run_concat]

theorem connection_eq_none {rt : Runtime} (h : connection rt c = none) :
    safePair rt c.sourceIp c.destIp = none ∨
      ∃ pair e, safePair rt c.sourceIp c.destIp = some pair ∧ safeBytes rt c.origBytes = .error e := by
  unfold connection at h
  cases hpair : safePair rt c.sourceIp c.destIp with
  | none => exact Or.inl rfl
  | some pair =>
      cases hbytes : safeBytes rt c.origBytes with
      | error e => exact Or.inr ⟨pair, e, rfl, rfl⟩
      | ok bytes =>
          rw [hpair, hbytes] at h
          cases h

theorem checks_none {rt : Runtime} (h : connection rt c = none) :
    checks rt p before c = Fast.checks rt p before c := by
  rcases connection_eq_none h with hpair | ⟨pair, e, hpair, hbytes⟩
  · simp [checks, Fast.checks, Call.record, recordConnection, Fast.record, Fast.recordConnection, hpair,
      isDdosVolumetric, Fast.isDdosVolumetric, isBulkExfil, Fast.isBulkExfil, Fast.state?]
  · simp [checks, Fast.checks, Call.record, recordConnection, Fast.record, Fast.recordConnection, hpair,
      hbytes]

theorem beacon_none {rt : Runtime} (h : connection rt c = none) :
    beacon rt p before c = Fast.beacon rt p before c := by
  rcases connection_eq_none h with hpair | ⟨pair, e, hpair, hbytes⟩
  · simp [beacon, Fast.beacon, Call.record, recordConnection, Fast.record, Fast.recordConnection, hpair,
      isC2Beacon, Fast.isC2Beacon, Fast.state?, Except.map]
  · simp [beacon, Fast.beacon, Call.record, recordConnection, Fast.record, Fast.recordConnection, hpair,
      hbytes]

/-! ## Runs -/

/-- The connections of the pair that pruning leaves at an event do not exceed the cap. -/
def Uncapped (rt : Runtime) (p : Settings) (before : List Call) (c : Call) : Prop :=
  ∀ pair, ((connections rt pair (before ++ [c])).filter
    fun k => c.timestamp - p.retentionSeconds < k.timestamp).length ≤ maxTrackedTimestampsPerPair

theorem atEach_congr {P Q : List Call → Call → Prop} {calls : List Call}
    (h : ∀ before c, before ++ [c] <+: calls → (P before c ↔ Q before c)) :
    AtEach P calls ↔ AtEach Q calls :=
  forall_congr' fun before => forall_congr' fun c => imp_congr_right fun hbegins => h before c hbegins

theorem connections_sublist (rt : Runtime) (pair : String × String) {calls calls' : List Call}
    (h : calls <+: calls') : (connections rt pair calls).Sublist (connections rt pair calls') :=
  (h.sublist.filterMap _).filter _

structure Sound (rt : Runtime) (calls : List Call) : Prop where
  counts : (calls.map Call.count).Nodup
  ordered : ∀ pair, Ordered (connections rt pair calls)

theorem Sound.ofPrefix {rt : Runtime} {calls calls' : List Call} (h : Sound rt calls')
    (hbegins : calls <+: calls') : Sound rt calls where
  counts := h.counts.sublist (hbegins.sublist.map _)
  ordered pair := (h.ordered pair).sublist (connections_sublist rt pair hbegins)

theorem connections_pairwise (rt : Runtime) (pair : String × String) {R : ℚ → ℚ → Prop} {calls : List Call}
    (h : calls.Pairwise fun c c' => R c.timestamp c'.timestamp) :
    (connections rt pair calls).Pairwise fun k k' => R k.timestamp k'.timestamp := by
  refine List.Pairwise.filter _ (h.filterMap _ fun c c' hle k hk k' hk' => ?_)
  rwa [(connection_eq_some hk).2.2.1, (connection_eq_some hk').2.2.1]

theorem mem_connections {rt : Runtime} {pair : String × String} {calls : List Call}
    (h : k ∈ connections rt pair calls) : ∃ c ∈ calls, connection rt c = some k :=
  List.mem_filterMap.mp (List.mem_of_mem_filter h)

theorem uncapped_of_length (rt : Runtime) (p : Settings) {calls : List Call}
    (h : calls.length ≤ maxTrackedTimestampsPerPair) : AtEach (Uncapped rt p) calls := by
  intro before c hbegins pair
  calc
    _ ≤ (connections rt pair (before ++ [c])).length := List.length_filter_le _ _
    _ ≤ ((before ++ [c]).filterMap (connection rt)).length := List.length_filter_le _ _
    _ ≤ (before ++ [c]).length := List.length_filterMap_le _ _
    _ ≤ calls.length := hbegins.length_le
    _ ≤ maxTrackedTimestampsPerPair := h

theorem Ordered.all_le {ks : List Connection} (h : Ordered (ks ++ [k])) :
    ∀ k' ∈ ks ++ [k], k'.timestamp ≤ k.timestamp := by
  intro k' hk'
  rcases List.mem_append.mp hk' with hk' | hk'
  · exact h.le_last k' hk'
  · rw [List.mem_singleton.mp hk']

theorem Uncapped.length_within {w t : ℚ} (h : Uncapped rt.toRuntime p before c)
    (hw : w < p.retentionSeconds) (ht : t = c.timestamp) (pair : String × String) :
    (within w t (connections rt.toRuntime pair (before ++ [c]))).length ≤ maxTrackedTimestampsPerPair := by
  refine le_trans (List.Sublist.length_le (List.monotone_filter_right _ fun k hk => ?_)) (h pair)
  have hin : t - w ≤ k.timestamp ∧ k.timestamp ≤ t := by simpa using hk
  have hlt : c.timestamp - p.retentionSeconds < k.timestamp := by linarith [hin.1]
  simpa using hlt

/-- The flood and the exfiltration checks agree unless an infinite count has left its window. -/
theorem checks_agree (hc : connection rt.toRuntime c = some k)
    (hddos : p.ddosWindowSeconds < p.retentionSeconds) (hexfil : p.exfilWindowSeconds < p.retentionSeconds)
    (hsound : Sound rt.toRuntime (before ++ [c])) (hcap : Uncapped rt.toRuntime p before c) :
    checks rt.toRuntime p before c = Fast.checks rt.toRuntime p before c ↔
      ¬ LostInfinity p.exfilWindowSeconds k.timestamp (connections rt.toRuntime k.pair (before ++ [c])) := by
  obtain ⟨hpair, -, htime, -⟩ := connection_eq_some hc
  have hordered := hsound.ordered k.pair
  have hcounts := connections_counts rt.toRuntime k.pair hsound.counts
  have hbytes := connections_nonneg rt.toRuntime k.pair (before ++ [c])
  have hlenDdos := hcap.length_within hddos htime k.pair
  have hlenExfil := hcap.length_within hexfil htime k.pair
  have hredis := redis_last p before hc
  have hstate := state_last p before hc
  rw [connections_last _ _ hc] at hordered hcounts hbytes hlenDdos hlenExfil hredis hstate ⊢
  have hlast := hordered.all_le
  set total := totalBytes (within p.exfilWindowSeconds k.timestamp (connections rt.toRuntime k.pair before ++ [k]))
    with htotal
  have hflood : Fast.isDdosVolumetric rt.toRuntime p
        (Fast.serve rt.toRuntime p (before.foldl (Fast.serve rt.toRuntime p) noPairs) c) c.sourceIp c.destIp =
      isDdosVolumetric rt.toRuntime p (serve rt.toRuntime p (before.foldl (serve rt.toRuntime p) noKeys) c)
        c.sourceIp c.destIp c.timestamp := by
    rw [← htime, ddos_eq hpair hredis hddos hlast hcounts, min_eq_right hlenDdos]
    simp only [Fast.isDdosVolumetric, hstate, run_ddosTs, length_slide _ hordered]
  have hexact : isBulkExfil rt.toRuntime p
        (serve rt.toRuntime p (before.foldl (serve rt.toRuntime p) noKeys) c) c.sourceIp c.destIp
        c.timestamp =
      (PyFloat.le (.fin p.exfilBytesThreshold) total, ⟨total, some p.exfilWindowSeconds⟩) := by
    have hlatest := ((latest_perm rt.toRuntime hlenExfil).map Connection.bytes).sum_eq
    rw [← htime, exfil_eq hpair hredis hexfil hlast hcounts, totalBytes, hlatest]
    rfl
  have hnonneg : total.Nonneg := totalBytes_nonneg fun k' hk' => hbytes k' (List.mem_of_mem_filter hk')
  simp only [checks, Fast.checks, record_some hc, fastRecord_some hc, hflood, hexact]
  simp only [Fast.isBulkExfil, hstate, Except.ok.injEq, Prod.mk.injEq, true_and, ExfilStats.mk.injEq, and_true]
  rcases exfilSum_last (p := p) hordered hbytes with ⟨hlost, hsum⟩ | ⟨hlost, hsum⟩
  · -- the sum in memory is NaN, the other one is a number
    refine iff_of_false ?_ (not_not_intro hlost)
    rintro ⟨-, hsame⟩
    rw [hsum] at hsame
    rw [hsame] at hnonneg
    exact hnonneg
  · refine iff_of_true ?_ hlost
    rw [hsum]
    exact ⟨rfl, rfl⟩

end NeuralSoc.Conn
