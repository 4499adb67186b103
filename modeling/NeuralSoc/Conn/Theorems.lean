import NeuralSoc.Conn.Lemmas.Beacon
import NeuralSoc.Conn.Texts

/-!
# Exactness of the checks, and agreement of the two trackers
-/

namespace NeuralSoc.Conn

variable {rt : ConnRuntime}

theorem ddosWindow_lt_retention : ({} : Settings).ddosWindowSeconds < ({} : Settings).retentionSeconds := by
  norm_num [Settings.retentionSeconds]

theorem exfilWindow_lt_retention :
    ({} : Settings).exfilWindowSeconds < ({} : Settings).retentionSeconds := by
  norm_num [Settings.retentionSeconds]

/-! ## Runs for the examples -/

def call (timestamp : ℚ) (origBytes : Json) (count : ℕ) : Call :=
  ⟨"10.0.0.5", "127.0.0.1", timestamp, origBytes, count⟩

theorem safePair_call :
    safePair textRuntime.toRuntime "10.0.0.5" "127.0.0.1" = some ("10.0.0.5", "127.0.0.1") := by
  decide +kernel

/-- Two hundred connections a second of 500 bytes each, the latest first. -/
def receding (n : ℕ) : List Call := (List.range n).map fun i : ℕ => call (-(i / 200)) (.int 500) i

theorem counts_receding (n : ℕ) : ((receding n).map Call.count).Nodup := by
  have hcounts : (receding n).map Call.count = List.range n := by
    rw [receding, List.map_map]
    exact List.map_id' _
  rw [hcounts]
  exact List.nodup_range

theorem timestamp_receding {n : ℕ} {pair : String × String} {k : Connection}
    (hk : k ∈ connections textRuntime.toRuntime pair (receding n)) : k.timestamp ≤ 0 := by
  obtain ⟨c, hc, hconnection⟩ := mem_connections hk
  obtain ⟨i, -, rfl⟩ := List.mem_map.mp hc
  rw [(connection_eq_some hconnection).2.2.1]
  exact neg_nonpos.mpr (div_nonneg (Nat.cast_nonneg i) (by norm_num))

/-! ## Floods -/

/-- However the calls are ordered, the flood decision is exact: pruning and the cap do not change it. -/
theorem flood_iff (rt : ConnRuntime) (calls : List Call) (hcounts : (calls.map Call.count).Nodup)
    (sourceIp destIp : String) (pair : String × String)
    (hpair : safePair rt.toRuntime sourceIp destIp = some pair) (t : ℚ)
    (hlast : ∀ k ∈ connections rt.toRuntime pair calls, k.timestamp ≤ t) :
    (isDdosVolumetric rt.toRuntime {} (calls.foldl (serve rt.toRuntime {}) noKeys) sourceIp destIp t).1 = true ↔
      1000 ≤ (within 10 t (connections rt.toRuntime pair calls)).length := by
  have hcap : 1000 ≤ maxTrackedTimestampsPerPair := by decide
  rw [ddos_eq hpair (redis_run ⟨_, _, hpair⟩ calls) ddosWindow_lt_retention hlast
    (connections_counts _ _ hcounts), decide_eq_true_eq]
  change ((1000 : ℕ) : ℤ) ≤ _ ↔ _
  rw [Nat.cast_le, le_min_iff, and_iff_right hcap]

/-- Twelve and a half minutes of calls, in the wrong order and far beyond the cap. -/
theorem flood_iff_receding :
    (isDdosVolumetric textRuntime.toRuntime {}
        ((receding 150000).foldl (serve textRuntime.toRuntime {}) noKeys) "10.0.0.5" "127.0.0.1" 0).1 = true ↔
      1000 ≤ (within 10 0
        (connections textRuntime.toRuntime ("10.0.0.5", "127.0.0.1") (receding 150000))).length :=
  flood_iff textRuntime (receding 150000) (counts_receding _) "10.0.0.5" "127.0.0.1" _ safePair_call 0
    fun _ hk => timestamp_receding hk

/-! ## Exfiltration -/

/-- The exfiltration decision is exact when the bytes in the window are below the threshold, or those of the
latest entries that the cap leaves reach it. -/
theorem exfil_exact_iff (rt : ConnRuntime) (calls : List Call) (hcounts : (calls.map Call.count).Nodup)
    (sourceIp destIp : String) (pair : String × String)
    (hpair : safePair rt.toRuntime sourceIp destIp = some pair) (t : ℚ)
    (hlast : ∀ k ∈ connections rt.toRuntime pair calls, k.timestamp ≤ t) :
    ((isBulkExfil rt.toRuntime {} (calls.foldl (serve rt.toRuntime {}) noKeys) sourceIp destIp t).1 = true ↔
        PyFloat.le (.fin 1000000)
          (totalBytes (within 600 t (connections rt.toRuntime pair calls))) = true) ↔
      PyFloat.le (.fin 1000000)
          (totalBytes (within 600 t (connections rt.toRuntime pair calls))) = false ∨
        PyFloat.le (.fin 1000000) (totalBytes (latest rt.toRuntime maxTrackedTimestampsPerPair
          (within 600 t (connections rt.toRuntime pair calls)))) = true := by
  have hkept : PyFloat.le (.fin 1000000) (totalBytes (latest rt.toRuntime maxTrackedTimestampsPerPair
        (within 600 t (connections rt.toRuntime pair calls)))) = true →
      PyFloat.le (.fin 1000000) (totalBytes (within 600 t (connections rt.toRuntime pair calls))) = true :=
    le_totalBytes_of_latest fun k hk => connections_nonneg _ _ _ k (List.mem_of_mem_filter hk)
  rw [exfil_eq hpair (redis_run ⟨_, _, hpair⟩ calls) exfilWindow_lt_retention hlast
    (connections_counts _ _ hcounts)]
  dsimp only
  constructor
  · intro hexact
    cases htotal : PyFloat.le (.fin 1000000)
        (totalBytes (within 600 t (connections rt.toRuntime pair calls))) with
    | false => exact Or.inl rfl
    | true => exact Or.inr (hexact.mpr htotal)
  · rintro (hfew | hlatest)
    · rw [hfew]
      exact iff_of_false (fun h => by simpa [hfew] using hkept h) Bool.false_ne_true
    · exact iff_of_true hlatest (hkept hlatest)

theorem exfil_exact_iff_receding :
    ((isBulkExfil textRuntime.toRuntime {}
          ((receding 150000).foldl (serve textRuntime.toRuntime {}) noKeys) "10.0.0.5" "127.0.0.1" 0).1 = true ↔
        PyFloat.le (.fin 1000000) (totalBytes (within 600 0
          (connections textRuntime.toRuntime ("10.0.0.5", "127.0.0.1") (receding 150000)))) = true) ↔
      PyFloat.le (.fin 1000000) (totalBytes (within 600 0
          (connections textRuntime.toRuntime ("10.0.0.5", "127.0.0.1") (receding 150000)))) = false ∨
        PyFloat.le (.fin 1000000) (totalBytes (latest textRuntime.toRuntime maxTrackedTimestampsPerPair
          (within 600 0 (connections textRuntime.toRuntime ("10.0.0.5", "127.0.0.1")
            (receding 150000))))) = true :=
  exfil_exact_iff textRuntime (receding 150000) (counts_receding _) "10.0.0.5" "127.0.0.1" _ safePair_call 0
    fun _ hk => timestamp_receding hk

theorem latest_cons {k : Connection} {ks : List Connection}
    (h : ∀ k' ∈ ks, k.entry rt.toRuntime ≤ k'.entry rt.toRuntime) :
    (latest rt.toRuntime ks.length (k :: ks)).Perm ks := by
  rw [latest, List.insertionSort_cons_of_forall_rel _ h, List.length_cons, Nat.add_sub_cancel_left]
  exact List.perm_insertionSort _ ks

def fillers (n : ℕ) : List Call := (List.range n).map fun i => call 1 (.float (.fin 0)) (i + 1)

/-- A connection of one megabyte, and `n` without bytes a second later. -/
def hidden (n : ℕ) : List Call := call 0 (.float (.fin 1000000)) 0 :: fillers n

def megabyte : Connection := ⟨("10.0.0.5", "127.0.0.1"), 0, 0, .fin 1000000⟩

def filler (i : ℕ) : Connection := ⟨("10.0.0.5", "127.0.0.1"), 1, i + 1, .fin 0⟩

theorem connection_filler (i : ℕ) :
    connection textRuntime.toRuntime (call 1 (.float (.fin 0)) (i + 1)) = some (filler i) := by
  have hbytes : safeBytes textRuntime.toRuntime (.float (.fin 0)) = .ok (.fin 0) := rfl
  simp only [connection, call, safePair_call, hbytes]
  rfl

theorem connections_hidden (n : ℕ) :
    connections textRuntime.toRuntime ("10.0.0.5", "127.0.0.1") (hidden n) =
      megabyte :: (List.range n).map filler := by
  have hfirst : connection textRuntime.toRuntime (call 0 (.float (.fin 1000000)) 0) = some megabyte := by
    have hbytes : safeBytes textRuntime.toRuntime (.float (.fin 1000000)) = .ok (.fin 1000000) := rfl
    simp only [connection, call, safePair_call, hbytes]
    rfl
  have hrest : (fillers n).filterMap (connection textRuntime.toRuntime) = (List.range n).map filler := by
    rw [fillers, List.filterMap_map, ← List.filterMap_eq_map]
    apply List.filterMap_congr
    intro i _
    rw [Function.comp_apply, connection_filler, Function.comp_apply]
  rw [connections, hidden, List.filterMap_cons_some hfirst, hrest, List.filter_eq_self]
  intro k hk
  rcases List.mem_cons.mp hk with rfl | hk
  · rfl
  · obtain ⟨i, -, rfl⟩ := List.mem_map.mp hk
    rfl

theorem totalBytes_cons (k : Connection) (ks : List Connection) :
    totalBytes (k :: ks) = k.bytes + totalBytes ks :=
  List.sum_cons

theorem totalBytes_fillers (n : ℕ) : totalBytes ((List.range n).map filler) = 0 := by
  refine List.sum_eq_zero fun x hx => ?_
  obtain ⟨k, hk, rfl⟩ := List.mem_map.mp hx
  obtain ⟨i, -, rfl⟩ := List.mem_map.mp hk
  rfl

theorem counts_hidden (n : ℕ) : ((hidden n).map Call.count).Nodup := by
  have hcounts : (hidden n).map Call.count = 0 :: (List.range n).map (· + 1) := by
    simp [hidden, fillers, call]
  rw [hcounts, List.nodup_cons]
  exact ⟨by simp, List.nodup_range.map (add_left_injective 1)⟩

theorem ordered_hidden (n : ℕ) : (hidden n).Pairwise (·.timestamp ≤ ·.timestamp) := by
  rw [hidden, List.pairwise_cons, fillers]
  constructor
  · intro c hc
    obtain ⟨i, -, rfl⟩ := List.mem_map.mp hc
    exact zero_le_one
  · exact List.pairwise_map.mpr (List.pairwise_of_forall fun _ _ => le_rfl)

theorem timestamp_hidden {n : ℕ} {k : Connection} (hk : k ∈ megabyte :: (List.range n).map filler) :
    1 - 600 ≤ k.timestamp ∧ k.timestamp ≤ 1 := by
  rcases List.mem_cons.mp hk with rfl | hk
  · norm_num [megabyte]
  · obtain ⟨i, -, rfl⟩ := List.mem_map.mp hk
    norm_num [filler]

theorem totalBytes_hidden (n : ℕ) : totalBytes (megabyte :: (List.range n).map filler) = .fin 1000000 := by
  rw [totalBytes_cons, totalBytes_fillers, add_zero]
  rfl

theorem totalBytes_latest_hidden (n : ℕ) :
    totalBytes (latest textRuntime.toRuntime n (megabyte :: (List.range n).map filler)) = 0 := by
  have hleast : ∀ k ∈ (List.range n).map filler,
      megabyte.entry textRuntime.toRuntime ≤ k.entry textRuntime.toRuntime := by
    intro k hk
    obtain ⟨i, -, rfl⟩ := List.mem_map.mp hk
    exact Prod.Lex.toLex_le_toLex.mpr (Or.inl zero_lt_one)
  have hperm := latest_cons hleast
  rw [List.length_map, List.length_range] at hperm
  rw [← totalBytes_fillers n]
  exact (hperm.map Connection.bytes).sum_eq

/-- Five thousand connections without bytes hide a megabyte. -/
theorem fillers_hide_exfil :
    ¬ ∀ (rt : ConnRuntime) (calls : List Call), (calls.map Call.count).Nodup →
      calls.Pairwise (·.timestamp ≤ ·.timestamp) →
      ∀ (sourceIp destIp : String) (pair : String × String),
        safePair rt.toRuntime sourceIp destIp = some pair → ∀ t : ℚ,
        (∀ k ∈ connections rt.toRuntime pair calls, k.timestamp ≤ t) →
        ((isBulkExfil rt.toRuntime {} (calls.foldl (serve rt.toRuntime {}) noKeys) sourceIp destIp t).1 = true ↔
          PyFloat.le (.fin 1000000)
            (totalBytes (within 600 t (connections rt.toRuntime pair calls))) = true) := by
  intro h
  set n := maxTrackedTimestampsPerPair with hn
  have hks := connections_hidden n
  have hlast : ∀ k ∈ connections textRuntime.toRuntime ("10.0.0.5", "127.0.0.1") (hidden n),
      k.timestamp ≤ 1 := by
    rw [hks]
    exact fun k hk => (timestamp_hidden hk).2
  have hall : within 600 1 (megabyte :: (List.range n).map filler) = megabyte :: (List.range n).map filler := by
    apply List.filter_eq_self.mpr
    intro k hk
    simpa using timestamp_hidden hk
  have hexact :=
    h textRuntime (hidden n) (counts_hidden n) (ordered_hidden n) "10.0.0.5" "127.0.0.1" _ safePair_call 1 hlast
  rw [exfil_eq safePair_call (redis_run ⟨_, _, safePair_call⟩ _) exfilWindow_lt_retention hlast
    (connections_counts _ _ (counts_hidden n)), hks] at hexact
  dsimp only at hexact
  rw [hall, totalBytes_hidden, ← hn, totalBytes_latest_hidden] at hexact
  exact absurd (hexact.mpr (by decide +kernel)) (by decide +kernel)

/-! ## Agreement of the flood and exfiltration checks -/

/-- The two trackers give the same flood and exfiltration results along exactly the runs in which no infinite
byte count of a pair leaves the window. -/
theorem checks_agree_iff (rt : ConnRuntime) (calls : List Call) (hcounts : (calls.map Call.count).Nodup)
    (hordered : ∀ pair, Ordered (connections rt.toRuntime pair calls))
    (hcap : AtEach (Uncapped rt.toRuntime {}) calls) :
    AtEach (fun before c => checks rt.toRuntime {} before c = Fast.checks rt.toRuntime {} before c) calls ↔
      AtEach (fun before c => ∀ k, connection rt.toRuntime c = some k →
        ¬ LostInfinity 600 k.timestamp (connections rt.toRuntime k.pair (before ++ [c]))) calls := by
  refine atEach_congr fun before c hbegins => ?_
  have hsound : Sound rt.toRuntime (before ++ [c]) := Sound.ofPrefix ⟨hcounts, hordered⟩ hbegins
  cases hc : connection rt.toRuntime c with
  | none => exact iff_of_true (checks_none hc) nofun
  | some k =>
      rw [checks_agree hc ddosWindow_lt_retention exfilWindow_lt_retention hsound (hcap before c hbegins)]
      simp only [Option.some.injEq, forall_eq']

def apart (bytes : PyFloat) : List Call := [call 0 (.float bytes) 0, call 601 (.float (.fin 2000000)) 1]

theorem apart_ordered (bytes : PyFloat) :
    ∀ pair, Ordered (connections textRuntime.toRuntime pair (apart bytes)) := fun pair =>
  connections_pairwise _ pair (by norm_num [apart, call])

theorem apart_uncapped (bytes : PyFloat) : AtEach (Uncapped textRuntime.toRuntime {}) (apart bytes) :=
  uncapped_of_length _ _ (by norm_num [apart, maxTrackedTimestampsPerPair])

theorem checks_agree_iff_apart :
    AtEach (fun before c =>
        checks textRuntime.toRuntime {} before c = Fast.checks textRuntime.toRuntime {} before c)
          (apart (.fin 5)) ↔
      AtEach (fun before c => ∀ k, connection textRuntime.toRuntime c = some k →
        ¬ LostInfinity 600 k.timestamp (connections textRuntime.toRuntime k.pair (before ++ [c])))
          (apart (.fin 5)) :=
  checks_agree_iff textRuntime (apart (.fin 5)) (by decide) (apart_ordered _) (apart_uncapped _)

/-- An infinite byte count that has left the window makes the running sum NaN. -/
theorem infinite_bytes_disagree :
    ¬ ∀ (rt : ConnRuntime) (calls : List Call), (calls.map Call.count).Nodup →
      calls.Pairwise (·.timestamp ≤ ·.timestamp) → calls.length ≤ maxTrackedTimestampsPerPair →
      AtEach (fun before c => checks rt.toRuntime {} before c = Fast.checks rt.toRuntime {} before c) calls := by
  intro h
  have hsame := h textRuntime (apart (.inf false)) (by decide) (by norm_num [apart, call])
    (by norm_num [apart, maxTrackedTimestampsPerPair]) [call 0 (.float (.inf false)) 0]
    (call 601 (.float (.fin 2000000)) 1) (List.prefix_refl _)
  have htracker : (checks textRuntime.toRuntime {} [call 0 (.float (.inf false)) 0]
      (call 601 (.float (.fin 2000000)) 1)).toOption.map (·.2.1) = some true := by
    decide +kernel
  have hfast : (Fast.checks textRuntime.toRuntime {} [call 0 (.float (.inf false)) 0]
      (call 601 (.float (.fin 2000000)) 1)).toOption.map (·.2.1) = some false := by
    decide +kernel
  have hdecisions := congrArg (fun result => result.toOption.map (·.2.1)) hsame
  rw [htracker, hfast] at hdecisions
  cases hdecisions

/-! ## Agreement of the beacon checks -/

structure Admissible (p : Settings) : Prop where
  ddosWindow : 0 < p.ddosWindowSeconds
  beaconWindow : 0 < p.beaconWindowSeconds
  exfilWindow : 0 < p.exfilWindowSeconds
  minInterval : 0 < p.beaconMinIntervalSeconds
  maxCv : 0 < p.beaconMaxCv
  ddosLongest : p.ddosWindowSeconds ≤ p.beaconWindowSeconds
  exfilLongest : p.exfilWindowSeconds ≤ p.beaconWindowSeconds
  observations : 2 ≤ p.beaconMinObservations

theorem admissible_default : Admissible {} where
  ddosWindow := by norm_num
  beaconWindow := by norm_num
  exfilWindow := by norm_num
  minInterval := by norm_num
  maxCv := by norm_num
  ddosLongest := by norm_num
  exfilLongest := by norm_num
  observations := by norm_num

/-- In a run whose every event finds too few connections for a decision, or all of them in the window at
timestamps of their own, the two trackers decide the same after every event. -/
theorem beacon_agrees_of_steady (rt : ConnRuntime) (p : Settings) (hp : Admissible p)
    (calls : List Call) (hcounts : (calls.map Call.count).Nodup)
    (hordered : ∀ pair, Ordered (connections rt.toRuntime pair calls))
    (hcap : AtEach (Uncapped rt.toRuntime p) calls)
    (hsteady : AtEach (fun before c => ∀ k, connection rt.toRuntime c = some k →
      Steady p k.timestamp (connections rt.toRuntime k.pair (before ++ [c]))) calls) :
    AtEach (fun before c => beacon rt.toRuntime p before c = Fast.beacon rt.toRuntime p before c) calls := by
  have hlongest : p.retentionSeconds = p.beaconWindowSeconds := by
    rw [Settings.retentionSeconds, max_eq_right hp.ddosLongest, max_eq_left hp.exfilLongest]
  intro before c hbegins
  have hsound : Sound rt.toRuntime (before ++ [c]) := Sound.ofPrefix ⟨hcounts, hordered⟩ hbegins
  cases hc : connection rt.toRuntime c with
  | none => exact beacon_none hc
  | some k =>
      exact beacon_agrees hc hlongest hp.observations hsound (hcap before c hbegins)
        (hsteady before c hbegins k hc)

def polled : List Call :=
  [call 0 (.float (.fin 0)) 0, call 10 (.float (.fin 0)) 1, call 20 (.float (.fin 0)) 2]

theorem polled_ordered : ∀ pair, Ordered (connections textRuntime.toRuntime pair polled) := fun pair =>
  connections_pairwise _ pair (by norm_num [polled, call])

theorem polled_steady : AtEach (fun before c => ∀ k, connection textRuntime.toRuntime c = some k →
    Steady {} k.timestamp (connections textRuntime.toRuntime k.pair (before ++ [c]))) polled := by
  have hstrict : polled.Pairwise (·.timestamp < ·.timestamp) := by norm_num [polled, call]
  have hrange : ∀ c ∈ polled, 0 ≤ c.timestamp ∧ c.timestamp ≤ 20 := by norm_num [polled, call]
  intro before c hbegins k hk
  refine Or.inr ⟨fun k' hk' => ?_, connections_pairwise _ _ (hstrict.sublist hbegins.sublist)⟩
  obtain ⟨c', hc', hk'⟩ := mem_connections hk'
  have hlast := (hrange c (hbegins.subset (by simp))).2
  have hfirst := (hrange c' (hbegins.subset hc')).1
  rw [(connection_eq_some hk).2.2.1, (connection_eq_some hk').2.2.1]
  change c.timestamp - 21600 < c'.timestamp
  linarith

theorem beacon_agrees_of_steady_polled :
    AtEach (fun before c =>
      beacon textRuntime.toRuntime {} before c = Fast.beacon textRuntime.toRuntime {} before c) polled :=
  beacon_agrees_of_steady textRuntime {} admissible_default polled (by decide) polled_ordered
    (uncapped_of_length _ _ (by decide)) polled_steady

def doubled : List Call :=
  [call 0 (.float (.fin 0)) 0, call 0 (.float (.fin 0)) 1, call 10 (.float (.fin 0)) 2]

/-- An interval of length zero counts for one tracker only. -/
theorem zero_interval_disagrees :
    ¬ ∀ (rt : ConnRuntime) (p : Settings), Admissible p → ∀ (pair : String × String) (calls : List Call),
      (∀ c ∈ calls, safePair rt.toRuntime c.sourceIp c.destIp = some pair) → (calls.map Call.count).Nodup →
      calls.Pairwise (·.timestamp ≤ ·.timestamp) → calls.length ≤ maxTrackedTimestampsPerPair →
      AtEach (fun before c => beacon rt.toRuntime p before c = Fast.beacon rt.toRuntime p before c) calls := by
  intro h
  have hsame := h textRuntime {} admissible_default ("10.0.0.5", "127.0.0.1")
    (doubled ++ [call 20 (.float (.fin 0)) 3]) (by decide +kernel) (by decide) (by norm_num [doubled, call])
    (by decide) doubled (call 20 (.float (.fin 0)) 3) (List.prefix_refl _)
  have htracker : (beacon textRuntime.toRuntime {} doubled (call 20 (.float (.fin 0)) 3)).toOption =
      some false := by
    decide +kernel
  have hfast : (Fast.beacon textRuntime.toRuntime {} doubled (call 20 (.float (.fin 0)) 3)).toOption =
      some true := by
    decide +kernel
  have hdecisions := congrArg Except.toOption hsame
  rw [htracker, hfast] at hdecisions
  cases hdecisions

end NeuralSoc.Conn
