import NeuralSoc.Conn.Lemmas.Members

/-!
# What the sorted set of a pair has kept

Pruning by timestamp does not reach a late enough part of the set, and the cap takes the least entries first:
of every such part the set holds the latest ones.
-/

namespace NeuralSoc.Conn

variable {rt : ConnRuntime} {p : Settings} {ks : List Connection}

/-! ## The run of one pair -/

/-- The entries of a pair after its connections have been written one after the other. -/
def recordAll (rt : Runtime) (p : Settings) (ks : List Connection) : SortedSet ℚ String :=
  ks.foldl (fun s k => write p k.timestamp (member rt k.timestamp k.count k.bytes) s) .empty

theorem recordAll_concat (rt : Runtime) (p : Settings) (ks : List Connection) (k : Connection) :
    recordAll rt p (ks ++ [k]) =
      write p k.timestamp (member rt k.timestamp k.count k.bytes) (recordAll rt p ks) := by
  rw [recordAll, List.foldl_append]
  rfl

theorem connections_concat (rt : Runtime) (pair : String × String) (calls : List Call) (c : Call) :
    connections rt pair (calls ++ [c]) =
      connections rt pair calls ++ (connection rt c).toList.filter (·.pair = pair) := by
  rw [connections, List.filterMap_append, List.filter_append]
  cases h : connection rt c with
  | none => simp [connections, h]
  | some k => simp [connections, h]

def Valid (rt : ConnRuntime) (pair : String × String) : Prop :=
  ∃ sourceIp destIp, safePair rt.toRuntime sourceIp destIp = some pair

theorem Valid.key_inj {pair pair' : String × String} (h : Valid rt pair) (h' : Valid rt pair')
    (hkey : pairKey pair = pairKey pair') : pair = pair' := by
  obtain ⟨_, _, hpair⟩ := h
  obtain ⟨_, _, hpair'⟩ := h'
  obtain ⟨h₁, h₂⟩ := safePair_eq_some hpair
  obtain ⟨h₁', h₂'⟩ := safePair_eq_some hpair'
  exact pairKey_inj h₁ h₂ h₁' h₂' hkey

theorem record_eq (p : Settings) (c : Call) (redis : Redis) :
    serve rt.toRuntime p redis c = match connection rt.toRuntime c with
      | none => redis
      | some k => Function.update redis (pairKey k.pair)
          (write p k.timestamp (member rt.toRuntime k.timestamp k.count k.bytes) (redis (pairKey k.pair))) := by
  unfold serve Call.record recordConnection connection
  cases safePair rt.toRuntime c.sourceIp c.destIp with
  | none => rfl
  | some pair =>
      cases safeBytes rt.toRuntime c.origBytes with
      | error e => rfl
      | ok bytes => rfl

theorem connection_eq_some {rt : Runtime} {c : Call} {k : Connection} (h : connection rt c = some k) :
    safePair rt c.sourceIp c.destIp = some k.pair ∧ safeBytes rt c.origBytes = .ok k.bytes ∧
      k.timestamp = c.timestamp ∧ k.count = c.count := by
  unfold connection at h
  cases hpair : safePair rt c.sourceIp c.destIp with
  | none =>
      rw [hpair] at h
      cases h
  | some pair =>
      cases hbytes : safeBytes rt c.origBytes with
      | error e =>
          rw [hpair, hbytes] at h
          cases h
      | ok bytes =>
          rw [hpair, hbytes] at h
          cases h
          exact ⟨rfl, rfl, rfl, rfl⟩

theorem connection_valid {c : Call} {k : Connection} (h : connection rt.toRuntime c = some k) :
    Valid rt k.pair :=
  ⟨_, _, (connection_eq_some h).1⟩

theorem redis_run {pair : String × String} (hpair : Valid rt pair) (calls : List Call) :
    calls.foldl (serve rt.toRuntime p) noKeys (pairKey pair) =
      recordAll rt.toRuntime p (connections rt.toRuntime pair calls) := by
  induction calls using List.reverseRecOn with
  | nil => rfl
  | append_singleton calls c ih =>
      rw [List.foldl_append, List.foldl_cons, List.foldl_nil, record_eq, connections_concat]
      cases hc : connection rt.toRuntime c with
      | none => simpa using ih
      | some k =>
          dsimp only
          by_cases hsame : k.pair = pair
          · subst hsame
            rw [Function.update_self, ih]
            simp [recordAll_concat]
          · have hkey : pairKey pair ≠ pairKey k.pair := fun hkey =>
              hsame (hpair.key_inj (connection_valid hc) hkey).symm
            rw [Function.update_of_ne hkey, ih]
            simp [hsame]

/-! ## Distinct members -/

theorem entry_inj {k k' : Connection} (h : k.entry rt.toRuntime = k'.entry rt.toRuntime) :
    k.count = k'.count :=
  member_count (congrArg (fun e => (ofLex e).2) h)

theorem entries_distinct (rt : ConnRuntime) (hcounts : (ks.map Connection.count).Nodup) :
    (ks.map (Connection.entry rt.toRuntime)).Nodup := by
  rw [List.nodup_iff_pairwise_ne, List.pairwise_map] at hcounts ⊢
  exact hcounts.imp fun hne h => hne (entry_inj h)

theorem entries_subset (rt : Runtime) (p : Settings) (ks : List Connection) :
    ∀ e ∈ (recordAll rt p ks).entries, e ∈ ks.map (Connection.entry rt) := by
  induction ks using List.reverseRecOn with
  | nil => exact fun e he => nomatch he
  | append_singleton ks k ih =>
      intro e he
      rw [recordAll_concat] at he
      have hadded := (SortedSet.mem_of_mem_removeUpTo (SortedSet.mem_of_mem_keepLast he)).1
      rw [List.map_append, List.mem_append]
      rcases SortedSet.mem_zadd_entries.mp hadded with rfl | ⟨hold, -⟩
      · exact Or.inr (List.mem_singleton_self _)
      · exact Or.inl (ih e hold)

theorem member_fresh {k : Connection} (hcounts : ((ks ++ [k]).map Connection.count).Nodup) :
    member rt.toRuntime k.timestamp k.count k.bytes ∉ recordAll rt.toRuntime p ks := by
  intro hmem
  obtain ⟨t, ht⟩ := SortedSet.mem_iff.mp hmem
  obtain ⟨k', hk', hentry⟩ := List.mem_map.mp (entries_subset rt.toRuntime p ks _ ht)
  have hcount : k'.count = k.count := member_count (congrArg (fun e => (ofLex e).2) hentry)
  rw [List.map_append, List.nodup_append'] at hcounts
  exact hcounts.2.2 (List.mem_map_of_mem hk') (by simp [hcount])

/-! ## The latest entries -/

theorem write_entries {s : SortedSet ℚ String} {t : ℚ} {m : String} (hfresh : m ∉ s) (U : Entry → Prop)
    [DecidablePred U] (hupper : ∀ a b, a ≤ b → U a → U b)
    (hprune : ∀ e, U e → t - p.retentionSeconds < (ofLex e).1) :
    (write p t m s).entries.toFinset.filter U =
      greatest maxTrackedTimestampsPerPair ((insert (toLex (t, m)) s.entries.toFinset).filter U) := by
  have hkept : ∀ a : Finset Entry,
      (a.filter fun e => t - p.retentionSeconds < (ofLex e).1).filter U = a.filter U := fun a => by
    rw [Finset.filter_filter]
    exact Finset.filter_congr fun e _ => and_iff_right_of_imp (hprune e)
  rw [write, SortedSet.keepLast_entries, filter_greatest U hupper, SortedSet.removeUpTo_entries, hkept,
    SortedSet.zadd_entries hfresh]

theorem greatest_greatest (n : ℕ) (a : Finset Entry) : greatest n (greatest n a) = greatest n a :=
  greatest_of_card_le ((card_greatest n a).trans_le (min_le_left _ _))

theorem recordAll_entries (U : Entry → Prop) [DecidablePred U] (hupper : ∀ a b, a ≤ b → U a → U b)
    (hprune : ∀ k ∈ ks, ∀ e, U e → k.timestamp - p.retentionSeconds < (ofLex e).1)
    (hcounts : (ks.map Connection.count).Nodup) :
    (recordAll rt.toRuntime p ks).entries.toFinset.filter U =
      greatest maxTrackedTimestampsPerPair
        ((ks.map (Connection.entry rt.toRuntime)).toFinset.filter U) := by
  induction ks using List.reverseRecOn with
  | nil => simp [recordAll, SortedSet.empty, greatest]
  | append_singleton ks k ih =>
      have hbefore : (ks.map Connection.count).Nodup := by
        rw [List.map_append] at hcounts
        exact hcounts.of_append_left
      have hall : ((ks ++ [k]).map (Connection.entry rt.toRuntime)).toFinset =
          insert (k.entry rt.toRuntime) (ks.map (Connection.entry rt.toRuntime)).toFinset := by
        ext e
        simp
      have ih := ih (fun k hk => hprune k (List.mem_append_left _ hk)) hbefore
      rw [recordAll_concat, write_entries (member_fresh hcounts) U hupper (hprune k (by simp)), hall,
        Finset.filter_insert, Finset.filter_insert, ih]
      change greatest _ (if U (k.entry rt.toRuntime) then insert (k.entry rt.toRuntime) _ else _) = _
      split
      · exact greatest_insert_greatest _ _ _
      · exact greatest_greatest _ _

theorem latest_map (rt : Runtime) (n : ℕ) (ks : List Connection) :
    (latest rt n ks).map (Connection.entry rt) =
      ((ks.map (Connection.entry rt)).insertionSort (· ≤ ·)).drop (ks.length - n) := by
  have hsort := List.map_insertionSort (fun a b : Connection => a.entry rt ≤ b.entry rt) (· ≤ ·)
    (Connection.entry rt) ks fun _ _ _ _ => Iff.rfl
  rw [latest, List.map_drop, hsort]

theorem sorted_strict (hcounts : (ks.map Connection.count).Nodup) :
    ((ks.map (Connection.entry rt.toRuntime)).insertionSort (· ≤ ·)).Pairwise (· < ·) := by
  have hdistinct := (List.perm_insertionSort (· ≤ ·) _).nodup_iff.mpr (entries_distinct rt hcounts)
  exact ((List.pairwise_insertionSort (· ≤ ·) _).and hdistinct).imp fun h => lt_of_le_of_ne h.1 h.2

theorem latest_strict (n : ℕ) (hcounts : (ks.map Connection.count).Nodup) :
    ((latest rt.toRuntime n ks).map (Connection.entry rt.toRuntime)).Pairwise (· < ·) := by
  rw [latest_map]
  exact (sorted_strict hcounts).sublist (List.drop_sublist _ _)

theorem latest_toFinset (n : ℕ) (hcounts : (ks.map Connection.count).Nodup) :
    ((latest rt.toRuntime n ks).map (Connection.entry rt.toRuntime)).toFinset =
      greatest n (ks.map (Connection.entry rt.toRuntime)).toFinset := by
  have hperm := List.perm_insertionSort (· ≤ ·) (ks.map (Connection.entry rt.toRuntime))
  have hlength : ks.length = ((ks.map (Connection.entry rt.toRuntime)).insertionSort (· ≤ ·)).length := by
    rw [hperm.length_eq, List.length_map]
  rw [latest_map, hlength, toFinset_drop (sorted_strict hcounts), List.toFinset_eq_of_perm _ _ hperm]

theorem eq_of_strict {a b : List Entry} (ha : a.Pairwise (· < ·)) (hb : b.Pairwise (· < ·))
    (h : a.toFinset = b.toFinset) : a = b :=
  List.Perm.eq_of_pairwise (fun _ _ _ _ hxy hyx => absurd hyx hxy.not_gt) ha hb
    (List.perm_of_nodup_nodup_toFinset_eq (ha.imp ne_of_lt) (hb.imp ne_of_lt) h)

/-- A part of the set that is given by the timestamps holds the latest connections of that part. -/
theorem recordAll_filter (late : ℚ → Prop) [DecidablePred late] (hlate : ∀ s t, s ≤ t → late s → late t)
    (hprune : ∀ k ∈ ks, ∀ t, late t → k.timestamp - p.retentionSeconds < t)
    (hcounts : (ks.map Connection.count).Nodup) :
    (recordAll rt.toRuntime p ks).entries.filter (fun e => late (ofLex e).1) =
      (latest rt.toRuntime maxTrackedTimestampsPerPair (ks.filter (late ·.timestamp))).map
        (Connection.entry rt.toRuntime) := by
  have hupper : ∀ a b : Entry, a ≤ b → late (ofLex a).1 → late (ofLex b).1 := fun a b hab =>
    hlate _ _ (Prod.Lex.monotone_fst a b hab)
  have hpart : ((ks.filter (late ·.timestamp)).map Connection.count).Nodup :=
    hcounts.sublist (List.filter_sublist.map _)
  have hset : ((ks.filter (late ·.timestamp)).map (Connection.entry rt.toRuntime)).toFinset =
      (ks.map (Connection.entry rt.toRuntime)).toFinset.filter fun e => late (ofLex e).1 := by
    ext e
    simp only [Finset.mem_filter, List.mem_toFinset, List.mem_map, List.mem_filter, decide_eq_true_eq]
    constructor
    · rintro ⟨k, ⟨hk, he⟩, rfl⟩
      exact ⟨⟨k, hk, rfl⟩, he⟩
    · rintro ⟨⟨k, hk, rfl⟩, he⟩
      exact ⟨k, ⟨hk, he⟩, rfl⟩
  refine eq_of_strict ((recordAll rt.toRuntime p ks).entries_strict.filter _) (latest_strict _ hpart) ?_
  rw [latest_toFinset _ hpart, hset, List.toFinset_filter]
  simp only [decide_eq_true_eq]
  exact recordAll_entries _ hupper (fun k hk e => hprune k hk _) hcounts

end NeuralSoc.Conn
