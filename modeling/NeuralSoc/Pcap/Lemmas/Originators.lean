import NeuralSoc.Pcap.Lemmas.Bytes
import Mathlib.Data.List.Dedup
import Mathlib.Data.List.Induction

/-!
# Who the originator of a flow is

As long as there are no more flows than the table holds, nothing is evicted, and the packet that opens a flow is
the first one of its conversation in the capture.
-/

namespace NeuralSoc.Pcap

def flowKeys (capture : List Packet) : List FlowKey := capture.filterMap Packet.key?

def FlowKey.converses (k j : FlowKey) : Bool := j = k || j = k.reverse

/-- The key of the first packet between the two ends, in either direction. -/
def opener (k : FlowKey) (capture : List Packet) : Option FlowKey := (flowKeys capture).find? k.converses

theorem FlowKey.reverse_reverse (k : FlowKey) : k.reverse.reverse = k := rfl

theorem FlowKey.converses_reverse (k j : FlowKey) : k.reverse.converses j = k.converses j := by
  rw [converses, converses, reverse_reverse, Bool.or_comm]

theorem opener_reverse (k : FlowKey) (capture : List Packet) : opener k.reverse capture = opener k capture := by
  rw [opener, opener, funext (FlowKey.converses_reverse k)]

theorem opener_cases {k j : FlowKey} {capture : List Packet} (h : opener k capture = some j) :
    j = k ∨ j = k.reverse := by
  simpa [FlowKey.converses] using List.find?_some h

theorem opener_append {p : Packet} {k : FlowKey} (hp : p.key? = some k) (j : FlowKey) (pre : List Packet) :
    opener j (pre ++ [p]) = (opener j pre).or (if j.converses k then some k else none) := by
  rw [opener, flowKeys, List.filterMap_append, List.find?_append]
  simp only [List.filterMap_cons, hp, List.filterMap_nil, List.find?_cons, List.find?_nil]
  cases j.converses k <;> rfl

/-! ## The keys of the table -/

/-- The open flows are those of the first packets. -/
def Opened (s : Ingest) (pre : List Packet) : Prop :=
  ∀ k, (s.flows.get? k).isSome = true ↔ opener k pre = some k

theorem Opened.length_le {s : Ingest} {pre : List Packet} (h : Opened s pre) :
    s.flows.entries.length ≤ (flowKeys pre).dedup.length := by
  rw [← List.length_map Prod.fst]
  refine (List.subperm_of_subset s.flows.nodup fun k hk => ?_).length_le
  exact List.mem_dedup.mpr (List.mem_of_find?_eq_some ((h k).mp (Dict.get?_isSome.mpr hk)))

theorem evict_of_le {s : Ingest} (h : s.flows.entries.length ≤ maxFlows) : s.evict.flows = s.flows := by
  have hnone : oldest s.flows = [] := by rw [oldest, Nat.sub_eq_zero_of_le h, List.take_zero]
  rw [Ingest.evict, hnone]
  rfl

theorem account_keys (k : FlowKey) (len : ℕ) (time : ℚ) (flows : Dict FlowKey Flow) (j : FlowKey) :
    ((account k len time flows).get? j).isSome = true ↔
      (flows.get? j).isSome = true ∨ j = k ∧ flows.get? k.reverse = none := by
  rw [account]
  split
  · rename_i f hf
    rw [Dict.get?_set]
    split
    · rename_i hj
      simp [hj, hf]
    · simp [hf]
  · rename_i hf
    rw [Dict.get?_set]
    split
    · rename_i hj
      simp [hj, hf]
    · rename_i hj
      simp [hj]

theorem Opened.get?_reverse {s : Ingest} {pre : List Packet} (h : Opened s pre) (k : FlowKey) :
    s.flows.get? k.reverse = none ↔ opener k pre ≠ some k.reverse := by
  rw [← opener_reverse, ← not_iff_not, ← Ne, Option.ne_none_iff_isSome, h k.reverse, not_not]

theorem opened_account {s : Ingest} {pre : List Packet} (h : Opened s pre) {p : Packet} {k : FlowKey}
    (hp : p.key? = some k) {flows : Dict FlowKey Flow}
    (hflows : flows = account k p.len p.time s.flows) (j : FlowKey) :
    (flows.get? j).isSome = true ↔ opener j (pre ++ [p]) = some j := by
  rw [hflows, account_keys, h j, h.get?_reverse, opener_append hp]
  cases hj : opener j pre with
  | some i =>
      simp only [Option.some_or, Option.some.injEq]
      constructor
      · rintro (hi | ⟨rfl, hother⟩)
        · exact hi
        · rcases opener_cases hj with rfl | rfl
          · rfl
          · exact absurd hj hother
      · exact Or.inl
  | none =>
      simp only [reduceCtorEq, false_or, Option.none_or, Option.ite_none_right_eq_some, Option.some.injEq]
      constructor
      · rintro ⟨rfl, -⟩
        exact ⟨by simp [FlowKey.converses], rfl⟩
      · rintro ⟨-, rfl⟩
        exact ⟨rfl, by rw [hj]; nofun⟩

/-- The table has room for all the flows of the capture. -/
def FewFlows (capture : List Packet) : Prop := (flowKeys capture).dedup.length ≤ maxFlows

theorem FewFlows.init {capture : List Packet} {p : Packet} (h : FewFlows (capture ++ [p])) :
    FewFlows capture := by
  refine le_trans (List.subperm_of_subset (List.nodup_dedup _) fun k hk => ?_).length_le h
  rw [List.mem_dedup, flowKeys, List.filterMap_append, List.mem_append]
  exact Or.inl (List.mem_dedup.mp hk)

theorem opened_replay (capture : List Packet) (h : FewFlows capture) :
    Opened (capture.foldl Ingest.packet .start) capture := by
  induction capture using List.reverseRecOn with
  | nil => exact fun k => iff_of_false (by simp [Ingest.start, Dict.get?_empty]) nofun
  | append_singleton capture p ih =>
      have hopened := ih h.init
      rw [List.foldl_append, List.foldl_cons, List.foldl_nil]
      cases hp : p.key? with
      | none =>
          obtain ⟨es, -, heq⟩ := packet_of_none hp (capture.foldl Ingest.packet .start)
          intro k
          rw [heq, hopened k, opener, opener, flowKeys, flowKeys, List.filterMap_append,
            List.filterMap_cons, hp, List.filterMap_nil, List.append_nil]
      | some k =>
          obtain ⟨es, -, heq⟩ := packet_of_some hp (capture.foldl Ingest.packet .start)
          let s : Ingest := ⟨account k p.len p.time (capture.foldl Ingest.packet .start).flows,
            (capture.foldl Ingest.packet .start).packetCount + 1,
            (capture.foldl Ingest.packet .start).sent ++ es⟩
          have hs : Opened s (capture ++ [p]) := opened_account hopened hp rfl
          intro j
          rw [heq, evict_of_le, emitOpen_flows]
          · exact hs j
          · rw [emitOpen_flows]
            exact hs.length_le.trans h

/-! ## The bytes of the originators -/

/-- The bytes of the packets that go the way of the first packet of their conversation. -/
def firstSenderBytes (src dst : Address) (capture : List Packet) : ℕ :=
  sumAlong (fun pre p => pre ++ [p]) (fun pre p =>
    match p.key? with
    | none => 0
    | some k => if k.src = src ∧ k.dst = dst ∧ opener k pre ≠ some k.reverse then p.len else 0) [] capture

theorem foldl_concat {α : Type} (xs ys : List α) : xs.foldl (fun pre x => pre ++ [x]) ys = ys ++ xs := by
  induction xs generalizing ys with
  | nil => simp
  | cons x xs ih => rw [List.foldl_cons, ih, List.append_assoc, List.singleton_append]

theorem originatorBytes_eq (src dst : Address) {capture : List Packet} (h : FewFlows capture) :
    originatorBytes src dst capture = firstSenderBytes src dst capture := by
  induction capture using List.reverseRecOn with
  | nil => rfl
  | append_singleton capture p ih =>
      have hbefore := ih h.init
      rw [originatorBytes, firstSenderBytes] at hbefore ⊢
      rw [sumAlong_concat, sumAlong_concat, hbefore, foldl_concat, List.nil_append, originBytes]
      cases hp : p.key? with
      | none => rfl
      | some k => simp only [(opened_replay capture h.init).get?_reverse k]

end NeuralSoc.Pcap
