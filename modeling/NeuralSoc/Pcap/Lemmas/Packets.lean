import NeuralSoc.Pcap.Lemmas.Bytes

/-!
# The packets of a replay

Every counted packet is in one flow: in the table, or closed by an eviction. A key that is its own
reverse is counted once as well.
-/

namespace NeuralSoc.Pcap

/-! ## Packets counted -/

/-- An IP packet with TCP or UDP that is not oversized. -/
def Packet.isCounted (p : Packet) : Bool := p.len ≤ maxPacketBytes && p.ip.any (·.layer.isSome)

theorem isCounted_eq (p : Packet) : p.isCounted = p.key?.isSome := by
  rw [Packet.isCounted, Packet.key?]
  split
  · rename_i h
    rw [decide_eq_false (Nat.not_le.mpr h)]
    rfl
  · rename_i h
    rw [decide_eq_true (Nat.not_lt.mp h), Bool.true_and]
    cases p.ip with
    | none => rfl
    | some ip => exact (Option.isSome_map ..).symm

/-- Both directions. -/
def Flow.packets (f : Flow) : ℕ := f.origPkts + f.respPkts

/-- Only the last event of a flow has no start time. -/
def Emission.closedPackets : Emission → ℕ
  | .conn f none => f.packets
  | _ => 0

def closedPackets (es : List Emission) : ℕ := (es.map Emission.closedPackets).sum

theorem closedPackets_append (es es' : List Emission) :
    closedPackets (es ++ es') = closedPackets es + closedPackets es' := by
  simp [closedPackets]

theorem closedPackets_of_zero {es : List Emission} (h : ∀ e ∈ es, e.closedPackets = 0) :
    closedPackets es = 0 := by
  rw [closedPackets, List.map_congr_left h]
  simp

theorem closedPackets_of_noConn {es : List Emission} (h : NoConn es) : closedPackets es = 0 := by
  refine closedPackets_of_zero fun e he => ?_
  cases e with
  | conn f time => exact absurd he (h f time)
  | dns _ _ _ _ => rfl
  | dnsResponse _ _ _ _ _ => rfl

/-! ## One packet -/

theorem sum_packets_account (k : FlowKey) (len : ℕ) (time : ℚ) (flows : Dict FlowKey Flow) :
    (account k len time flows).sum Flow.packets = flows.sum Flow.packets + 1 := by
  rw [account]
  split
  · rename_i f hf
    have hset := flows.sum_set Flow.packets k.reverse (f.addResp len time)
    have hadd : (f.addResp len time).packets = f.packets + 1 := rfl
    rw [hf, Option.elim_some, hadd] at hset
    omega
  · have hset := flows.sum_set Flow.packets k (((flows.get? k).getD (newFlow k time)).addOrig len time)
    have hadd : ∀ f : Flow, (f.addOrig len time).packets = f.packets + 1 := fun f => Nat.add_right_comm ..
    have hold : ((flows.get? k).getD (newFlow k time)).packets = (flows.get? k).elim 0 Flow.packets := by
      cases flows.get? k <;> rfl
    rw [hadd, hold] at hset
    omega

theorem closedPackets_emitOpen (s : Ingest) : closedPackets s.emitOpen.sent = closedPackets s.sent := by
  rw [Ingest.emitOpen]
  split
  · have hopen : ∀ e ∈ s.flows.values.map fun f => Emission.conn f (some f.startTime), e.closedPackets = 0 := by
      intro e he
      obtain ⟨f, -, rfl⟩ := List.mem_map.mp he
      rfl
    rw [Ingest.send, closedPackets_append, closedPackets_of_zero hopen, Nat.add_zero]
  · rfl

/-- The packets of the flows that are closed and of those that are open. -/
def Ingest.packets (s : Ingest) : ℕ := closedPackets s.sent + s.flows.sum Flow.packets

theorem packets_evict (s : Ingest) : s.evict.packets = s.packets := by
  have hsum := ((evict_entries s.flows).map fun e => e.2.packets).sum_eq
  have hclosed : closedPackets ((oldest s.flows).map fun e => .conn e.2 none) =
      ((oldest s.flows).map fun e => e.2.packets).sum := by
    simp only [closedPackets, List.map_map, Function.comp_def, Emission.closedPackets]
  rw [List.map_append, List.sum_append] at hsum
  simp only [Ingest.packets, Dict.sum_eq_entries, Ingest.evict, closedPackets_append, hclosed]
  omega

theorem packet_packets (s : Ingest) (p : Packet) :
    (s.packet p).packets = s.packets + if p.isCounted then 1 else 0 := by
  rw [isCounted_eq]
  cases hk : p.key? with
  | none =>
      obtain ⟨es, hes, heq⟩ := packet_of_none hk s
      rw [heq, Ingest.packets, closedPackets_append, closedPackets_of_noConn hes]
      rfl
  | some k =>
      obtain ⟨es, hes, heq⟩ := packet_of_some hk s
      rw [heq, packets_evict, Ingest.packets, emitOpen_flows, closedPackets_emitOpen, sum_packets_account,
        closedPackets_append, closedPackets_of_noConn hes, Ingest.packets]
      exact (Nat.add_assoc ..).symm

/-! ## The table -/

def Bounded (s : Ingest) : Prop := s.flows.entries.length ≤ maxFlows

/-- An eviction makes room for all that is over the cap, not for one flow only. -/
theorem bounded_evict (s : Ingest) : Bounded s.evict := by
  have hsplit := (evict_entries s.flows).length_eq
  have hevicted : (oldest s.flows).length = s.flows.entries.length - maxFlows := by
    rw [oldest, List.length_take, List.length_mergeSort]
    omega
  rw [List.length_append, hevicted] at hsplit
  rw [Bounded, Ingest.evict]
  dsimp only
  omega

theorem packet_bounded {s : Ingest} (h : Bounded s) (p : Packet) : Bounded (s.packet p) := by
  cases hk : p.key? with
  | none =>
      obtain ⟨es, -, heq⟩ := packet_of_none hk s
      rw [heq]
      exact h
  | some k =>
      obtain ⟨es, -, heq⟩ := packet_of_some hk s
      rw [heq]
      exact bounded_evict _

/-! ## The whole capture -/

theorem replay_packets (capture : List Packet) (s : Ingest) :
    (capture.foldl Ingest.packet s).packets = s.packets + capture.countP Packet.isCounted := by
  induction capture generalizing s with
  | nil => rfl
  | cons p capture ih =>
      rw [List.foldl_cons, ih, packet_packets, List.countP_cons]
      omega

theorem closedPackets_finish (s : Ingest) : closedPackets s.finish = s.packets := by
  rw [Ingest.finish, closedPackets_append]
  simp only [closedPackets, List.map_map, Function.comp_def, Emission.closedPackets]
  rfl

end NeuralSoc.Pcap
