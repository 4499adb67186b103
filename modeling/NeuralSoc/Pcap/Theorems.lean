import NeuralSoc.Pcap.Lemmas.Originators
import NeuralSoc.Pcap.Lemmas.Packets

/-!
# The bytes and the packets a replayed capture reports
-/

namespace NeuralSoc.Pcap

/-- The `conn` events of a replay carry each pair's originator bytes once exactly when no packet that
triggers a periodic emission belongs to a flow: what it emits stays open and is emitted again. -/
theorem bytes_once_iff (capture : List Packet) :
    (∀ src dst, emittedBytes src dst (ingestPcap capture) = originatorBytes src dst capture) ↔
      ∀ pre p post, capture = pre ++ p :: post → 500 ∣ pre.length + 1 → p.key? = none := by
  rw [← repeatedBytes_eq_zero]
  constructor
  · intro h src dst
    have heq := h src dst
    rw [emittedBytes_ingestPcap] at heq
    omega
  · intro h src dst
    rw [emittedBytes_ingestPcap, h src dst, Nat.add_zero]

/-- A capture without a periodic emission reports what the first sender of each conversation has sent. -/
theorem short_capture_exact (src dst : Address) {capture : List Packet} (h : capture.length < 500) :
    emittedBytes src dst (ingestPcap capture) = firstSenderBytes src dst capture := by
  have hfew : FewFlows capture := by
    have hkeys : (flowKeys capture).length ≤ capture.length := List.length_filterMap_le ..
    have hdistinct := (List.dedup_sublist (flowKeys capture)).length_le
    rw [FewFlows, maxFlows]
    omega
  have hzero : repeatedBytes src dst capture = 0 := by
    refine (repeatedBytes_eq_zero capture).mpr ?_ src dst
    rintro pre p post rfl hdvd
    rw [List.length_append, List.length_cons] at h
    have hle := Nat.le_of_dvd (Nat.succ_pos _) hdvd
    omega
  rw [emittedBytes_ingestPcap, hzero, Nat.add_zero, originatorBytes_eq src dst hfew]

def segment : Packet where
  len := 40
  time := 0
  ip := some ⟨10, 11, none, some (.tcp, 4444, 80)⟩
  header := fun _ => by decide

theorem replay_counts_twice : emittedBytes 10 11 (ingestPcap (List.replicate 500 segment)) = 40000 ∧
    originatorBytes 10 11 (List.replicate 500 segment) = 20000 := by
  decide +kernel

/-- The table never holds more than its cap, and the last events of all flows together count every packet once. -/
theorem packets_conserved (capture : List Packet) :
    Always Ingest.packet (fun s => s.flows.entries.length ≤ maxFlows) .start capture ∧
      closedPackets (ingestPcap capture) = capture.countP Packet.isCounted := by
  have hstart : Bounded .start := Nat.zero_le _
  have hall : Each Ingest.packet (fun _ _ => True) .start capture := each_of_forall fun _ _ _ => trivial
  refine ⟨Each.always (P := Bounded) (fun s p h _ => packet_bounded h p) hstart hall, ?_⟩
  rw [ingestPcap, closedPackets_finish, replay_packets]
  exact Nat.zero_add _

end NeuralSoc.Pcap
