import NeuralSoc.Base.Runs
import NeuralSoc.Pcap.Ingester

/-!
# The bytes of a replay

What each packet adds to the bytes of the events sent and of the flows that are open. Closing a flow
moves its bytes from one to the other; a periodic emission adds the bytes of the open flows to the
first and takes none from the second.
-/

namespace NeuralSoc.Pcap

/-! ## The bytes of a pair of hosts -/

def Flow.origFor (src dst : Address) (f : Flow) : ℕ :=
  if f.origH = src ∧ f.respH = dst then f.origBytes else 0

def Emission.origFor (src dst : Address) : Emission → ℕ
  | .conn f _ => f.origFor src dst
  | .dns .. => 0
  | .dnsResponse .. => 0

def emittedBytes (src dst : Address) (es : List Emission) : ℕ := (es.map (Emission.origFor src dst)).sum

/-- The flow key of a packet that the flow table counts. -/
def Packet.key? (p : Packet) : Option FlowKey :=
  if maxPacketBytes < p.len then none else p.ip.bind Ip.key?

/-- The originator of a flow sent the packet that opened it; a packet of the pair is from the
originator unless its flow is open the other way round. -/
def originBytes (src dst : Address) (s : Ingest) (p : Packet) : ℕ :=
  match p.key? with
  | none => 0
  | some k => if k.src = src ∧ k.dst = dst ∧ s.flows.get? k.reverse = none then p.len else 0

def originatorBytes (src dst : Address) (capture : List Packet) : ℕ :=
  sumAlong Ingest.packet (originBytes src dst) .start capture

/-- The bytes of the flows that are emitted at a packet and stay open. -/
def repeatBytes (src dst : Address) (s : Ingest) (p : Packet) : ℕ :=
  match p.key? with
  | none => 0
  | some k =>
      if (s.packetCount + 1) % 500 = 0 then (account k p.len p.time s.flows).sum (Flow.origFor src dst)
      else 0

theorem emittedBytes_append (src dst : Address) (es es' : List Emission) :
    emittedBytes src dst (es ++ es') = emittedBytes src dst es + emittedBytes src dst es' := by
  simp [emittedBytes]

theorem emittedBytes_conns (src dst : Address) (fs : List Flow) (time : Flow → Option ℚ) :
    emittedBytes src dst (fs.map fun f => .conn f (time f)) = (fs.map (Flow.origFor src dst)).sum := by
  simp only [emittedBytes, List.map_map, Function.comp_def, Emission.origFor]

/-- Events of the extractors. -/
def NoConn (es : List Emission) : Prop := ∀ f time, .conn f time ∉ es

theorem noConn_dnsEvent (ip : Ip) : NoConn (dnsEvent ip).toList := by
  intro f time he
  rw [Option.mem_toList, dnsEvent] at he
  cases hdns : ip.dns with
  | none => simp [hdns] at he
  | some dns =>
      simp only [hdns, extractDnsEvent, extractDnsResponseEvent] at he
      split at he
      · split at he
        · cases he
        · obtain ⟨q, -, hq⟩ := Option.map_eq_some_iff.mp he
          cases hq
      · split at he
        · cases he
        · obtain ⟨q, -, hq⟩ := Option.map_eq_some_iff.mp he
          cases hq

theorem emittedBytes_of_noConn (src dst : Address) {es : List Emission} (h : NoConn es) :
    emittedBytes src dst es = 0 := by
  have hno : ∀ e ∈ es, e.origFor src dst = 0 := by
    intro e he
    cases e with
    | conn f time => exact absurd he (h f time)
    | dns _ _ _ _ => rfl
    | dnsResponse _ _ _ _ _ => rfl
  rw [emittedBytes, List.map_congr_left hno]
  simp

/-! ## The flow table -/

/-- The records carry the hosts of their keys, and the originator has sent something. -/
def Keyed (flows : Dict FlowKey Flow) : Prop :=
  ∀ k f, flows.get? k = some f → f.origH = k.src ∧ f.respH = k.dst ∧ 0 < f.origBytes

theorem keyed_set {flows : Dict FlowKey Flow} (h : Keyed flows) {k : FlowKey} {f : Flow}
    (hf : f.origH = k.src ∧ f.respH = k.dst ∧ 0 < f.origBytes) : Keyed (flows.set k f) := by
  intro j g hg
  rw [Dict.get?_set] at hg
  split at hg
  · rename_i hj
    cases hg
    rwa [hj]
  · exact h j g hg

theorem getD_hosts {flows : Dict FlowKey Flow} (h : Keyed flows) (k : FlowKey) (time : ℚ) :
    ((flows.get? k).getD (newFlow k time)).origH = k.src ∧
      ((flows.get? k).getD (newFlow k time)).respH = k.dst := by
  cases hk : flows.get? k with
  | none => exact ⟨rfl, rfl⟩
  | some f => exact ⟨(h k f hk).1, (h k f hk).2.1⟩

theorem keyed_account {flows : Dict FlowKey Flow} (h : Keyed flows) (k : FlowKey) {len : ℕ}
    (hlen : 0 < len) (time : ℚ) : Keyed (account k len time flows) := by
  rw [account]
  split
  · rename_i f hf
    exact keyed_set h (h _ f hf)
  · obtain ⟨hsrc, hdst⟩ := getD_hosts h k time
    exact keyed_set h ⟨hsrc, hdst, Nat.add_pos_right _ hlen⟩

theorem sum_account (src dst : Address) {flows : Dict FlowKey Flow} (h : Keyed flows) (k : FlowKey)
    (len : ℕ) (time : ℚ) : (account k len time flows).sum (Flow.origFor src dst) =
      flows.sum (Flow.origFor src dst) +
        if k.src = src ∧ k.dst = dst ∧ flows.get? k.reverse = none then len else 0 := by
  cases hr : flows.get? k.reverse with
  | some f =>
      have hset := flows.sum_set (Flow.origFor src dst) k.reverse (f.addResp len time)
      have hsame : (f.addResp len time).origFor src dst = f.origFor src dst := rfl
      rw [hr, Option.elim_some, hsame] at hset
      simp only [account, hr, reduceCtorEq, and_false, ↓reduceIte]
      omega
  | none =>
      have hset := flows.sum_set (Flow.origFor src dst) k
        (((flows.get? k).getD (newFlow k time)).addOrig len time)
      obtain ⟨hsrc, hdst⟩ := getD_hosts h k time
      have hadd : (((flows.get? k).getD (newFlow k time)).addOrig len time).origFor src dst =
          (flows.get? k).elim 0 (Flow.origFor src dst) +
            if k.src = src ∧ k.dst = dst then len else 0 := by
        simp only [Flow.origFor, Flow.addOrig, hsrc, hdst]
        cases hk : flows.get? k with
        | none => simp [newFlow]
        | some f =>
            obtain ⟨hfsrc, hfdst, -⟩ := h k f hk
            simp only [Option.getD_some, Option.elim_some, Flow.origFor, hfsrc, hfdst]
            split <;> rfl
      simp only [account, hr, and_true]
      omega

/-- A counted packet leaves its flow in the table, with bytes of its originator. -/
theorem account_nonempty {flows : Dict FlowKey Flow} (h : Keyed flows) (k : FlowKey) {len : ℕ}
    (hlen : 0 < len) (time : ℚ) : ∃ f ∈ (account k len time flows).values, 0 < f.origBytes := by
  have hkeyed := keyed_account h k hlen time
  have hopen : ∃ j f, (account k len time flows).get? j = some f := by
    rw [account]
    split
    · exact ⟨k.reverse, _, by rw [Dict.get?_set, if_pos rfl]⟩
    · exact ⟨k, _, by rw [Dict.get?_set, if_pos rfl]⟩
  obtain ⟨j, f, hj⟩ := hopen
  exact ⟨f, Dict.mem_values.mpr ⟨j, hj⟩, (hkeyed j f hj).2.2⟩

/-! ## Eviction -/

theorem evict_entries (flows : Dict FlowKey Flow) :
    (oldest flows ++ ((oldest flows).foldl (fun flows e => flows.erase e.1) flows).entries).Perm
      flows.entries := by
  let sorted := flows.entries.mergeSort fun a b => a.2.startTime ≤ b.2.startTime
  have hperm : sorted.Perm flows.entries := List.mergeSort_perm ..
  have hnodup : (sorted.map Prod.fst).Nodup := (hperm.map Prod.fst).nodup_iff.mpr flows.nodup
  have hsplit : oldest flows ++ sorted.drop (flows.entries.length - maxFlows) = sorted :=
    List.take_append_drop ..
  have hdisj : ∀ e ∈ sorted.drop (flows.entries.length - maxFlows),
      e.1 ∉ (oldest flows).map Prod.fst := by
    intro e he hmem
    rw [← hsplit, List.map_append] at hnodup
    exact (List.nodup_append.mp hnodup).2.2 e.1 hmem e.1 (List.mem_map_of_mem he) rfl
  have hkept : (sorted.filter fun e => e.1 ∉ (oldest flows).map Prod.fst) =
      sorted.drop (flows.entries.length - maxFlows) := by
    conv_lhs => rw [← hsplit]
    rw [List.filter_append, List.filter_eq_nil_iff.mpr, List.filter_eq_self.mpr, List.nil_append]
    · intro e he
      exact decide_eq_true (hdisj e he)
    · intro e he
      simpa using ⟨e.2, he⟩
  have hfilter := (hperm.filter fun e => e.1 ∉ (oldest flows).map Prod.fst).append_left (oldest flows)
  rw [hkept, hsplit] at hfilter
  rw [Dict.foldl_erase_entries]
  exact hfilter.symm.trans hperm

theorem sum_evict (src dst : Address) (s : Ingest) :
    emittedBytes src dst s.evict.sent + s.evict.flows.sum (Flow.origFor src dst) =
      emittedBytes src dst s.sent + s.flows.sum (Flow.origFor src dst) := by
  have hsum := ((evict_entries s.flows).map fun e => e.2.origFor src dst).sum_eq
  have hconns : emittedBytes src dst ((oldest s.flows).map fun e => .conn e.2 none) =
      ((oldest s.flows).map fun e => e.2.origFor src dst).sum := by
    simp only [emittedBytes, List.map_map, Function.comp_def, Emission.origFor]
  rw [List.map_append, List.sum_append] at hsum
  simp only [Dict.sum_eq_entries, Ingest.evict, emittedBytes_append, hconns]
  omega

theorem evict_packetCount (s : Ingest) : s.evict.packetCount = s.packetCount := by rw [Ingest.evict]

theorem keyed_evict {s : Ingest} (h : Keyed s.flows) : Keyed s.evict.flows := by
  intro k f hf
  refine h k f (Dict.get?_eq_some.mpr ?_)
  have hmem := Dict.get?_eq_some.mp hf
  rw [Ingest.evict, Dict.foldl_erase_entries] at hmem
  exact (List.mem_filter.mp hmem).1

/-! ## One packet -/

theorem emitOpen_flows (s : Ingest) : s.emitOpen.flows = s.flows := by
  rw [Ingest.emitOpen]
  split <;> rfl

theorem emitOpen_packetCount (s : Ingest) : s.emitOpen.packetCount = s.packetCount := by
  rw [Ingest.emitOpen]
  split <;> rfl

theorem emittedBytes_emitOpen (src dst : Address) (s : Ingest) :
    emittedBytes src dst s.emitOpen.sent = emittedBytes src dst s.sent +
      if s.packetCount % 500 = 0 then s.flows.sum (Flow.origFor src dst) else 0 := by
  rw [Ingest.emitOpen]
  split
  · rw [Ingest.send, emittedBytes_append, emittedBytes_conns]
    rfl
  · rfl

/-- A packet that no flow counts may still send DNS events. -/
theorem packet_of_none {p : Packet} (h : p.key? = none) (s : Ingest) :
    ∃ es, NoConn es ∧ s.packet p = ⟨s.flows, s.packetCount + 1, s.sent ++ es⟩ := by
  rw [Packet.key?] at h
  rw [Ingest.packet]
  split at h
  · rename_i hlen
    refine ⟨[], fun _ _ => List.not_mem_nil, ?_⟩
    simp only [hlen, ↓reduceIte, List.append_nil]
  · rename_i hlen
    cases hip : p.ip with
    | none =>
        refine ⟨[], fun _ _ => List.not_mem_nil, ?_⟩
        simp only [hlen, ↓reduceIte, List.append_nil]
    | some ip =>
        rw [hip, Option.bind_some] at h
        refine ⟨(dnsEvent ip).toList, noConn_dnsEvent ip, ?_⟩
        simp only [hlen, h, ↓reduceIte, Ingest.send]

theorem packet_of_some {p : Packet} {k : FlowKey} (h : p.key? = some k) (s : Ingest) :
    ∃ es, NoConn es ∧
      s.packet p = (⟨account k p.len p.time s.flows, s.packetCount + 1, s.sent ++ es⟩ : Ingest).emitOpen.evict := by
  rw [Packet.key?] at h
  split at h
  · cases h
  · rename_i hlen
    obtain ⟨ip, hip, hkey⟩ := Option.bind_eq_some_iff.mp h
    refine ⟨(dnsEvent ip).toList, noConn_dnsEvent ip, ?_⟩
    rw [Ingest.packet]
    simp only [hlen, hip, hkey, ↓reduceIte, Ingest.send]

theorem key_len_pos {p : Packet} {k : FlowKey} (h : p.key? = some k) : 0 < p.len := by
  rw [Packet.key?] at h
  split at h
  · cases h
  · obtain ⟨ip, hip, -⟩ := Option.bind_eq_some_iff.mp h
    have hheader := p.header (by rw [hip]; rfl)
    omega

theorem packet_packetCount (s : Ingest) (p : Packet) : (s.packet p).packetCount = s.packetCount + 1 := by
  cases hk : p.key? with
  | none =>
      obtain ⟨es, -, heq⟩ := packet_of_none hk s
      rw [heq]
  | some k =>
      obtain ⟨es, -, heq⟩ := packet_of_some hk s
      rw [heq, evict_packetCount, emitOpen_packetCount]

theorem packet_keyed {s : Ingest} (h : Keyed s.flows) (p : Packet) : Keyed (s.packet p).flows := by
  cases hk : p.key? with
  | none =>
      obtain ⟨es, -, heq⟩ := packet_of_none hk s
      rw [heq]
      exact h
  | some k =>
      obtain ⟨es, -, heq⟩ := packet_of_some hk s
      rw [heq]
      apply keyed_evict
      rw [emitOpen_flows]
      exact keyed_account h k (key_len_pos hk) p.time

/-- The bytes sent and the bytes of the open flows. -/
def Ingest.bytes (src dst : Address) (s : Ingest) : ℕ :=
  emittedBytes src dst s.sent + s.flows.sum (Flow.origFor src dst)

theorem packet_bytes (src dst : Address) {s : Ingest} (h : Keyed s.flows) (p : Packet) :
    (s.packet p).bytes src dst =
      s.bytes src dst + (originBytes src dst s p + repeatBytes src dst s p) := by
  rw [originBytes, repeatBytes]
  cases hk : p.key? with
  | none =>
      obtain ⟨es, hes, heq⟩ := packet_of_none hk s
      simp only [heq, Ingest.bytes, emittedBytes_append, emittedBytes_of_noConn src dst hes, Nat.add_zero]
  | some k =>
      obtain ⟨es, hes, heq⟩ := packet_of_some hk s
      have haccount := sum_account src dst h k p.len p.time
      rw [heq, Ingest.bytes, sum_evict, emitOpen_flows, emittedBytes_emitOpen, emittedBytes_append,
        emittedBytes_of_noConn src dst hes, Ingest.bytes]
      simp only [haccount, Nat.add_zero]
      omega

/-! ## The whole capture -/

theorem finish_bytes (src dst : Address) (s : Ingest) :
    emittedBytes src dst s.finish = s.bytes src dst := by
  rw [Ingest.finish, emittedBytes_append, emittedBytes_conns]
  rfl

theorem keyed_start : Keyed Ingest.start.flows := by
  intro k f hf
  cases hf

theorem replay_keyed (capture : List Packet) : Keyed (capture.foldl Ingest.packet .start).flows := by
  have hall : ∀ {s : Ingest}, Keyed s.flows → Keyed (capture.foldl Ingest.packet s).flows := by
    induction capture with
    | nil => exact id
    | cons p capture ih => exact fun h => ih (packet_keyed h p)
  exact hall keyed_start

theorem replay_packetCount (capture : List Packet) :
    (capture.foldl Ingest.packet .start).packetCount = capture.length := by
  have hall : ∀ s : Ingest, (capture.foldl Ingest.packet s).packetCount = s.packetCount + capture.length := by
    induction capture with
    | nil => exact fun s => rfl
    | cons p capture ih =>
        intro s
        rw [List.foldl_cons, ih, packet_packetCount, List.length_cons]
        omega
  exact (hall .start).trans (Nat.zero_add _)

def repeatedBytes (src dst : Address) (capture : List Packet) : ℕ :=
  sumAlong Ingest.packet (repeatBytes src dst) .start capture

theorem emittedBytes_ingestPcap (src dst : Address) (capture : List Packet) :
    emittedBytes src dst (ingestPcap capture) =
      originatorBytes src dst capture + repeatedBytes src dst capture := by
  have hrun : (capture.foldl Ingest.packet .start).bytes src dst = Ingest.start.bytes src dst +
      sumAlong Ingest.packet (fun s p => originBytes src dst s p + repeatBytes src dst s p) .start capture :=
    foldl_eq_sumAlong (I := fun s => Keyed s.flows) (fun s p h => packet_keyed h p)
      (fun s p h => packet_bytes src dst h p) keyed_start
  rw [ingestPcap, finish_bytes, hrun, sumAlong_add]
  exact Nat.zero_add _

/-- The flows of a table are for no pair of hosts only when there are none. -/
theorem repeatBytes_eq_zero {s : Ingest} (h : Keyed s.flows) (p : Packet) :
    (∀ src dst, repeatBytes src dst s p = 0) ↔ (500 ∣ s.packetCount + 1 → p.key? = none) := by
  cases hk : p.key? with
  | none => simp only [repeatBytes, hk, implies_true]
  | some k =>
      simp only [repeatBytes, hk, reduceCtorEq, imp_false, Nat.dvd_iff_mod_eq_zero]
      by_cases hmod : (s.packetCount + 1) % 500 = 0
      · simp only [hmod, ↓reduceIte, not_true_eq_false, iff_false, not_forall]
        obtain ⟨f, hf, hpos⟩ := account_nonempty h k (key_len_pos hk) p.time
        refine ⟨f.origH, f.respH, fun hzero => ?_⟩
        have hzero := List.sum_eq_zero_iff_forall_eq_nat.mp hzero _ (List.mem_map_of_mem hf)
        simp only [Flow.origFor, and_self, ↓reduceIte] at hzero
        omega
      · simp only [hmod, ↓reduceIte, implies_true, not_false_eq_true]

theorem repeatedBytes_eq_zero (capture : List Packet) : (∀ src dst, repeatedBytes src dst capture = 0) ↔
    ∀ pre p post, capture = pre ++ p :: post → 500 ∣ pre.length + 1 → p.key? = none := by
  have hstep : ∀ (pre : List Packet) (p : Packet), (∀ src dst, repeatBytes src dst (pre.foldl Ingest.packet .start) p = 0) ↔
      (500 ∣ pre.length + 1 → p.key? = none) := fun pre p => by
    rw [repeatBytes_eq_zero (replay_keyed pre), replay_packetCount]
  simp only [repeatedBytes, sumAlong_eq_zero, each_iff_split]
  constructor
  · intro h pre p post heq
    exact (hstep pre p).mp fun src dst => h src dst pre p post heq
  · intro h src dst pre p post heq
    exact (hstep pre p).mpr (h pre p post heq) src dst

end NeuralSoc.Pcap
