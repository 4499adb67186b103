import NeuralSoc.Sink.Lemmas.DeadLetters
import NeuralSoc.Sink.Lemmas.Isolation

/-!
# The guarantees of the Kafka sink
-/

namespace NeuralSoc.Sink

/-! ## Samples -/

def partition (n : ℕ) : TopicPartition := ⟨"security_alerts", n⟩

def sampleAlert (id : String) : Object :=
  [("alert_id", .str id), ("event_type", .str "network_flow"), ("timestamp", .str "2026-01-01T00:00:00Z"),
    ("threat_class", .str "DDoS"), ("severity", .str "high"), ("confidence_score", .float (.fin (9 / 10))),
    ("source_ip", .str "10.0.0.5")]

def sampleMessage (offset : ℕ) (alert : Object) : Message := ⟨partition 0, offset, 300, some (.obj alert)⟩

def smoothCycle (messages : List Message) : CycleEnv where
  poll := .ok messages
  now := 10
  later := 10
  endpoint := fun _ => .ok []
  commit := fun _ => .ok ()
  evacuationCommit := .ok ()
  staleCommit := .ok ()
  panicCommit := .ok ()

theorem increasing_of_two_polls {a b : ℕ} (hab : a < b) {rest : List Event}
    (hrest : ∀ tp o, .polled tp o ∉ rest) :
    AtEach Increasing (.polled (partition 0) a :: .polled (partition 0) b :: rest) := by
  have hpolls : AtEach Increasing ([] ++ [.polled (partition 0) a] ++ [.polled (partition 0) b]) := by
    refine atEach_concat.mpr ⟨atEach_concat.mpr ⟨atEach_nil, nofun⟩, fun o ho => ?_⟩
    cases List.mem_singleton.mp ho
    exact hab
  refine hpolls.append fun e he pre => ?_
  cases e with
  | polled tp o => exact absurd he (hrest tp o)
  | _ => trivial

/-! ## At least once -/

/-- Whatever the polls, the endpoint and the broker do: what is committed lies behind settled messages
only, and no commit is behind an earlier one. -/
theorem committed_messages_settled (rt : Runtime) (now : ℚ) (inputs : List Input)
    (hpolls : AtEach Increasing (inputs.foldl (step rt) (.start now)).log) :
    AtEach Covered (inputs.foldl (step rt) (.start now)).log ∧
      AtEach Forward (inputs.foldl (step rt) (.start now)).log := by
  have h := run_invariant inputs (start_invariant now) hpolls
  exact ⟨h.1.covered, h.1.forward⟩

def smoothRun : List Input :=
  [.cycle (smoothCycle [sampleMessage 3 (sampleAlert "ALT-1"), ⟨partition 0, 4, 7, none⟩])]

def smoothLog : List Event :=
  [.polled (partition 0) 3, .polled (partition 0) 4, .discarded (partition 0) 4,
    .attempted [⟨sampleAlert "ALT-1", partition 0, 3⟩], .accepted (partition 0) 3,
    .committed [(partition 0, 4)], .committed [(partition 0, 5)]]

theorem smoothRun_log : (smoothRun.foldl (step plainRuntime) (.start 0)).log = smoothLog := by
  decide +kernel

theorem smoothLog_increasing : AtEach Increasing smoothLog :=
  increasing_of_two_polls (by decide) (by simp)

theorem committed_messages_settled_smooth : AtEach Covered smoothLog ∧ AtEach Forward smoothLog := by
  have h := smoothLog_increasing
  rw [← smoothRun_log] at h ⊢
  exact committed_messages_settled plainRuntime 0 smoothRun h

/-! ## Poison -/

/-- No message of a batch decides the fate of the others exactly when every trace id is falsy or a text,
every payload that is sent has a finite confidence, and every partition has a message that is invalid or
not replaced by a later one. -/
theorem poison_isolated_iff (rt : Runtime) (hextract : ExtractsTexts rt) (batch : List Item) :
    PoisonIsolated rt batch ↔ Harmless rt batch := by
  unfold PoisonIsolated
  cases ht : batch.findSome? (linkFailure rt) with
  | some e =>
      rw [processBatch_crash _ ht]
      refine iff_of_false (by simp) fun h => ?_
      rw [(linked_iff hextract).mpr h.traced] at ht
      cases ht
  | none =>
      have htrace := (linked_iff hextract).mp ht
      cases he : encodable rt batch with
      | false =>
          rw [processBatch_not_encodable ht he]
          refine iff_of_false ?_ fun h => ?_
          · rintro ⟨offsets, events, heq, hiso⟩
            cases heq
            obtain ⟨it, hit⟩ := exists_mem_of_not_encodable he
            obtain ⟨o, ho⟩ := hiso.advanced it hit
            cases ho
          · rw [encodable_iff.mpr h.finite] at he
            cases he
      | true =>
          rw [processBatch_encodable ht he]
          have hadv := isolated_iff_advanced rt batch
          simp only [exists_finalOffsets_iff] at hadv
          constructor
          · rintro ⟨offsets, events, heq, hiso⟩
            cases heq
            exact ⟨htrace, encodable_iff.mp he, hadv.mp hiso⟩
          · intro h
            exact ⟨_, _, rfl, hadv.mpr h.advanced⟩

def healthy : Item := ⟨sampleAlert "ALT-1", partition 0, 0⟩

def numberedTrace : Item := ⟨(sampleAlert "ALT-2").set "trace_id" (.int 5), partition 0, 1⟩

def nanConfidence : Item := ⟨(sampleAlert "ALT-3").set "confidence_score" (.float .nan), partition 0, 1⟩

theorem poison_isolated_iff_numbered :
    PoisonIsolated plainRuntime [healthy, numberedTrace] ↔ Harmless plainRuntime [healthy, numberedTrace] :=
  poison_isolated_iff plainRuntime (fun x => by cases h : x.isStr <;> simp [plainRuntime, h]) [healthy, numberedTrace]

/-- A number as trace id makes `process_batch` raise; NaN as confidence keeps the healthy alert from being
sent. -/
theorem poison_spreads : ¬ PoisonIsolated plainRuntime [healthy, numberedTrace] ∧
    ¬ PoisonIsolated plainRuntime [healthy, nanConfidence] := by
  constructor
  · rintro ⟨offsets, events, h, -⟩
    have hcrash : (processBatch plainRuntime (ingestViaApi acceptAll) [healthy, numberedTrace]).1.isOk =
        false := by decide +kernel
    rw [h] at hcrash
    cases hcrash
  · rintro ⟨offsets, events, h, hiso⟩
    have hnone : ((processBatch plainRuntime (ingestViaApi acceptAll)
        [healthy, nanConfidence]).1.toOption.bind (·.get? (partition 0))) = none := by decide +kernel
    rw [h] at hnone
    obtain ⟨o, ho⟩ := hiso.advanced healthy List.mem_cons_self
    cases ho.symm.trans hnone

/-! ## Dead letters -/

/-- Once a batch has left the sink, its invalid messages were written exactly once if and only if none of
them was in an attempt that failed: each failed attempt writes them again. -/
theorem dead_lettered_once_iff (rt : Runtime) (now : ℚ) (inputs : List Input) (batch : List Item)
    (hpolls : AtEach Increasing (inputs.foldl (step rt) (.start now)).log)
    (hattempted : .attempted batch ∈ (inputs.foldl (step rt) (.start now)).log)
    (hleft : ∀ it ∈ batch, it ∉ (inputs.foldl (step rt) (.start now)).batch) :
    (∀ it ∈ batch, invalid rt it = true → writes (inputs.foldl (step rt) (.start now)).log it = 1) ↔
      ∀ it ∈ batch, invalid rt it = true →
        failedAttempts (inputs.foldl (step rt) (.start now)).log it = 0 := by
  have h := run_counted inputs (start_invariant now) (start_counted rt now) hpolls
  have hcount : ∀ it ∈ batch, invalid rt it = true →
      writes (inputs.foldl (step rt) (.start now)).log it =
        failedAttempts (inputs.foldl (step rt) (.start now)).log it + 1 :=
    fun it hit hbad => h.1.left batch hattempted it hit (hleft it hit) hbad
  constructor
  · intro hones it hit hbad
    have hsum := hcount it hit hbad
    rw [hones it hit hbad] at hsum
    exact (Nat.succ.inj hsum).symm
  · intro hzeros it hit hbad
    rw [hcount it hit hbad, hzeros it hit hbad]

def incomplete : Item := ⟨[("alert_id", .str "ALT-0")], partition 0, 0⟩

def retriedBatch : List Item := [incomplete, ⟨sampleAlert "ALT-1", partition 0, 1⟩]

/-- The endpoint answers at the second attempt only. -/
def retriedRun : List Input :=
  [.cycle { smoothCycle [sampleMessage 0 incomplete.data, sampleMessage 1 (sampleAlert "ALT-1")] with
      endpoint := fun _ => .error ⟨.other, "503 Server Error"⟩ },
    .cycle { smoothCycle [] with now := 20 }]

def rejected : Event := .dlq (partition 0) 0 incomplete.data (plainRuntime.validationText incomplete.data)

def retriedLog : List Event :=
  [.polled (partition 0) 0, .polled (partition 0) 1, .attempted retriedBatch, rejected,
    .retained retriedBatch, .attempted retriedBatch, rejected, .accepted (partition 0) 1,
    .committed [(partition 0, 2)]]

theorem retriedRun_log : (retriedRun.foldl (step plainRuntime) (.start 0)).log = retriedLog := by
  decide +kernel

theorem retriedRun_batch : (retriedRun.foldl (step plainRuntime) (.start 0)).batch = [] := by
  decide +kernel

theorem dead_lettered_once_iff_retried :
    (∀ it ∈ retriedBatch, invalid plainRuntime it = true → writes retriedLog it = 1) ↔
      ∀ it ∈ retriedBatch, invalid plainRuntime it = true → failedAttempts retriedLog it = 0 := by
  have hpolls : AtEach Increasing retriedLog :=
    increasing_of_two_polls (by decide) (by simp [rejected])
  have h := dead_lettered_once_iff plainRuntime 0 retriedRun retriedBatch
  rw [retriedRun_log, retriedRun_batch] at h
  exact h hpolls (by simp [retriedLog]) fun _ _ => List.not_mem_nil

/-- One failed attempt, and the invalid message is in the DLQ twice. -/
theorem retried_message_written_twice :
    (retriedRun.foldl (step plainRuntime) (.start 0)).log = retriedLog ∧
      (retriedRun.foldl (step plainRuntime) (.start 0)).batch = [] ∧
      failedAttempts retriedLog incomplete = 1 ∧ writes retriedLog incomplete = 2 ∧
      ¬ ∀ it ∈ retriedBatch, invalid plainRuntime it = true → writes retriedLog it = 1 := by
  have htwice : writes retriedLog incomplete = 2 := by decide +kernel
  have hbad : invalid plainRuntime incomplete = true := by decide +kernel
  refine ⟨retriedRun_log, retriedRun_batch, by decide +kernel, htwice, fun h => ?_⟩
  have hone := h incomplete List.mem_cons_self hbad
  rw [htwice] at hone
  cases hone

end NeuralSoc.Sink
