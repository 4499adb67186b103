import NeuralSoc.Delivery.Lemmas.Runs
import NeuralSoc.Dlq.Lemmas.Rotation
import NeuralSoc.Sink.Theorems

/-!
# The guarantees of the delivery

Over polls, failing and delayed requests, failing commits, shutdowns and crashes in any order. The messages of an
alert id are in one partition, and no other sensor of the tenant sends the id. The appends to the dead-letter file
succeed, and none of their lines has been rotated away.
-/

namespace NeuralSoc.Delivery

open Sink

/-- A message that is committed, or that the sink has read and does not hold any more. -/
def Consumed {db : Tenants.Database} (p : Pipeline db) (tp : TopicPartition) (i : ℕ) : Prop :=
  i < committedPosition p.log tp ∨ i < p.position tp ∧ ∀ it ∈ p.sink.batch, it.tp = tp → it.offset ≠ i

theorem Sound.consumed {db : Tenants.Database} {site : Site} {k : String} {tp : TopicPartition} {topic : Topic}
    {Good : ℕ → Option Tenants.Alert → Prop} {p : Pipeline db} {shown : Option Tenants.Alert}
    (h : Sound site k tp topic Good (p.position tp) p.sink p.past shown) {i : ℕ} (hi : Consumed p tp i)
    (hnames : Names site.runtime topic tp k i) : Settled site k tp topic Good p.log shown i := by
  cases hi with
  | inl hcommitted => exact h.resumable i hcommitted hnames
  | inr hread =>
      cases h.unheld i hread.1 hnames with
      | inl hsettled => exact hsettled
      | inr hheld =>
          obtain ⟨it, hit, htp, hoffset⟩ := hheld
          exact absurd hoffset (hread.2 it hit htp)

/-! ## The dead-letter file -/

/-- The calls of `write_to_file_dlq`, the oldest first. -/
def deadLetters (log : List Event) : List Event :=
  log.filter fun e => match e with
    | .dlq .. => true
    | _ => false

section

variable (cfg : Dlq.RotationConfig) (line : ℕ → Event → String) (log : List Event) (files : List Dlq.DiskEvent)

/-- Every call has appended its line, and rotation has dropped none of them. -/
structure Appended : Prop where
  written : (files.foldl (Dlq.Disk.step cfg) .empty).log = (deadLetters log).mapIdx line
  kept : (files.foldl (Dlq.Disk.step cfg) .empty).removed cfg = []

/-- A line of the message is in the dead-letter file or one of its rotated copies. -/
def Filed (tp : TopicPartition) (i : ℕ) : Prop :=
  ∃ n alert error, (deadLetters log)[n]? = some (.dlq tp i alert error) ∧
    line n (.dlq tp i alert error) ∈ (files.foldl (Dlq.Disk.step cfg) .empty).kept cfg

end

theorem DeadLettered.filed {cfg : Dlq.RotationConfig} {line : ℕ → Event → String} {log : List Event}
    {files : List Dlq.DiskEvent} (hcount : 1 ≤ cfg.rotateCount) (happended : Appended cfg line log files)
    {tp : TopicPartition} {i : ℕ} (h : DeadLettered log tp i) : Filed cfg line log files tp i := by
  obtain ⟨alert, error, hmem⟩ := h
  have hcall : .dlq tp i alert error ∈ deadLetters log := List.mem_filter.mpr ⟨hmem, rfl⟩
  obtain ⟨n, hlt, hn⟩ := List.mem_iff_getElem.mp hcall
  have hsuffix := (Dlq.rotated_run hcount files).suffix
  have hkept := Dlq.removed_append_kept hsuffix
  rw [happended.kept, List.nil_append, happended.written] at hkept
  refine ⟨n, alert, error, List.getElem?_eq_some_iff.mpr ⟨hlt, hn⟩, ?_⟩
  rw [hkept]
  exact List.mem_mapIdx.mpr ⟨n, hlt, by rw [hn]⟩

/-! ## Guarantees -/

section

variable (db : Tenants.Database) (site : Site) (k : String) (tp : TopicPartition) (now : ℚ) (actions : List Action)
  (cfg : Dlq.RotationConfig) (line : ℕ → Event → String) (files : List Dlq.DiskEvent)

/-- What the tenant sees under an id is the row of one of its messages, and no consumed message is lost: it or a
later one of the id is in the dead-letter file, or the table has a row of the id. -/
theorem consumed_not_lost (hcount : 1 ≤ cfg.rotateCount)
    (happended : Appended cfg line (actions.foldl (step site) (.start now : Pipeline db)).log files)
    (hsingle : ∀ q i, Names site.runtime (actions.foldl (step site) (.start now : Pipeline db)).topic q k i → q = tp)
    (hforeign : ∀ batch, .ingest site.tenantId batch ∈ actions → ∀ d ∈ batch, d.alertId ≠ k) :
    let p := actions.foldl (step site) (.start now : Pipeline db)
    (∀ a, p.table.view site.tenantId k = some a → ∃ j, messageRow db site p.topic tp j = some a) ∧
      ∀ i, Consumed p tp i → Names site.runtime p.topic tp k i →
        (∃ j, i ≤ j ∧ Names site.runtime p.topic tp k j ∧ Filed cfg line p.log files tp j) ∨
          (p.table.view site.tenantId k).isSome := by
  have h : Invariant site k tp _ (fun _ shown => shown.isSome) (actions.foldl (step site) (.start now : Pipeline db)) :=
    run_invariant hsingle (fun _ _ _ _ _ => rfl) actions rfl hforeign (fun _ _ _ _ _ _ => rfl) (start_invariant now)
  refine ⟨h.origin, fun i hi hnames => ?_⟩
  exact Or.imp_left (fun ⟨j, hle, hj, hdead⟩ => ⟨j, hle, hj, hdead.filed hcount happended⟩)
    (h.sound.consumed hi hnames)

end

def sampleSite : Site := ⟨plainRuntime, 1, fun _ => "surrogates not allowed"⟩

def openDatabase : Tenants.Database := ⟨fun _ => none, "UNIQUE constraint failed", none, id⟩

def sampleRecord (severity : String) : Record :=
  ⟨300, some (.obj ((sampleAlert "ALT-1").set "severity" (.str severity)))⟩

/-- A message of the id that is no alert. -/
def brokenRecord : Record :=
  ⟨300, some (.obj ((sampleAlert "ALT-1").set "severity" .null))⟩

def sampleTurn (polls : ℕ) (outcome : Outcome) (commit : Except Exc Unit) : Turn where
  plan := some (List.replicate polls (partition 0))
  now := 10
  later := 10
  outcome := outcome
  commit := fun _ => commit
  evacuationCommit := .ok ()
  staleCommit := .ok ()
  panicCommit := .ok ()

def producesTo (tp : TopicPartition) : Action → Bool
  | .produce q _ => q = tp
  | _ => true

theorem single_of_produced {actions : List Action} {q : TopicPartition} {i : ℕ}
    (h : actions.all (producesTo (partition 0)) = true)
    (hnames : Names plainRuntime (actions.foldl (step sampleSite) (.start 0 : Pipeline openDatabase)).topic q "ALT-1"
      i) : q = partition 0 := by
  by_contra hq
  have hother : ∀ record, .produce q record ∉ actions := fun record hmem =>
    hq (of_decide_eq_true (List.all_eq_true.mp h _ hmem))
  obtain ⟨data, hdata, -⟩ := hnames
  rw [dataAt, run_topic_of_not_produced sampleSite hother] at hdata
  cases hdata

def sampleRotation : Dlq.RotationConfig := ⟨100, 5⟩

def sampleLine (_ : ℕ) (_ : Event) : String := "severity"

/-- The file is not there yet. -/
def sampleAppends : List Dlq.DiskEvent := [.append "severity", .advance, .advance, .advance]

/-- The request of the first pass is carried out after that of the second, which has a message that is no alert. -/
def delayedRun : List Action :=
  [.produce (partition 0) (sampleRecord "high"), .pass (sampleTurn 1 .delayed (.ok ())),
    .produce (partition 0) (sampleRecord "low"), .produce (partition 0) brokenRecord,
    .pass (sampleTurn 2 .answered (.ok ())), .carryOut 0]

theorem consumed_not_lost_delayed :
    let p := delayedRun.foldl (step sampleSite) (.start 0 : Pipeline openDatabase)
    (∃ j, 2 ≤ j ∧ Names plainRuntime p.topic (partition 0) "ALT-1" j ∧
        Filed sampleRotation sampleLine p.log sampleAppends (partition 0) j) ∨
      (p.table.view 1 "ALT-1").isSome := by
  have h := consumed_not_lost openDatabase sampleSite "ALT-1" (partition 0) 0 delayedRun sampleRotation sampleLine
    sampleAppends (by decide) ⟨by decide +kernel, by decide +kernel⟩ (fun q i => single_of_produced (by decide))
    (by simp [delayedRun])
  exact h.2 2 (.inl (by decide +kernel)) ⟨(sampleAlert "ALT-1").set "severity" .null, by decide +kernel,
    by decide +kernel⟩

section

variable (db : Tenants.Database) (site : Site) (k : String) (tp : TopicPartition) (now : ℚ) (actions : List Action)
  (cfg : Dlq.RotationConfig) (line : ℕ → Event → String) (files : List Dlq.DiskEvent)

/-- When no delayed request is carried out after the sink gave it up, the table does not fall behind: it shows the
row of the consumed message or of a later one. -/
theorem consumed_not_outdated (hcount : 1 ≤ cfg.rotateCount)
    (happended : Appended cfg line (actions.foldl (step site) (.start now : Pipeline db)).log files)
    (hsingle : ∀ q i, Names site.runtime (actions.foldl (step site) (.start now : Pipeline db)).topic q k i → q = tp)
    (hforeign : ∀ batch, .ingest site.tenantId batch ∈ actions → ∀ d ∈ batch, d.alertId ≠ k)
    (htimely : ∀ n, .carryOut n ∉ actions) :
    let p := actions.foldl (step site) (.start now : Pipeline db)
    ∀ i, Consumed p tp i → Names site.runtime p.topic tp k i →
      (∃ j, i ≤ j ∧ Names site.runtime p.topic tp k j ∧ Filed cfg line p.log files tp j) ∨
        ∃ j, i ≤ j ∧ ∃ a, messageRow db site p.topic tp j = some a ∧ p.table.view site.tenantId k = some a := by
  intro p i hi hnames
  have h : Invariant site k tp p.topic (fun i shown => ∃ j, i ≤ j ∧ ∃ a, messageRow db site p.topic tp j = some a ∧
      shown = some a) p :=
    run_invariant hsingle (fun i j a hle ha => ⟨j, hle, a, ha, rfl⟩) actions rfl hforeign
      (fun n hn => absurd hn (htimely n)) (start_invariant now)
  exact Or.imp_left (fun ⟨j, hle, hj, hdead⟩ => ⟨j, hle, hj, hdead.filed hcount happended⟩)
    (h.sound.consumed hi hnames)

end

/-- The first commit fails, and the sink starts again before it tries once more. -/
def redeliveredRun : List Action :=
  [.produce (partition 0) (sampleRecord "high"), .produce (partition 0) (sampleRecord "low"),
    .pass (sampleTurn 1 .answered (.error ⟨.other, "CommitFailedError"⟩)), .restart 10,
    .pass { sampleTurn 2 .answered (.ok ()) with now := 20 }]

theorem consumed_not_outdated_redelivered :
    let p := redeliveredRun.foldl (step sampleSite) (.start 0 : Pipeline openDatabase)
    (∃ j, 1 ≤ j ∧ Names plainRuntime p.topic (partition 0) "ALT-1" j ∧
        Filed sampleRotation sampleLine p.log [] (partition 0) j) ∨
      ∃ j, 1 ≤ j ∧ ∃ a, messageRow openDatabase sampleSite p.topic (partition 0) j = some a ∧
        p.table.view 1 "ALT-1" = some a :=
  consumed_not_outdated openDatabase sampleSite "ALT-1" (partition 0) 0 redeliveredRun sampleRotation sampleLine []
    (by decide) ⟨by decide +kernel, by decide +kernel⟩ (fun q i => single_of_produced (by decide))
    (by simp [redeliveredRun]) (by simp [redeliveredRun]) 1 (.inl (by decide +kernel))
    ⟨(sampleAlert "ALT-1").set "severity" (.str "low"), by decide +kernel, by decide +kernel⟩

end NeuralSoc.Delivery
