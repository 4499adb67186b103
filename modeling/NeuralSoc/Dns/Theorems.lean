import Mathlib.Algebra.Order.Field.Basic
import NeuralSoc.Dns.Lemmas.Responses
import NeuralSoc.Dns.Lemmas.Window

/-!
# What a burst, a rate and a limit of the DNS tracker mean
-/

namespace NeuralSoc.Dns

variable {rt : Runtime} {tracker : DnsBehaviorTracker} {sourceIp : String} {t : ℚ}

/-! ## Bursts -/

theorem burst_reason_iff (rt : Runtime) (t : ℚ) (sourceIp : String) (redis : Redis) :
    (isBurst rt t sourceIp redis).2.1 = some "distinct_domain_burst" ↔
      distinctDomainBurstThreshold ≤ (getStats rt t sourceIp redis).distinctDomains := by
  unfold isBurst
  dsimp only
  split
  · next hburst => exact iff_of_true rfl hburst
  · next hno =>
      refine iff_of_false ?_ hno
      split
      · simp
      · exact nofun

/-- The number of domains reported is the number queried since the last pause, up to the limit. -/
theorem distinctDomains_run (queries : List Query) (htimes : Timed t (queries.map Query.now)) :
    (getStats rt t sourceIp (queries.foldl (serveQuery rt tracker) noKeys)).distinctDomains =
      min (domainsOf (unbroken tracker.windowSeconds t (hostQueries rt sourceIp queries).reverse)).card
        maxTrackedDomains := by
  unfold getStats hostQueries
  cases hvalid : validateSourceIp rt sourceIp with
  | none => rfl
  | some ip =>
      dsimp only
      by_cases hip : ip = ""
      · rw [if_pos hip, if_pos hip]
        rfl
      · rw [if_neg hip, if_neg hip]
        have hsub : ((queries.filter (fromHost rt ip)).map Query.now).Sublist (queries.map Query.now) :=
          List.filter_sublist.map _
        have hhost : Timed t ((queries.filter (fromHost rt ip)).map Query.now) :=
          List.Pairwise.sublist (hsub.append (List.Sublist.refl [t])) htimes
        rw [HostKeys.stats]
        dsimp only
        rw [domains_run hip]
        exact (recordDomains_capped _ t hhost).card

def recent (w t : ℚ) (queries : List Query) : List Query := queries.filter fun q => t - w ≤ q.now

/-- A burst is one within the window exactly when the queries since the last pause name too few domains to be
reported, or those within the window name enough. -/
theorem burst_within_window_iff (rt : Runtime) (tracker : DnsBehaviorTracker) (sourceIp : String) (t : ℚ)
    (queries : List Query) (htimes : Timed t (queries.map Query.now)) :
    ((isBurst rt t sourceIp (queries.foldl (serveQuery rt tracker) noKeys)).2.1 =
          some "distinct_domain_burst" →
        distinctDomainBurstThreshold ≤
          (domainsOf (recent tracker.windowSeconds t (hostQueries rt sourceIp queries))).card) ↔
      (domainsOf (unbroken tracker.windowSeconds t (hostQueries rt sourceIp queries).reverse)).card <
          distinctDomainBurstThreshold ∨
        distinctDomainBurstThreshold ≤
          (domainsOf (recent tracker.windowSeconds t (hostQueries rt sourceIp queries))).card := by
  have hlimit : distinctDomainBurstThreshold ≤ maxTrackedDomains := by decide
  rw [burst_reason_iff, distinctDomains_run queries htimes, le_min_iff, and_iff_left hlimit, imp_iff_not_or,
    not_le]

def leastChoice : Choice where
  pick s := if h : s.Nonempty then s.min' h else ""
  pick_mem s h := by
    rw [dif_pos h]
    exact s.min'_mem h

def queryAt (now : ℚ) (n : ℕ) : Query :=
  ⟨now, "10.0.0.5", String.ofList (List.replicate (n + 1) 'a'), leastChoice⟩

/-- A pause of exactly the window between the two queries. -/
theorem burst_within_window_two :
    ((isBurst plainRuntime 100 "10.0.0.5"
            ([queryAt 0 0, queryAt 60 1].foldl (serveQuery plainRuntime {}) noKeys)).2.1 =
          some "distinct_domain_burst" →
        distinctDomainBurstThreshold ≤
          (domainsOf (recent (60 : ℤ) 100
            (hostQueries plainRuntime "10.0.0.5" [queryAt 0 0, queryAt 60 1]))).card) ↔
      (domainsOf (unbroken (60 : ℤ) 100
          (hostQueries plainRuntime "10.0.0.5" [queryAt 0 0, queryAt 60 1]).reverse)).card <
          distinctDomainBurstThreshold ∨
        distinctDomainBurstThreshold ≤
          (domainsOf (recent (60 : ℤ) 100
            (hostQueries plainRuntime "10.0.0.5" [queryAt 0 0, queryAt 60 1]))).card :=
  burst_within_window_iff plainRuntime {} "10.0.0.5" 100 [queryAt 0 0, queryAt 60 1]
    (by norm_num [Timed, queryAt])

/-- Forty domains, one every 50 seconds. -/
def background : List Query := (List.range 40).map fun i : ℕ => queryAt (50 * i) i

theorem timed_background : Timed 1950 (background.map Query.now) := by
  unfold Timed
  decide +kernel

/-- A quiet host with steady background traffic is reported although it queried two domains in the last minute. -/
theorem background_reported_as_burst :
    ¬ ∀ (rt : Runtime) (tracker : DnsBehaviorTracker) (sourceIp : String) (t : ℚ) (queries : List Query),
      Timed t (queries.map Query.now) →
      (isBurst rt t sourceIp (queries.foldl (serveQuery rt tracker) noKeys)).2.1 =
          some "distinct_domain_burst" →
        distinctDomainBurstThreshold ≤
          (domainsOf (recent tracker.windowSeconds t (hostQueries rt sourceIp queries))).card := by
  intro h
  have hnumber : (domainsOf (unbroken ((60 : ℤ) : ℚ) 1950
      (hostQueries plainRuntime "10.0.0.5" background).reverse)).card = 40 := by decide +kernel
  have hreported : (isBurst plainRuntime 1950 "10.0.0.5"
      (background.foldl (serveQuery plainRuntime {}) noKeys)).2.1 = some "distinct_domain_burst" := by
    rw [burst_reason_iff, distinctDomains_run background timed_background, hnumber]
    decide
  have hrecent := h plainRuntime {} "10.0.0.5" 1950 background timed_background hreported
  revert hrecent
  decide +kernel

/-! ## Responses -/

theorem HostKeys.rate_mem {keys : HostKeys} (h : keys.nxdomain.read t ≤ keys.responses.read t) :
    0 ≤ (keys.stats t).nxdomainRate ∧ (keys.stats t).nxdomainRate ≤ 1 := by
  unfold HostKeys.stats
  dsimp only
  split
  · next hpos =>
      have hcast : ((keys.nxdomain.read t : ℕ) : ℚ) ≤ ((keys.responses.read t : ℕ) : ℚ) :=
        Nat.cast_le.mpr h
      have htotal : (0 : ℚ) < ((keys.responses.read t : ℕ) : ℚ) := Nat.cast_pos.mpr hpos
      exact ⟨div_nonneg (Nat.cast_nonneg _) htotal.le, (div_le_one htotal).mpr hcast⟩
  · exact ⟨le_rfl, zero_le_one⟩

theorem nxdomain_le_responses (rt : Runtime) (tracker : DnsBehaviorTracker) (events : List (ℚ × Event))
    (t : ℚ) (htimes : Timed t (events.map Prod.fst)) (ip : String) :
    let keys := events.foldl (serveEvent rt tracker) noKeys ip
    keys.nxdomain.read t ≤ keys.responses.read t ∧
      0 ≤ (keys.stats t).nxdomainRate ∧ (keys.stats t).nxdomainRate ≤ 1 := by
  intro keys
  have hbalanced : keys.nxdomain.read t ≤ keys.responses.read t := by
    cases events with
    | nil => exact (balanced_absent tracker t).le t le_rfl
    | cons e events =>
        have hpairs : (e.1 :: (e :: events).map Prod.fst ++ [t]).Pairwise (· ≤ ·) :=
          List.pairwise_cons.mpr ⟨by simpa using (List.pairwise_cons.mp htimes).1, htimes⟩
        have hrun : Balanced tracker t ((e :: events).foldl (serveEvent rt tracker) noKeys ip) :=
          balanced_run (e :: events) hpairs (fun _ => balanced_absent tracker e.1) ip
        exact hrun.le t le_rfl
  exact ⟨hbalanced, HostKeys.rate_mem hbalanced⟩

def failures : List (ℚ × Event) :=
  [(0, .response "10.0.0.5" true), (30, .response "10.0.0.5" true), (90, .dropResponses "10.0.0.5")]

theorem nxdomain_le_responses_failures :
    let keys := failures.foldl (serveEvent plainRuntime {}) noKeys "10.0.0.5"
    keys.nxdomain.read 90 ≤ keys.responses.read 90 ∧
      0 ≤ (keys.stats 90).nxdomainRate ∧ (keys.stats 90).nxdomainRate ≤ 1 :=
  nxdomain_le_responses plainRuntime {} failures 90 (by norm_num [Timed, failures]) "10.0.0.5"

/-! ## The limit -/

/-- Whatever the order of the commands, the set exceeds its limit by no more than the workers that are between
their SADD and their last command; one call after the other it counts the domains up to the limit. -/
theorem tracked_domains_limit (n : ℕ) (events : List (WorkerEvent n)) :
    Always workerStep (fun s => s.domains.card ≤ maxTrackedDomains + s.busy.card ∧
        (s.busy = ∅ → s.domains.card ≤ maxTrackedDomains)) (Workers.idle n) events ∧
      (Each workerStep Alone (Workers.idle n) events →
        Always workerStep (fun s => s.busy = ∅ → s.domains.card = min s.since.card maxTrackedDomains)
          (Workers.idle n) events) := by
  constructor
  · have hbounded : Always workerStep Bounded (Workers.idle n) events :=
      Each.always (G := fun _ _ => True) (fun t e h _ => bounded_step t h e) (Nat.zero_le _)
        (each_of_forall fun _ _ _ => trivial)
    refine hbounded.mono ?_
    intro s h
    refine ⟨h, fun hidle => ?_⟩
    have hcard : s.domains.card ≤ maxTrackedDomains + s.busy.card := h
    rwa [hidle, Finset.card_empty, Nat.add_zero] at hcard
  · intro halone
    have hsequential : Always workerStep Sequential (Workers.idle n) events :=
      Each.always (fun t e h => sequential_step t h e) (sequential_rest (fun _ => rfl) capped_empty) halone
    exact hsequential.mono fun s h => h.card

end NeuralSoc.Dns
