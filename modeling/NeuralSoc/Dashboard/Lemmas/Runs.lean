import Mathlib.Data.List.Induction
import NeuralSoc.Dashboard.Lemmas.Cache

/-!
# Runs of the pages

A tab that is signed in says who its token was issued for, in every state of the run. What is cached was answered in
an earlier state of the run.
-/

namespace NeuralSoc.Dashboard

open Api Tenants Handler

variable {db : Database} {lib : Libraries} {d : Process db} {claims : Claims}

/-! ## Definitions -/

def Event.trips : Event → List Trip
  | .alerts _ _ trip => [trip]
  | .status _ _ alertsTrip statsTrip _ => [alertsTrip, statsTrip]
  | _ => []

/-- A request of the run was answered with the value, and was over at that time. -/
def Answered {ν : Type} (lib : Libraries) (render : ℕ → Backend db → ν) (events : List Event) (claims : Claims)
    (value : ν) (ended : ℚ) : Prop :=
  ∃ past e trip, past ++ [e] <+: events ∧ trip ∈ e.trips ∧ trip.ended = ended ∧
    Holds render (run lib past : Process db).backend trip.call.toEnv claims value

structure CacheKept (lib : Libraries) (events : List Event) (d : Process db) : Prop where
  alerts : ∀ claims value stored, d.cachedAlerts.get? claims = some (value, stored) →
    Answered lib (tenantAlerts db lib) events claims value stored
  stats : ∀ claims value stored, d.cachedStats.get? claims = some (value, stored) →
    Answered lib (tenantStats db lib.toPlatform) events claims value stored

/-! ## Pages -/

theorem getAlerts_spec (lib : Libraries) (d : Process db) (i : ℕ) (now : ℚ) (trip : Trip) {claims : Claims}
    (h : (d.tabs i).accessToken = some claims) :
    ∃ cache result, getAlerts lib d i now trip = (result.getD [], { d with cachedAlerts := cache }) ∧
      Cached (tenantAlerts db lib) lib.toServices d.backend (.alerts 0 100) claims now trip d.cachedAlerts cache
        result := by
  obtain ⟨cache, result, hcall, hcached⟩ := cachedAlerts_spec lib d claims now trip
  refine ⟨cache, result, ?_, hcached⟩
  simp only [getAlerts, h, hcall]

theorem getAlerts_signedOut {i : ℕ} (h : (d.tabs i).accessToken = none) (now : ℚ) (trip : Trip) :
    getAlerts lib d i now trip = ([], d) := by
  simp only [getAlerts, h]

theorem status_signedOut {i : ℕ} (h : (d.tabs i).accessToken = none) (now : ℚ) (alertsTrip statsTrip : Trip)
    (clock : ℚ) : status lib d i now alertsTrip statsTrip clock = (unhealthy (d.tabs i), d) := by
  simp only [status, h]

/-- The state after a status that is good. -/
def afterStatus (d : Process db) (i : ℕ) (clock : ℚ) (alerts : Dict Claims (List FetchedAlert × ℚ))
    (stats : Dict Claims (Stats × ℚ)) : Process db :=
  Process.setTab { d with cachedAlerts := alerts, cachedStats := stats } i { d.tabs i with lastGood := some clock }

theorem status_spec (lib : Libraries) (d : Process db) (i : ℕ) (now : ℚ) (alertsTrip statsTrip : Trip) (clock : ℚ)
    {claims : Claims} (h : (d.tabs i).accessToken = some claims) :
    ∃ alertsCache alerts statsCache stats,
      Cached (tenantAlerts db lib) lib.toServices d.backend (.alerts 0 100) claims now alertsTrip d.cachedAlerts
          alertsCache alerts ∧
        Cached (tenantStats db lib.toPlatform) lib.toServices d.backend .stats claims now statsTrip d.cachedStats
            statsCache stats ∧
          ((∃ a s, alerts = some a ∧ stats = some s ∧
              status lib d i now alertsTrip statsTrip clock =
                (healthy a s clock, afterStatus d i clock alertsCache statsCache)) ∨
            (alerts = none ∨ stats = none) ∧
              ((status lib d i now alertsTrip statsTrip clock) =
                  (unhealthy (d.tabs i), { d with cachedAlerts := alertsCache, cachedStats := statsCache }) ∨
                (status lib d i now alertsTrip statsTrip clock) =
                  (unhealthy (d.tabs i), { d with cachedAlerts := alertsCache }))) := by
  obtain ⟨alertsCache, alerts, hcall, hcached⟩ := cachedAlerts_spec lib d claims now alertsTrip
  obtain ⟨statsCache, stats, hcall', hcached'⟩ :=
    cachedStats_spec lib { d with cachedAlerts := alertsCache } claims now statsTrip
  refine ⟨alertsCache, alerts, statsCache, stats, hcached, hcached', ?_⟩
  cases alerts with
  | none =>
      refine .inr ⟨.inl rfl, .inr ?_⟩
      simp only [status, h, hcall]
  | some a =>
      cases stats with
      | none =>
          refine .inr ⟨.inr rfl, .inl ?_⟩
          simp only [status, h, hcall, hcall']
      | some s =>
          refine .inl ⟨a, s, rfl, rfl, ?_⟩
          simp only [status, h, hcall, hcall', afterStatus]

/-! ## Steps -/

theorem Truthful.lastGood {p : Platform} {w : World} {tab : Tab} (h : Truthful p w tab) (clock : Option ℚ) :
    Truthful p w { tab with lastGood := clock } where
  signedIn claims hc := by
    obtain ⟨id, u, hu⟩ := h.signedIn claims hc
    exact ⟨id, u, hu.user, hu.session, hu.role, hu.tenantId, hu.analyst⟩
  challenged claims hc := by
    obtain ⟨id, u, hu⟩ := h.challenged claims hc
    exact ⟨id, u, hu.user, hu.challenge, hu.email⟩
  signedOut := h.signedOut
  once := h.once

theorem tabsKept_step (lib : Libraries) (d : Process db) (e : Event) :
    TabsKept lib.toPlatform d (step lib d e) := by
  cases e with
  | backend call r => exact tabsKept_backend _ (sameEmail_serve lib.toServices d.backend (call, r)) rfl
  | signIn i email password trip => exact signIn_kept d i email password trip
  | verifyCode i code trip => exact verifyCode_kept d i code trip
  | backToLogin i => exact backToLogin_kept _ d i
  | logOut i trip => exact logOut_kept d i trip
  | alerts i now trip =>
      unfold step
      dsimp only
      cases htoken : (d.tabs i).accessToken with
      | none =>
          rw [getAlerts_signedOut htoken]
          exact tabsKept_refl _ d
      | some claims =>
          obtain ⟨cache, result, hrun, -⟩ := getAlerts_spec lib d i now trip htoken
          rw [hrun]
          exact tabsKept_backend _ (refl _) rfl
  | status i now alertsTrip statsTrip clock =>
      unfold step
      dsimp only
      cases htoken : (d.tabs i).accessToken with
      | none =>
          rw [status_signedOut htoken]
          exact tabsKept_refl _ d
      | some claims =>
          obtain ⟨_, _, _, _, -, -, ⟨_, _, -, -, hrun⟩ | ⟨-, hrun | hrun⟩⟩ :=
            status_spec lib d i now alertsTrip statsTrip clock htoken
          · rw [hrun]
            exact tabsKept_setTab (refl _) rfl fun htab => htab.lastGood _
          · rw [hrun]
            exact tabsKept_backend _ (refl _) rfl
          · rw [hrun]
            exact tabsKept_backend _ (refl _) rfl

/-- Neither the cache changes nor when a tab was last good. -/
structure Quiet (d d' : Process db) : Prop where
  alerts : d'.cachedAlerts = d.cachedAlerts
  stats : d'.cachedStats = d.cachedStats
  lastGood : ∀ j, (d'.tabs j).lastGood = (d.tabs j).lastGood

theorem quiet_refl (d : Process db) : Quiet d d := ⟨rfl, rfl, fun _ => rfl⟩

theorem quiet_send (services : Services) (d : Process db) (trip : Trip) (r : BackendRequest) :
    Quiet d (send services d trip r).2 := by
  rcases send_cases services d trip r with h | h
  · rw [h]
    exact quiet_refl d
  · rw [h]
    exact ⟨rfl, rfl, fun _ => rfl⟩

theorem Quiet.setTab {d' : Process db} (h : Quiet d d') {i : ℕ} {tab : Tab}
    (htab : tab.lastGood = (d.tabs i).lastGood) : Quiet d (d'.setTab i tab) where
  alerts := h.alerts
  stats := h.stats
  lastGood j := by
    rw [Process.tabs_setTab]
    split
    · next hji => rw [htab, hji]
    · exact h.lastGood j

theorem quiet_step (lib : Libraries) (d : Process db) {e : Event} (h : e.trips = []) : Quiet d (step lib d e) := by
  cases e with
  | backend call r => exact ⟨rfl, rfl, fun _ => rfl⟩
  | signIn i email password trip =>
      have hsent := quiet_send lib.toServices d trip (.api (.login (strip email) password))
      unfold step signIn
      dsimp only
      split
      · exact quiet_refl d
      · split
        · next hsend =>
            rw [hsend] at hsent
            exact hsent.setTab rfl
        · next hsend =>
            rw [hsend] at hsent
            exact hsent.setTab rfl
        · next hsend =>
            rw [hsend] at hsent
            exact hsent
  | verifyCode i code trip =>
      unfold step verifyCode
      dsimp only
      split
      · next mfaToken _ _ =>
          have hsent := quiet_send lib.toServices d trip (.api (.verifyMfa (.jwt mfaToken) (strip code)))
          split
          · next hsend =>
              rw [hsend] at hsent
              exact hsent.setTab rfl
          · next hsend =>
              rw [hsend] at hsent
              exact hsent
      · exact quiet_refl d
  | backToLogin i =>
      unfold step backToLogin
      dsimp only
      split
      · exact (quiet_refl d).setTab rfl
      · exact quiet_refl d
  | logOut i trip =>
      unfold step logOut
      dsimp only
      split
      · exact (quiet_send _ _ _ _).setTab rfl
      · exact quiet_refl d
  | alerts i now trip => cases h
  | status i now alertsTrip statsTrip clock => cases h

/-- The cache with what the requests of the event were answered with. -/
structure Refreshed (lib : Libraries) (d : Process db) (e : Event) (alerts : Dict Claims (List FetchedAlert × ℚ))
    (stats : Dict Claims (Stats × ℚ)) : Prop where
  alerts : ∀ c value stored, alerts.get? c = some (value, stored) → d.cachedAlerts.get? c = some (value, stored) ∨
    ∃ trip ∈ e.trips, trip.ended = stored ∧ Holds (tenantAlerts db lib) d.backend trip.call.toEnv c value
  stats : ∀ c value stored, stats.get? c = some (value, stored) → d.cachedStats.get? c = some (value, stored) ∨
    ∃ trip ∈ e.trips, trip.ended = stored ∧ Holds (tenantStats db lib.toPlatform) d.backend trip.call.toEnv c value

theorem Cached.refreshed {ν : Type} {render : ℕ → Backend db → ν} {b : Backend db} {cache cache' : Dict Claims (ν × ℚ)}
    {r : Read} {now : ℚ} {trip : Trip} {result : Option ν} {trips : List Trip}
    (h : Cached render lib.toServices b r claims now trip cache cache' result) (htrip : trip ∈ trips) :
    ∀ c value stored, cache'.get? c = some (value, stored) → cache.get? c = some (value, stored) ∨
      ∃ trip ∈ trips, trip.ended = stored ∧ Holds render b trip.call.toEnv c value := by
  intro c value stored hc
  rcases h.kept c value stored hc with hold | ⟨rfl, rfl, hholds⟩
  · exact .inl hold
  · exact .inr ⟨trip, htrip, rfl, hholds⟩

/-- What an event does to the cache and to when a tab was last good. -/
inductive Turn (lib : Libraries) (d : Process db) (e : Event) : Process db → Prop
  | quiet {d' : Process db} (h : Quiet d d') : Turn lib d e d'
  | refreshed {alerts stats} (h : Refreshed lib d e alerts stats) :
      Turn lib d e { d with cachedAlerts := alerts, cachedStats := stats }
  | good {i now alertsTrip statsTrip clock alerts stats} (he : e = .status i now alertsTrip statsTrip clock)
      (h : Refreshed lib d e alerts stats)
      (hgood : (status lib d i now alertsTrip statsTrip clock).1.brokerHealthy = true) :
      Turn lib d e (afterStatus d i clock alerts stats)

theorem turn_step (lib : Libraries) (d : Process db) (e : Event) : Turn lib d e (step lib d e) := by
  cases e with
  | backend call r => exact .quiet (quiet_step lib d rfl)
  | signIn i email password trip => exact .quiet (quiet_step lib d rfl)
  | verifyCode i code trip => exact .quiet (quiet_step lib d rfl)
  | backToLogin i => exact .quiet (quiet_step lib d rfl)
  | logOut i trip => exact .quiet (quiet_step lib d rfl)
  | alerts i now trip =>
      unfold step
      dsimp only
      cases htoken : (d.tabs i).accessToken with
      | none =>
          rw [getAlerts_signedOut htoken]
          exact .quiet (quiet_refl d)
      | some claims =>
          obtain ⟨cache, result, hrun, hcached⟩ := getAlerts_spec lib d i now trip htoken
          rw [hrun]
          exact .refreshed ⟨hcached.refreshed (by simp [Event.trips]), fun _ _ _ => .inl⟩
  | status i now alertsTrip statsTrip clock =>
      unfold step
      dsimp only
      cases htoken : (d.tabs i).accessToken with
      | none =>
          rw [status_signedOut htoken]
          exact .quiet (quiet_refl d)
      | some claims =>
          obtain ⟨alertsCache, alerts, statsCache, stats, halerts, hstats, hcases⟩ :=
            status_spec lib d i now alertsTrip statsTrip clock htoken
          have htrips : (Event.status i now alertsTrip statsTrip clock).trips = [alertsTrip, statsTrip] := rfl
          have hkept := halerts.refreshed (htrips ▸ List.mem_cons_self)
          have hkept' := hstats.refreshed (htrips ▸ List.mem_cons_of_mem _ List.mem_cons_self)
          rcases hcases with ⟨_, _, -, -, hrun⟩ | ⟨-, hrun | hrun⟩
          · have hgood : (status lib d i now alertsTrip statsTrip clock).1.brokerHealthy = true := by
              rw [hrun]
              rfl
            rw [hrun]
            exact .good rfl ⟨hkept, hkept'⟩ hgood
          · rw [hrun]
            exact .refreshed ⟨hkept, hkept'⟩
          · rw [hrun]
            exact .refreshed ⟨hkept, fun _ _ _ => .inl⟩

/-! ## Runs -/

theorem run_concat (lib : Libraries) (events : List Event) (e : Event) :
    (run lib (events ++ [e]) : Process db) = step lib (run lib events) e := by
  simp [run]

theorem truthful_run (lib : Libraries) (events : List Event) (i : ℕ) :
    Truthful lib.toPlatform (run lib events : Process db).backend.world ((run lib events : Process db).tabs i) := by
  induction events using List.reverseRecOn with
  | nil => exact truthful_new _ _
  | append_singleton events e ih =>
      rw [run_concat]
      exact (tabsKept_step lib _ e).tabs i ih

theorem Answered.mono {ν : Type} {render : ℕ → Backend db → ν} {events : List Event} {value : ν} {ended : ℚ}
    (h : Answered lib render events claims value ended) (e : Event) :
    Answered lib render (events ++ [e]) claims value ended := by
  obtain ⟨past, e', trip, hprefix, hanswer⟩ := h
  exact ⟨past, e', trip, hprefix.trans (List.prefix_append _ _), hanswer⟩

theorem CacheKept.refreshed {events : List Event} {e : Event} {alerts : Dict Claims (List FetchedAlert × ℚ)}
    {stats : Dict Claims (Stats × ℚ)} (h : CacheKept lib events (run lib events : Process db))
    (hrefreshed : Refreshed lib (run lib events : Process db) e alerts stats) {d : Process db}
    (halerts : d.cachedAlerts = alerts) (hstats : d.cachedStats = stats) : CacheKept lib (events ++ [e]) d where
  alerts c value stored hc := by
    rw [halerts] at hc
    rcases hrefreshed.alerts c value stored hc with hold | ⟨trip, htrip, hended, hholds⟩
    · exact (h.alerts c value stored hold).mono e
    · exact ⟨events, e, trip, List.prefix_refl _, htrip, hended, hholds⟩
  stats c value stored hc := by
    rw [hstats] at hc
    rcases hrefreshed.stats c value stored hc with hold | ⟨trip, htrip, hended, hholds⟩
    · exact (h.stats c value stored hold).mono e
    · exact ⟨events, e, trip, List.prefix_refl _, htrip, hended, hholds⟩

theorem cacheKept_run (lib : Libraries) (events : List Event) :
    CacheKept lib events (run lib events : Process db) := by
  induction events using List.reverseRecOn with
  | nil => exact ⟨fun _ _ _ h => (by cases h), fun _ _ _ h => (by cases h)⟩
  | append_singleton events e ih =>
      rw [run_concat]
      have hturn := turn_step lib (run lib events : Process db) e
      generalize step lib (run lib events : Process db) e = d' at hturn ⊢
      cases hturn with
      | quiet h => exact ih.refreshed ⟨fun _ _ _ => .inl, fun _ _ _ => .inl⟩ h.alerts h.stats
      | refreshed h => exact ih.refreshed h rfl rfl
      | good he h hgood => exact ih.refreshed h rfl rfl

/-- A tab was last good at a status of its own that was good. -/
theorem lastGood_run (lib : Libraries) (events : List Event) {i : ℕ} {clock : ℚ}
    (h : ((run lib events : Process db).tabs i).lastGood = some clock) :
    ∃ past now alertsTrip statsTrip, past ++ [.status i now alertsTrip statsTrip clock] <+: events ∧
      (status lib (run lib past : Process db) i now alertsTrip statsTrip clock).1.brokerHealthy = true := by
  induction events using List.reverseRecOn with
  | nil => cases h
  | append_singleton events e ih =>
      rw [run_concat] at h
      have hsame (hold : ((run lib events : Process db).tabs i).lastGood = some clock) :
          ∃ past now alertsTrip statsTrip, past ++ [.status i now alertsTrip statsTrip clock] <+: events ++ [e] ∧
            (status lib (run lib past : Process db) i now alertsTrip statsTrip clock).1.brokerHealthy = true := by
        obtain ⟨past, now, alertsTrip, statsTrip, hprefix, hgood⟩ := ih hold
        exact ⟨past, now, alertsTrip, statsTrip, hprefix.trans (List.prefix_append _ _), hgood⟩
      have hturn := turn_step lib (run lib events : Process db) e
      generalize step lib (run lib events : Process db) e = d' at h hturn
      cases hturn with
      | quiet hquiet => exact hsame ((hquiet.lastGood i).symm.trans h)
      | refreshed _ => exact hsame h
      | @good j now alertsTrip statsTrip clock' _ _ he _ hgood =>
          rw [afterStatus, Process.tabs_setTab] at h
          split at h
          · next hij =>
              cases h
              rw [he, hij]
              exact ⟨events, now, alertsTrip, statsTrip, List.prefix_refl _, hgood⟩
          · exact hsame h

end NeuralSoc.Dashboard
