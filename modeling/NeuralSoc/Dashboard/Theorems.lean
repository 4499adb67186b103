import NeuralSoc.Dashboard.Lemmas.Runs

/-! # Tabs of different employees in one process -/

namespace NeuralSoc.Dashboard

open Api Tenants

variable {db : Database}

/-- In every state of a run a tab that is signed in names the user, the role and the tenant that the backend has for
its token; a tab that waits for a code has a challenge of the user whose address was typed in; a tab that is signed
out names nobody. -/
theorem tabs_name_their_user (lib : Libraries) (events : List Event) (i : ℕ) :
    Truthful lib.toPlatform (run lib events : Process db).backend.world ((run lib events : Process db).tabs i) :=
  truthful_run lib events i

/-- The value is what the backend had for the tenant when it accepted a request of the run with the token. That is
the request just made, or one that was over less than the time to live ago. -/
def Fresh {ν : Type} (lib : Libraries) (render : ℕ → Backend db → ν) (events : List Event) (e : Event) (now : ℚ)
    (claims : Claims) (tenantId : ℕ) (value : ν) : Prop :=
  ∃ past e' trip, past ++ [e'] <+: events ++ [e] ∧ trip ∈ e'.trips ∧
    Accepted trip.call.toEnv (run lib past : Process db).backend.world claims ∧
      value = render tenantId (run lib past : Process db).backend ∧ (past = events ∨ now < trip.ended + cacheTtlSec)

theorem Cached.fresh {lib : Libraries} {ν : Type} {render : ℕ → Backend db → ν} {events : List Event} {e : Event}
    {claims : Claims} {tenantId : ℕ} {r : Read} {now : ℚ} {trip : Trip} {cache cache' : Dict Claims (ν × ℚ)}
    {result : Option ν} {value : ν}
    (h : Cached render lib.toServices (run lib events : Process db).backend r claims now trip cache cache' result)
    (hcache : ∀ c v stored, cache.get? c = some (v, stored) → Answered lib render events c v stored)
    (htrip : trip ∈ e.trips) (htenant : claims.tenantId = some tenantId) (hvalue : result = some value) :
    Fresh lib render events e now claims tenantId value := by
  rcases h.shown value hvalue with ⟨stored, hget, hfresh⟩ | ⟨haccepted, hrender⟩
  · obtain ⟨past, e', trip', hprefix, htrip', rfl, haccepted, hrender⟩ := hcache claims value stored hget
    exact ⟨past, e', trip', hprefix.trans (List.prefix_append _ _), htrip', haccepted, hrender tenantId htenant,
      .inr hfresh⟩
  · exact ⟨events, e, trip, List.prefix_refl _, htrip, haccepted, hrender tenantId htenant, .inl rfl⟩

/-- The alerts on the pages of a tab are the newest hundred of the tenant it names, as the backend had them when it
accepted the token less than three seconds ago. There are none for a tab that is signed out, and where nothing is
cached and the request fails. -/
theorem alerts_of_own_tenant (lib : Libraries) (events : List Event) (i : ℕ) (now : ℚ) (trip : Trip) :
    let d : Process db := run lib events
    let shown := (getAlerts lib d i now trip).1
    match (d.tabs i).accessToken with
    | none => shown = []
    | some claims =>
        ∃ tenantId, (d.tabs i).tenantId = some tenantId ∧
          (Fresh lib (tenantAlerts db lib) events (.alerts i now trip) now claims tenantId shown ∨
            shown = [] ∧ unexpired d.cachedAlerts claims now = none ∧
              Refused lib.toServices d.backend trip (.read (some (.jwt claims)) (.alerts 0 100))) := by
  dsimp only
  split
  · next htoken => rw [getAlerts_signedOut htoken]
  · next claims htoken =>
      obtain ⟨id, u, -, ⟨-, htenant, -⟩, -, hnamed, -⟩ := (truthful_run lib events i).signedIn claims htoken
      obtain ⟨cache, result, hrun, hcached⟩ := getAlerts_spec lib (run lib events : Process db) i now trip htoken
      refine ⟨u.tenantId, hnamed, ?_⟩
      rw [hrun]
      cases hresult : result with
      | none =>
          obtain ⟨hexpired, hrefused⟩ := hcached.failed hresult
          exact .inr ⟨rfl, hexpired, hrefused⟩
      | some alerts =>
          refine .inl (hcached.fresh (cacheKept_run lib events).alerts ?_ htenant hresult)
          simp [Event.trips]

/-- The status of a tab counts the alerts of the tenant it names, as the backend had them in the request just made or in
one that was over less than three seconds ago, and is only healthy when both reads came through. Otherwise it counts
nothing, and its time is that of a healthy status of the tab, if there was one, whoever was signed in there. -/
theorem status_of_own_tenant (lib : Libraries) (events : List Event) (i : ℕ) (now : ℚ)
    (alertsTrip statsTrip : Trip) (clock : ℚ) :
    let d : Process db := run lib events
    let e : Event := .status i now alertsTrip statsTrip clock
    let shown := (status lib d i now alertsTrip statsTrip clock).1
    (shown = unhealthy (d.tabs i) ∧
        ∀ last, (d.tabs i).lastGood = some last → ∃ past now' alertsTrip' statsTrip',
          past ++ [.status i now' alertsTrip' statsTrip' last] <+: events ∧
            (status lib (run lib past : Process db) i now' alertsTrip' statsTrip' last).1.brokerHealthy = true) ∨
      ∃ claims tenantId alerts stats, (d.tabs i).accessToken = some claims ∧ (d.tabs i).tenantId = some tenantId ∧
        shown = healthy alerts stats clock ∧ Fresh lib (tenantAlerts db lib) events e now claims tenantId alerts ∧
          Fresh lib (tenantStats db lib.toPlatform) events e now claims tenantId stats := by
  dsimp only
  cases htoken : ((run lib events : Process db).tabs i).accessToken with
  | none =>
      refine .inl ⟨?_, fun _ => lastGood_run lib events⟩
      rw [status_signedOut htoken]
  | some claims =>
      obtain ⟨id, u, -, ⟨-, htenant, -⟩, -, hnamed, -⟩ := (truthful_run lib events i).signedIn claims htoken
      obtain ⟨_, alerts, _, stats, halerts, hstats, ⟨a, s, ha, hs, hrun⟩ | ⟨-, hrun | hrun⟩⟩ :=
        status_spec lib (run lib events : Process db) i now alertsTrip statsTrip clock htoken
      · refine .inr ⟨claims, u.tenantId, a, s, rfl, hnamed, by rw [hrun], ?_, ?_⟩
        · refine halerts.fresh (cacheKept_run lib events).alerts ?_ htenant ha
          simp [Event.trips]
        · refine hstats.fresh (cacheKept_run lib events).stats ?_ htenant hs
          simp [Event.trips]
      · exact .inl ⟨by rw [hrun], fun _ => lastGood_run lib events⟩
      · exact .inl ⟨by rw [hrun], fun _ => lastGood_run lib events⟩

end NeuralSoc.Dashboard
