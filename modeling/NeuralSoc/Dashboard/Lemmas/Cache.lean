import NeuralSoc.Dashboard.Lemmas.Sessions

/-!
# What the cache of the pages keeps

An answer to a read is made of the rows of the tenant of the token. It is cached until its time to live is over.
-/

namespace NeuralSoc.Dashboard

open Api Tenants Handler

variable {db : Database} {lib : Libraries} {d : Process db} {env : Env} {claims : Claims}

/-! ## Definitions -/

def tenantRows (tenantId : ℕ) (b : Backend db) : List (ℕ × Alert) :=
  rowsOf (fun a => some a.tenantId) tenantId b.alerts.rows.entries

/-- The first page of the alerts of a tenant. -/
def tenantAlerts (db : Database) (lib : Libraries) (tenantId : ℕ) (b : Backend db) : List FetchedAlert :=
  (page 0 100 (tenantRows tenantId b)).map fun e => deserializeEvidence lib (alertResponse e.1 e.2)

def tenantStats (db : Database) (p : Platform) (tenantId : ℕ) (b : Backend db) : Stats :=
  let severities := severityMap p db (tenantRows tenantId b)
  ⟨severities.values.sum, (severities.get? "critical").getD 0, (severities.get? "high").getD 0,
    (severities.get? "medium").getD 0, (severities.get? "low").getD 0⟩

/-- The backend accepts the token and has the value for its tenant. -/
def Holds {ν : Type} (render : ℕ → Backend db → ν) (b : Backend db) (env : Env) (claims : Claims) (value : ν) : Prop :=
  Accepted env b.world claims ∧ ∀ tenantId, claims.tenantId = some tenantId → value = render tenantId b

/-! ## Answers -/

theorem accepted_of_requireScope {scope : String} {w w' : World} {principal : Principal}
    (h : requireScope env scope (some (.jwt claims)) w = (.ok principal, w')) :
    Accepted env w claims ∧ principal = ⟨claims.sub, claims.scopes, claims.tenantId, claims.userId⟩ := by
  obtain ⟨principal', w₁, hverify, hrest⟩ := bind_eq_ok.mp h
  obtain ⟨_, _, -, hpure⟩ := bind_eq_ok.mp hrest
  obtain ⟨rfl, -⟩ := pure_eq_ok.mp hpure
  obtain ⟨token, w₂, htoken, hauth⟩ := bind_eq_ok.mp hverify
  obtain ⟨hsome, hw₂⟩ := expect_eq_ok.mp htoken
  cases hsome
  obtain ⟨w₃, w₄, hget, hdecode⟩ := bind_eq_ok.mp hauth
  obtain ⟨hw₃, hw₄⟩ := get_eq_ok.mp hget
  obtain ⟨c, w₅, hclaims, hrevoked⟩ := bind_eq_ok.mp hdecode
  obtain ⟨hgood, hw₅⟩ := expect_eq_ok.mp hclaims
  obtain ⟨_, _, hensure, hprincipal⟩ := bind_eq_ok.mp hrevoked
  obtain ⟨hfresh, -⟩ := ensure_eq_ok.mp hensure
  obtain ⟨rfl, -⟩ := pure_eq_ok.mp hprincipal
  rw [hw₃, hw₂] at hgood hfresh
  cases (verifyToken_eq_some.mp hgood).1
  exact ⟨⟨hgood, by simpa using hfresh⟩, rfl⟩

theorem scope_answer {scope : String} {f : Principal → BackendRoute db BackendResponse} {b : Backend db}
    {r : BackendResponse}
    (h : ((onWorld (requireScope env scope (some (.jwt claims))) >>= f : BackendRoute db BackendResponse) b).1 = .ok r) :
    Accepted env b.world claims ∧
      (f ⟨claims.sub, claims.scopes, claims.tenantId, claims.userId⟩ b).1 = .ok r := by
  obtain ⟨answer, hrun⟩ := requireScope_run env scope (some (.jwt claims)) b.world
  cases answer with
  | error e =>
      rw [bind_run_error (onWorld_run hrun)] at h
      cases h
  | ok principal =>
      rw [bind_run_ok (onWorld_run hrun)] at h
      obtain ⟨haccepted, rfl⟩ := accepted_of_requireScope hrun
      exact ⟨haccepted, h⟩

theorem ensure_answer_ok {b : Bool} {e : HttpError} {f : Unit → BackendRoute db BackendResponse} {s : Backend db}
    {r : BackendResponse} (h : ((ensure b e >>= f : BackendRoute db BackendResponse) s).1 = .ok r) :
    (f () s).1 = .ok r := by
  rw [ensure_bind_run] at h
  split at h
  · exact h
  · cases h

theorem getAlerts_answer (lib : Libraries) {b : Backend db} {r : BackendResponse}
    (h : (Tenants.getAlerts env (some (.jwt claims)) 0 100 b).1 = .ok r) :
    ∃ rows : List AlertResponse, r = .alerts rows ∧
      Holds (tenantAlerts db lib) b env claims (rows.map (deserializeEvidence lib)) := by
  obtain ⟨haccepted, h⟩ := scope_answer h
  have hpage := ensure_answer_ok (ensure_answer_ok h)
  cases hpage
  refine ⟨_, rfl, haccepted, fun tenantId htenant => ?_⟩
  rw [scopeToTenant_eq htenant, List.map_map]
  rfl

theorem getStats_answer {p : Platform} {b : Backend db} {r : BackendResponse}
    (h : (getStats p env (some (.jwt claims)) b).1 = .ok r) :
    ∃ total critical high medium low, r = .stats total critical high medium low ∧
      Holds (tenantStats db p) b env claims ⟨total, critical, high, medium, low⟩ := by
  obtain ⟨haccepted, h⟩ := scope_answer h
  have hstats := ensure_answer_ok h
  cases hstats
  refine ⟨_, _, _, _, _, rfl, haccepted, fun tenantId htenant => ?_⟩
  rw [scopeToTenant_eq htenant]
  rfl

/-- A read has no effect on the backend. -/
theorem send_read (services : Services) (d : Process db) (trip : Trip) (credentials : Option Token) (r : Read) :
    (send services d trip (.read credentials r)).2 = d := by
  rcases send_cases services d trip (.read credentials r) with h | h
  · exact h
  · rw [h, serveBackend, handleBackend, ← read_keeps services.toPlatform credentials r d.backend]

/-- The request does not come through, or the backend refuses it. -/
def Refused (services : Services) (b : Backend db) (trip : Trip) (r : BackendRequest) : Prop :=
  match trip.delivery with
  | .answered => ∃ e, (handleBackend services trip.call r b).1 = .error e
  | _ => True

/-- A read is refused or answered, whatever is made of the answer. -/
theorem send_read_cases (services : Services) (d : Process db) (trip : Trip) (credentials : Option Token) (r : Read) :
    (Refused services d.backend trip (.read credentials r) ∧
        ∀ answer, (send services d trip (.read credentials r)).1 ≠ some (.ok answer)) ∨
      ∃ answer, (handleBackend services trip.call (.read credentials r) d.backend).1 = .ok answer ∧
        send services d trip (.read credentials r) = (some (.ok answer), d) := by
  have hstate := send_read services d trip credentials r
  unfold Refused
  cases hdelivery : trip.delivery with
  | lost => exact .inl ⟨trivial, by simp [send, hdelivery]⟩
  | unanswered => exact .inl ⟨trivial, by simp [send, hdelivery]⟩
  | answered =>
      have hanswer : (send services d trip (.read credentials r)).1 =
          some (handleBackend services trip.call (.read credentials r) d.backend).1 := by
        simp [send, hdelivery]
      cases hrun : (handleBackend services trip.call (.read credentials r) d.backend).1 with
      | error e => exact .inl ⟨⟨e, rfl⟩, by rw [hanswer, hrun]; simp⟩
      | ok answer => exact .inr ⟨answer, rfl, Prod.ext (by rw [hanswer, hrun]) hstate⟩

theorem fetchAlerts_cases (lib : Libraries) (d : Process db) (claims : Claims) (trip : Trip) :
    (fetchAlerts lib d claims trip = (none, d) ∧
        Refused lib.toServices d.backend trip (.read (some (.jwt claims)) (.alerts 0 100))) ∨
      ∃ alerts, fetchAlerts lib d claims trip = (some alerts, d) ∧
        Holds (tenantAlerts db lib) d.backend trip.call.toEnv claims alerts := by
  have hstate := send_read lib.toServices d trip (some (.jwt claims)) (.alerts 0 100)
  unfold fetchAlerts
  rcases send_read_cases lib.toServices d trip (some (.jwt claims)) (.alerts 0 100) with
    ⟨hrefused, hnone⟩ | ⟨answer, hrun, hsend⟩
  · refine .inl ⟨?_, hrefused⟩
    split
    · next hsend => exact absurd (congrArg Prod.fst hsend) (hnone _)
    · next hsend =>
        rw [hsend] at hstate
        exact congrArg (Prod.mk none) hstate
  · obtain ⟨rows, rfl, hholds⟩ := getAlerts_answer lib hrun
    rw [hsend]
    exact .inr ⟨_, rfl, hholds⟩

theorem fetchStats_cases (lib : Libraries) (d : Process db) (claims : Claims) (trip : Trip) :
    (fetchStats lib d claims trip = (none, d) ∧
        Refused lib.toServices d.backend trip (.read (some (.jwt claims)) .stats)) ∨
      ∃ stats, fetchStats lib d claims trip = (some stats, d) ∧
        Holds (tenantStats db lib.toPlatform) d.backend trip.call.toEnv claims stats := by
  have hstate := send_read lib.toServices d trip (some (.jwt claims)) .stats
  unfold fetchStats
  rcases send_read_cases lib.toServices d trip (some (.jwt claims)) .stats with
    ⟨hrefused, hnone⟩ | ⟨answer, hrun, hsend⟩
  · refine .inl ⟨?_, hrefused⟩
    split
    · next hsend => exact absurd (congrArg Prod.fst hsend) (hnone _)
    · next hsend =>
        rw [hsend] at hstate
        exact congrArg (Prod.mk none) hstate
  · obtain ⟨total, critical, high, medium, low, rfl, hholds⟩ := getStats_answer hrun
    rw [hsend]
    exact .inr ⟨_, rfl, hholds⟩

/-! ## Cached calls -/

/-- What a cached call comes to, and what it leaves in the cache. -/
structure Cached {ν : Type} (render : ℕ → Backend db → ν) (services : Services) (b : Backend db) (r : Read)
    (claims : Claims) (now : ℚ) (trip : Trip) (cache cache' : Dict Claims (ν × ℚ)) (result : Option ν) : Prop where
  kept : ∀ c value stored, cache'.get? c = some (value, stored) → cache.get? c = some (value, stored) ∨
    c = claims ∧ stored = trip.ended ∧ Holds render b trip.call.toEnv claims value
  shown : ∀ value, result = some value →
    (∃ stored, cache.get? claims = some (value, stored) ∧ now < stored + cacheTtlSec) ∨
      Holds render b trip.call.toEnv claims value
  failed : result = none → unexpired cache claims now = none ∧ Refused services b trip (.read (some (.jwt claims)) r)

section Cached

variable {ν : Type} {render : ℕ → Backend db → ν} {services : Services} {b : Backend db} {r : Read} {now : ℚ}
  {trip : Trip} {cache : Dict Claims (ν × ℚ)}

theorem unexpired_eq_some {value : ν} (h : unexpired cache claims now = some value) :
    ∃ stored, cache.get? claims = some (value, stored) ∧ now < stored + cacheTtlSec := by
  unfold unexpired at h
  split at h
  · next value' stored hget =>
      split at h
      · next hfresh =>
          cases h
          exact ⟨stored, hget, hfresh⟩
      · cases h
  · cases h

theorem cached_hit {value : ν} (h : unexpired cache claims now = some value) :
    Cached render services b r claims now trip cache cache (some value) where
  kept _ _ _ := .inl
  shown value' hvalue := by
    cases hvalue
    exact .inl (unexpired_eq_some h)
  failed hnone := by cases hnone

theorem cached_miss {value : ν} (h : Holds render b trip.call.toEnv claims value) :
    Cached render services b r claims now trip cache (cache.set claims (value, trip.ended)) (some value) where
  kept c value' stored hc := by
    rw [Dict.get?_set] at hc
    split at hc
    · next heq =>
        cases hc
        exact .inr ⟨heq, rfl, h⟩
    · exact .inl hc
  shown value' hvalue := by
    cases hvalue
    exact .inr h
  failed hnone := by cases hnone

theorem cached_refused (h : unexpired cache claims now = none)
    (hrefused : Refused services b trip (.read (some (.jwt claims)) r)) :
    Cached render services b r claims now trip cache cache none where
  kept _ _ _ := .inl
  shown _ hvalue := by cases hvalue
  failed _ := ⟨h, hrefused⟩

end Cached

theorem cachedAlerts_spec (lib : Libraries) (d : Process db) (claims : Claims) (now : ℚ) (trip : Trip) :
    ∃ cache result, cachedAlerts lib d claims now trip = (result, { d with cachedAlerts := cache }) ∧
      Cached (tenantAlerts db lib) lib.toServices d.backend (.alerts 0 100) claims now trip d.cachedAlerts cache
        result := by
  unfold cachedAlerts
  cases hcache : unexpired d.cachedAlerts claims now with
  | some alerts => exact ⟨_, _, rfl, cached_hit hcache⟩
  | none =>
      rcases fetchAlerts_cases lib d claims trip with ⟨hfetch, hrefused⟩ | ⟨alerts, hfetch, hholds⟩
      · simp only [hfetch]
        exact ⟨_, _, rfl, cached_refused hcache hrefused⟩
      · simp only [hfetch]
        exact ⟨_, _, rfl, cached_miss hholds⟩

theorem cachedStats_spec (lib : Libraries) (d : Process db) (claims : Claims) (now : ℚ) (trip : Trip) :
    ∃ cache result, cachedStats lib d claims now trip = (result, { d with cachedStats := cache }) ∧
      Cached (tenantStats db lib.toPlatform) lib.toServices d.backend .stats claims now trip d.cachedStats cache
        result := by
  unfold cachedStats
  cases hcache : unexpired d.cachedStats claims now with
  | some stats => exact ⟨_, _, rfl, cached_hit hcache⟩
  | none =>
      rcases fetchStats_cases lib d claims trip with ⟨hfetch, hrefused⟩ | ⟨stats, hfetch, hholds⟩
      · simp only [hfetch]
        exact ⟨_, _, rfl, cached_refused hcache hrefused⟩
      · simp only [hfetch]
        exact ⟨_, _, rfl, cached_miss hholds⟩

end NeuralSoc.Dashboard
