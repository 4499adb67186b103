import NeuralSoc.Tenants.Routes

/-!
# Sessions of the dashboard

`dashboard/app.py` and `dashboard/session_data.py`: the browser tabs of one process, which sign in, sign out and read
through a cache they share, over the backend that others use at the same time. What the pages draw is left out.
-/

namespace NeuralSoc.Dashboard

open Api Tenants

structure Libraries extends Services where
  /-- `json.loads(text)`; `none` is an exception -/
  loads : String → Option Json

/-! ## State -/

/-- An alert as the pages read it. -/
structure FetchedAlert where
  response : AlertResponse
  evidence : Json
  deriving DecidableEq

structure Stats where
  totalAlerts : ℕ
  critical : ℕ
  high : ℕ
  medium : ℕ
  low : ℕ
  deriving DecidableEq

/-- `st.session_state` of a tab. -/
structure Tab where
  accessToken : Option Claims
  role : Option Role
  tenantId : Option ℕ
  analystName : Option String
  pendingMfaToken : Option Claims
  pendingMfaEmail : Option String
  lastGood : Option ℚ

def Tab.new : Tab := ⟨none, none, none, none, none, none, none⟩

/-- A process with the backend it reads. The cached values have the time they were stored. -/
structure Process (db : Database) where
  backend : Backend db
  cachedAlerts : Dict Claims (List FetchedAlert × ℚ)
  cachedStats : Dict Claims (Stats × ℚ)
  tabs : ℕ → Tab

variable {db : Database}

namespace Process

def start : Process db := ⟨⟨⟨.empty, .empty, [], [], [], [], []⟩, .empty, .empty, .empty⟩, .empty, .empty, fun _ => .new⟩

def setTab (d : Process db) (i : ℕ) (tab : Tab) : Process db := { d with tabs := Function.update d.tabs i tab }

end Process

/-! ## Requests -/

inductive Delivery where
  | lost
  | unanswered
  | answered

/-- A request over the network: what the backend meets, and the clock of the dashboard once it is over. -/
structure Trip where
  call : Call
  delivery : Delivery
  ended : ℚ

/-- The answer to a request; `none` is a `RequestException`. -/
def send (services : Services) (d : Process db) (trip : Trip) (r : BackendRequest) :
    Option (Except HttpError BackendResponse) × Process db :=
  let after := { d with backend := serveBackend services d.backend (trip.call, r) }
  match trip.delivery with
  | .lost => (none, d)
  | .unanswered => (none, after)
  | .answered => (some (handleBackend services trip.call r d.backend).1, after)

variable (lib : Libraries)

/-- `_deserialize_evidence` -/
def deserializeEvidence (a : AlertResponse) : FetchedAlert :=
  ⟨a, match a.evidence with
    | some text => (lib.loads text).getD (.str text)
    | none => .null⟩

/-- `fetch_alerts`; `none` is an exception. -/
def fetchAlerts (d : Process db) (token : Claims) (trip : Trip) : Option (List FetchedAlert) × Process db :=
  match send lib.toServices d trip (.read (some (.jwt token)) (.alerts 0 100)) with
  | (some (.ok (.alerts page)), d) => (some (page.map (deserializeEvidence lib)), d)
  | (_, d) => (none, d)

/-- `fetch_stats` -/
def fetchStats (d : Process db) (token : Claims) (trip : Trip) : Option Stats × Process db :=
  match send lib.toServices d trip (.read (some (.jwt token)) .stats) with
  | (some (.ok (.stats total critical high medium low)), d) => (some ⟨total, critical, high, medium, low⟩, d)
  | (_, d) => (none, d)

/-! ## The cache -/

def cacheTtlSec : ℚ := 3

/-- The value of a cached function, for an argument that it was called with less than the time to live ago. -/
def unexpired {ν : Type} (cache : Dict Claims (ν × ℚ)) (token : Claims) (now : ℚ) : Option ν :=
  match cache.get? token with
  | some (value, stored) => if now < stored + cacheTtlSec then some value else none
  | none => none

/-- `_cached_alerts` -/
def cachedAlerts (d : Process db) (token : Claims) (now : ℚ) (trip : Trip) :
    Option (List FetchedAlert) × Process db :=
  match unexpired d.cachedAlerts token now with
  | some alerts => (some alerts, d)
  | none =>
      match fetchAlerts lib d token trip with
      | (some alerts, d) => (some alerts, { d with cachedAlerts := d.cachedAlerts.set token (alerts, trip.ended) })
      | (none, d) => (none, d)

/-- `_cached_stats` -/
def cachedStats (d : Process db) (token : Claims) (now : ℚ) (trip : Trip) : Option Stats × Process db :=
  match unexpired d.cachedStats token now with
  | some stats => (some stats, d)
  | none =>
      match fetchStats lib d token trip with
      | (some stats, d) => (some stats, { d with cachedStats := d.cachedStats.set token (stats, trip.ended) })
      | (none, d) => (none, d)

/-! ## Pages -/

/-- `get_alerts` -/
def getAlerts (d : Process db) (i : ℕ) (now : ℚ) (trip : Trip) : List FetchedAlert × Process db :=
  match (d.tabs i).accessToken with
  | some token =>
      match cachedAlerts lib d token now trip with
      | (alerts, d) => (alerts.getD [], d)
  | none => ([], d)

structure Status where
  brokerHealthy : Bool
  lastEventTime : ℚ
  incidentCount : ℕ
  alertCount : ℕ
  stats : Stats

def unhealthy (tab : Tab) : Status := ⟨false, tab.lastGood.getD 0, 0, 0, ⟨0, 0, 0, 0, 0⟩⟩

def healthy (alerts : List FetchedAlert) (stats : Stats) (clock : ℚ) : Status :=
  ⟨true, clock, alerts.length, alerts.length, stats⟩

/-- `status`; `clock` is read at its end. -/
def status (d : Process db) (i : ℕ) (now : ℚ) (alertsTrip statsTrip : Trip) (clock : ℚ) : Status × Process db :=
  match (d.tabs i).accessToken with
  | none => (unhealthy (d.tabs i), d)
  | some token =>
      match cachedAlerts lib d token now alertsTrip with
      | (none, d) => (unhealthy (d.tabs i), d)
      | (some alerts, d) =>
          match cachedStats lib d token now statsTrip with
          | (none, d) => (unhealthy (d.tabs i), d)
          | (some stats, d) =>
              (healthy alerts stats clock, d.setTab i { d.tabs i with lastGood := some clock })

/-! ## Signing in and out -/

/-- The form of `_authenticated`, which a tab has that is not signed in and has no challenge. -/
def signIn (d : Process db) (i : ℕ) (email password : String) (trip : Trip) : Process db :=
  let tab := d.tabs i
  if tab.accessToken.isSome || tab.pendingMfaToken.isSome then d
  else
    match send lib.toServices d trip (.api (.login (strip email) password)) with
    | (some (.ok (.auth (.mfaRequired mfaToken))), d) =>
        d.setTab i { tab with pendingMfaToken := some mfaToken, pendingMfaEmail := some (strip email) }
    | (some (.ok (.auth (.token accessToken tenantId role))), d) =>
        d.setTab i { tab with
          accessToken := some accessToken, role := some role, tenantId := some tenantId,
          analystName := some (strip email) }
    | (_, d) => d

/-- `_mfa_challenge_form` -/
def verifyCode (d : Process db) (i : ℕ) (code : String) (trip : Trip) : Process db :=
  let tab := d.tabs i
  match tab.accessToken, tab.pendingMfaToken with
  | none, some mfaToken =>
      match send lib.toServices d trip (.api (.verifyMfa (.jwt mfaToken) (strip code))) with
      | (some (.ok (.auth (.token accessToken tenantId role))), d) =>
          d.setTab i { tab with
            accessToken := some accessToken, role := some role, tenantId := some tenantId,
            analystName := some (tab.pendingMfaEmail.getD ""), pendingMfaEmail := none, pendingMfaToken := none }
      | (_, d) => d
  | _, _ => d

/-- The button below the challenge. -/
def backToLogin (d : Process db) (i : ℕ) : Process db :=
  let tab := d.tabs i
  if tab.accessToken.isNone && tab.pendingMfaToken.isSome then
    d.setTab i { tab with pendingMfaToken := none, pendingMfaEmail := none }
  else d

/-- The session is cleared whatever comes of the request. -/
def logOut (d : Process db) (i : ℕ) (trip : Trip) : Process db :=
  let tab := d.tabs i
  match tab.accessToken with
  | some token =>
      (send lib.toServices d trip (.api (.logout (.jwt token)))).2.setTab i
        { tab with accessToken := none, analystName := none, role := none, tenantId := none }
  | none => d

/-! ## Runs -/

inductive Event where
  /-- a request from outside the dashboard -/
  | backend (call : Call) (r : BackendRequest)
  | signIn (tab : ℕ) (email password : String) (trip : Trip)
  | verifyCode (tab : ℕ) (code : String) (trip : Trip)
  | backToLogin (tab : ℕ)
  | logOut (tab : ℕ) (trip : Trip)
  | alerts (tab : ℕ) (now : ℚ) (trip : Trip)
  | status (tab : ℕ) (now : ℚ) (alertsTrip statsTrip : Trip) (clock : ℚ)

def step (d : Process db) : Event → Process db
  | .backend call r => { d with backend := serveBackend lib.toServices d.backend (call, r) }
  | .signIn i email password trip => signIn lib d i email password trip
  | .verifyCode i code trip => verifyCode lib d i code trip
  | .backToLogin i => backToLogin d i
  | .logOut i trip => logOut lib d i trip
  | .alerts i now trip => (getAlerts lib d i now trip).2
  | .status i now alertsTrip statsTrip clock => (status lib d i now alertsTrip statsTrip clock).2

def run (events : List Event) : Process db := events.foldl (step lib) .start

end NeuralSoc.Dashboard
