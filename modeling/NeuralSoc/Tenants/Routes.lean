import NeuralSoc.Api.Auth
import NeuralSoc.Tenants.Ingest
import Mathlib.Data.List.Dedup

/-!
# The routes to the data of a tenant

`api/routes/alerts.py`, `triage.py`, `audit.py`, `ingest.py` and `get_stats`. Rows come in the order of their
primary keys where a query does not sort them. A dependency that refuses a request comes before the validation
of its parameters, and both before the rate limiter.
-/

namespace NeuralSoc.Tenants

open Api Handler

/-! ## State -/

structure IncidentTriage where
  tenantId : ℕ
  incidentId : String
  status : String
  note : Option String
  actorUserId : Option ℕ
  updatedAt : ℚ
  deriving DecidableEq

structure SensorToken where
  tenantId : ℕ
  tokenHash : String
  name : String
  isActive : Bool
  createdAt : ℚ
  lastUsedAt : Option ℚ
  deriving DecidableEq

/-- All tables, and what the authentication keeps beside them. -/
structure Backend (db : Database) where
  world : World
  alerts : AlertTable db
  triage : Dict ℕ IncidentTriage
  sensors : Dict ℕ SensorToken

/-- The libraries, with `_hash_token` and the `repr` of a text. -/
structure Services extends Platform where
  hashToken : String → String
  repr : String → String

/-- What a request meets, with the token drawn for a new sensor. -/
structure Call extends Env where
  sensorToken : String

variable {db : Database}

abbrev BackendRoute (db : Database) (α : Type) := Handler (Backend db) HttpError α

/-- A part of a request that only needs the users and the tokens. -/
def onWorld {α : Type} (m : Route α) : BackendRoute db α := fun s => ((m s.world).1, { s with world := (m s.world).2 })

/-! ## Responses -/

structure AlertResponse where
  id : ℕ
  alertId : String
  timestamp : String
  eventType : String
  threatClass : Option String
  severity : Option String
  confidenceScore : Option PyFloat
  sourceIp : Option String
  destinationIp : Option String
  evidence : Option String
  traceId : Option String
  flowId : Option String
  spanId : Option String
  mitreTactic : Option String
  mitreTechnique : Option String
  modelName : Option String
  modelVersion : Option String
  schemaVersion : Option String
  deriving DecidableEq

def alertResponse (id : ℕ) (a : Alert) : AlertResponse :=
  ⟨id, a.alertId, a.timestamp, a.eventType, a.threatClass, a.severity, a.confidenceScore, a.sourceIp,
    a.destinationIp, a.evidence, a.traceId, a.flowId, a.spanId, a.mitreTactic, a.mitreTechnique, a.modelName,
    a.modelVersion, a.schemaVersion⟩

structure TriageStatus where
  status : String
  note : String
  actor : String
  updatedAt : Option ℚ
  deriving DecidableEq

structure AuditLogEntry where
  id : ℕ
  event : AuditEvent
  deriving DecidableEq

structure SensorTokenSummary where
  id : ℕ
  name : String
  isActive : Bool
  createdAt : ℚ
  lastUsedAt : Option ℚ
  deriving DecidableEq

inductive BackendResponse where
  | alerts (page : List AlertResponse)
  | alert (row : AlertResponse)
  | stats (totalAlerts critical high medium low : ℕ)
  | statuses (byIncident : List (String × TriageStatus))
  | status (row : TriageStatus)
  | auditLog (page : List AuditLogEntry)
  | sensorTokens (summaries : List SensorTokenSummary)
  | sensorToken (id : ℕ) (name token : String)
  | ingested (response : IngestResponse)
  | auth (response : Response)
  deriving DecidableEq

/-! ## Reading -/

variable (p : Platform) (env : Env)

/-- `scope_to_tenant`: a principal without a tenant sees the rows of all of them. -/
def scopeToTenant {α : Type} (principal : Principal) (tenantOf : α → Option ℕ) (rows : List (ℕ × α)) :
    List (ℕ × α) :=
  match principal.tenantId with
  | none => rows
  | some tenantId => rows.filter fun e => tenantOf e.2 = some tenantId

/-- `Query(0, ge=0)` and `Query(100, ge=1, le=100)` -/
def validPage (cursor limit : ℤ) : Bool := 0 ≤ cursor && 1 ≤ limit && limit ≤ 100

/-- A page of the rows below the cursor, the newest first. -/
def page {α : Type} (cursor limit : ℤ) (rows : List (ℕ × α)) : List (ℕ × α) :=
  let rows := if cursor > 0 then rows.filter fun e => (e.1 : ℤ) < cursor else rows
  (rows.mergeSort fun a b => b.1 ≤ a.1).take limit.toNat

def getAlerts (credentials : Option Token) (cursor limit : ℤ) : BackendRoute db BackendResponse := do
  let principal ← onWorld (requireScope env "alerts:read" credentials)
  ensure (validPage cursor limit) unprocessable
  ensure (!env.limited) rateLimited
  let s ← get
  let rows := scopeToTenant principal (fun a => some a.tenantId) s.alerts.rows.entries
  return .alerts ((page cursor limit rows).map fun e => alertResponse e.1 e.2)

def getAlertById (credentials : Option Token) (alertId : String) : BackendRoute db BackendResponse := do
  let principal ← onWorld (requireScope env "alerts:read" credentials)
  ensure (!env.limited) rateLimited
  let s ← get
  let rows := scopeToTenant principal (fun a => some a.tenantId) s.alerts.rows.entries
  let row ← expect ⟨404, "Alert not found"⟩ (rows.find? fun e => e.2.alertId = alertId)
  return .alert (alertResponse row.1 row.2)

/-- `str(sev).lower() if sev else "unknown"` -/
def severityName (severity : Option String) : String :=
  match severity with
  | some s => if s = "" then "unknown" else p.lower s
  | none => "unknown"

/-- Groups that differ in their capitals fall together, and the last one stays. -/
def severityMap (db : Database) (rows : List (ℕ × Alert)) : Dict String ℕ :=
  let severities := rows.map fun e => e.2.severity
  (db.groupOrder severities.dedup).foldl
    (fun d severity => d.set (severityName p severity) (severities.count severity)) .empty

def getStats (credentials : Option Token) : BackendRoute db BackendResponse := do
  let principal ← onWorld (requireScope env "stats:read" credentials)
  ensure (!env.limited) rateLimited
  let s ← get
  let severities := severityMap p db
    (scopeToTenant principal (fun a => some a.tenantId) s.alerts.rows.entries)
  return .stats severities.values.sum ((severities.get? "critical").getD 0) ((severities.get? "high").getD 0)
    ((severities.get? "medium").getD 0) ((severities.get? "low").getD 0)

def serialize (users : Dict ℕ User) (row : IncidentTriage) : TriageStatus where
  status := row.status
  note := row.note.getD ""
  actor := ((row.actorUserId.bind users.get?).map User.email).getD ""
  updatedAt := some row.updatedAt

def defaultStatus : TriageStatus := ⟨"open", "", "", none⟩

def getAllStatuses (credentials : Option Token) : BackendRoute db BackendResponse := do
  let principal ← onWorld (requireScope env "alerts:read" credentials)
  ensure (!env.limited) rateLimited
  let s ← get
  let rows := scopeToTenant principal (fun row => some row.tenantId) s.triage.entries
  let statuses : Dict String TriageStatus :=
    rows.foldl (fun d e => d.set e.2.incidentId (serialize s.world.users e.2)) .empty
  return .statuses statuses.entries

def getStatus (credentials : Option Token) (incidentId : String) : BackendRoute db BackendResponse := do
  let principal ← onWorld (requireScope env "alerts:read" credentials)
  ensure (!env.limited) rateLimited
  let s ← get
  let rows := scopeToTenant principal (fun row => some row.tenantId) s.triage.entries
  match rows.find? fun e => e.2.incidentId = incidentId with
  | some e => return .status (serialize s.world.users e.2)
  | none => return .status defaultStatus

/-- The rows of `audit_log` with their primary keys. -/
def auditRows (w : World) : List (ℕ × AuditEvent) := (w.audit.zipIdx 1).map fun e => (e.2, e.1)

def listAuditLog (credentials : Option Token) (cursor limit : ℤ) : BackendRoute db BackendResponse := do
  let principal ← onWorld (requireScope env "users:manage" credentials)
  ensure (validPage cursor limit) unprocessable
  ensure (!env.limited) rateLimited
  let s ← get
  let rows := scopeToTenant principal AuditEvent.tenantId (auditRows s.world)
  return .auditLog ((page cursor limit rows).map fun e => ⟨e.1, e.2⟩)

def foreignSensors : HttpError := ⟨403, "Cannot manage another tenant's sensor tokens"⟩

def requireOwnSensors (principal : Principal) (tenantId : ℕ) : BackendRoute db Unit :=
  ensure (principal.tenantId = some tenantId || principal.scopes.contains "*") foreignSensors

def listSensorTokens (credentials : Option Token) (tenantId : ℕ) : BackendRoute db BackendResponse := do
  let principal ← onWorld (requireScope env "users:manage" credentials)
  requireOwnSensors principal tenantId
  let s ← get
  let rows := s.sensors.entries.filter fun e => e.2.tenantId = tenantId
  let rows := rows.mergeSort fun a b => a.2.createdAt ≤ b.2.createdAt
  return .sensorTokens (rows.map fun e => ⟨e.1, e.2.name, e.2.isActive, e.2.createdAt, e.2.lastUsedAt⟩)

/-! ## Writing -/

/-- `VALID_TRIAGE_STATUSES` -/
def validTriageStatuses : List String := ["open", "acknowledged", "false_positive", "confirmed"]

/-- The row with the values set; `onupdate` only fires for a row that has changed. -/
def updateTriage (env : Env) (status : String) (note : Option String) (actor : Option ℕ) (row : IncidentTriage) :
    IncidentTriage :=
  let row' := { row with status, note, actorUserId := actor }
  if row' = row then row else { row' with updatedAt := env.now }

/-- The triage row of an incident of the tenant and its primary key, new or as it was. -/
def triageRow (s : Backend db) (tenantId : ℕ) (incidentId : String) : Option (ℕ × IncidentTriage) :=
  s.triage.entries.find? fun e => e.2.tenantId = tenantId && e.2.incidentId = incidentId

def setStatus (services : Services) (env : Env) (credentials : Option Token) (incidentId status : String)
    (note : Option String) : BackendRoute db BackendResponse := do
  let principal ← onWorld (requireScope env "triage:write" credentials)
  ensure (!env.limited) rateLimited
  ensure (validTriageStatuses.contains status) ⟨422, "Invalid triage status: " ++ services.repr status⟩
  let tenantId ← expect ⟨400, "Triage actions require a per-employee session, not the static service key"⟩
    principal.tenantId
  let s ← get
  let (id, row) := match triageRow s tenantId incidentId with
    | some (id, row) => (id, updateTriage env status note principal.userId row)
    | none => (freshId s.triage, ⟨tenantId, incidentId, status, note, principal.userId, env.now⟩)
  modify fun s => { s with triage := s.triage.set id row }
  onWorld (recordAuditEvent env "triage.set_status"
    { tenantId := some tenantId, actorUserId := principal.userId, target := some incidentId, detail := some status })
  return .status (serialize s.world.users row)

def createSensorToken (services : Services) (call : Call) (credentials : Option Token) (tenantId : ℕ)
    (name : String) : BackendRoute db BackendResponse := do
  let principal ← onWorld (requireScope call.toEnv "users:manage" credentials)
  requireOwnSensors principal tenantId
  let s ← get
  let id := freshId s.sensors
  let sensor : SensorToken := ⟨tenantId, services.hashToken call.sensorToken, name, true, call.now, none⟩
  modify fun s => { s with sensors := s.sensors.set id sensor }
  onWorld (recordAuditEvent call.toEnv "sensor_token.created"
    { tenantId := some tenantId, actorUserId := principal.userId, target := some name })
  return .sensorToken id name call.sensorToken

def missingSensorToken : HttpError := ⟨401, "Missing sensor token"⟩

def invalidSensorToken : HttpError := ⟨401, "Invalid or inactive sensor token"⟩

def requireSensorToken (services : Services) (env : Env) (authorization : String) : BackendRoute db SensorToken := do
  ensure ((services.lower authorization).startsWith "bearer ") missingSensorToken
  let token := strip (String.ofList (authorization.toList.drop 7))
  let s ← get
  let (id, sensor) ← expect invalidSensorToken
    (s.sensors.entries.find? fun e => e.2.tokenHash = services.hashToken token && e.2.isActive)
  let sensor := { sensor with lastUsedAt := some env.now }
  modify fun s => { s with sensors := s.sensors.set id sensor }
  return sensor

def ingest (services : Services) (env : Env) (authorization : String) (batch : List AlertPayload) :
    BackendRoute db BackendResponse := do
  let sensor ← requireSensorToken services env authorization
  ensure (!env.limited) rateLimited
  let s ← get
  let (response, alerts) := ingestAlerts sensor.tenantId batch s.alerts
  modify fun s => { s with alerts }
  return .ingested response

/-! ## Runs -/

inductive Read where
  | alerts (cursor limit : ℤ)
  | alert (alertId : String)
  | stats
  | statuses
  | status (incidentId : String)
  | auditLog (cursor limit : ℤ)
  | users (tenantId : ℕ)
  | sensorTokens (tenantId : ℕ)

def read (credentials : Option Token) : Read → BackendRoute db BackendResponse
  | .alerts cursor limit => getAlerts env credentials cursor limit
  | .alert alertId => getAlertById env credentials alertId
  | .stats => getStats p env credentials
  | .statuses => getAllStatuses env credentials
  | .status incidentId => getStatus env credentials incidentId
  | .auditLog cursor limit => listAuditLog env credentials cursor limit
  | .users tenantId => do
      let response ← onWorld (listUsers env credentials tenantId)
      return .auth response
  | .sensorTokens tenantId => listSensorTokens env credentials tenantId

inductive BackendRequest where
  | api (r : Request)
  | read (credentials : Option Token) (r : Read)
  | setStatus (credentials : Option Token) (incidentId status : String) (note : Option String)
  | createSensorToken (credentials : Option Token) (tenantId : ℕ) (name : String)
  | ingest (authorization : String) (batch : List AlertPayload)

def handleBackend (services : Services) (call : Call) : BackendRequest → BackendRoute db BackendResponse
  | .api r => do
      let response ← onWorld (handle services.toPlatform call.toEnv r)
      return .auth response
  | .read credentials r => read services.toPlatform call.toEnv credentials r
  | .setStatus credentials incidentId status note =>
      setStatus services call.toEnv credentials incidentId status note
  | .createSensorToken credentials tenantId name => createSensorToken services call credentials tenantId name
  | .ingest authorization batch => ingest services call.toEnv authorization batch

def serveBackend (services : Services) (s : Backend db) (request : Call × BackendRequest) : Backend db :=
  (handleBackend services request.1 request.2 s).2

end NeuralSoc.Tenants
