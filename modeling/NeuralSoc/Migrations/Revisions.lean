import NeuralSoc.Base.Relational

/-!
# The migrations of the database

The Alembic revisions over PostgreSQL, where one transaction holds all steps of a command, and `create_all` at the
start of the API. Server defaults and the names of foreign keys are left out of the shapes.
-/

namespace NeuralSoc.Migrations

open Relational

inductive TableName where
  | alerts
  | tenants
  | users
  | incidentTriage
  | sensorTokens
  | auditLog
  deriving DecidableEq

instance : Fintype TableName where
  elems := {.alerts, .tenants, .users, .incidentTriage, .sensorTokens, .auditLog}
  complete t := by cases t <;> decide

def required (name : String) (type : ColumnType) : Column TableName := ⟨name, type, false, none⟩

def optional (name : String) (type : ColumnType) : Column TableName := ⟨name, type, true, none⟩

def foreignKey (name : String) (t : TableName) (nullable : Bool) : Column TableName :=
  ⟨name, .integer, nullable, some t⟩

def index (name : String) (columns : List String) : Key := ⟨name, columns, false⟩

def unique (name : String) (columns : List String) : Key := ⟨name, columns, true⟩

/-! ## api/models.py -/

def tenantColumns : Finset (Column TableName) :=
  {required "id" .integer, required "name" .string, required "slug" .string, required "is_active" .boolean,
    required "created_at" .dateTime}

def tenants : Shape TableName :=
  ⟨tenantColumns, {unique "tenants_pkey" ["id"], index "ix_tenants_id" ["id"], unique "ix_tenants_slug" ["slug"]}⟩

def userColumns : Finset (Column TableName) :=
  {required "id" .integer, foreignKey "tenant_id" .tenants false, required "email" .string,
    required "password_hash" .string, required "role" .string, required "is_active" .boolean,
    required "created_at" .dateTime, optional "last_login_at" .dateTime}

def mfaColumns : Finset (Column TableName) := {optional "totp_secret" .string, required "mfa_enabled" .boolean}

def userKeys : Finset Key :=
  {unique "users_pkey" ["id"], index "ix_users_id" ["id"], index "ix_users_tenant_id" ["tenant_id"],
    unique "ix_users_email" ["email"]}

def alertColumns : Finset (Column TableName) :=
  {required "id" .integer, required "alert_id" .string, required "timestamp" .string, required "event_type" .string,
    optional "threat_class" .string, optional "confidence_score" .float, optional "severity" .string,
    optional "source_ip" .string, optional "destination_ip" .string, optional "evidence" .text,
    optional "trace_id" .string, optional "flow_id" .string, optional "span_id" .string,
    optional "mitre_tactic" .string, optional "mitre_technique" .string, optional "model_name" .string,
    optional "model_version" .string, optional "schema_version" .string}

/-- The indexes on `alerts` that no revision after the first one changes. -/
def alertKeys : Finset Key :=
  {unique "alerts_pkey" ["id"], index "ix_alerts_id" ["id"], index "ix_alerts_timestamp" ["timestamp"],
    index "ix_alerts_threat_class" ["threat_class"], index "ix_alerts_severity" ["severity"],
    index "ix_alerts_trace_id" ["trace_id"], index "ix_alerts_flow_id" ["flow_id"]}

def incidentTriage : Shape TableName :=
  ⟨{required "id" .integer, foreignKey "tenant_id" .tenants false, required "incident_id" .string,
      required "status" .string, optional "note" .text, foreignKey "actor_user_id" .users true,
      required "updated_at" .dateTime},
    {unique "incident_triage_pkey" ["id"], index "ix_incident_triage_id" ["id"],
      index "ix_incident_triage_tenant_id" ["tenant_id"], index "ix_incident_triage_incident_id" ["incident_id"],
      unique "uq_incident_triage_tenant_incident" ["tenant_id", "incident_id"]}⟩

def sensorTokens : Shape TableName :=
  ⟨{required "id" .integer, foreignKey "tenant_id" .tenants false, required "token_hash" .string,
      required "name" .string, required "is_active" .boolean, required "created_at" .dateTime,
      optional "last_used_at" .dateTime},
    {unique "sensor_tokens_pkey" ["id"], index "ix_sensor_tokens_id" ["id"],
      index "ix_sensor_tokens_tenant_id" ["tenant_id"], unique "ix_sensor_tokens_token_hash" ["token_hash"]}⟩

def auditLog : Shape TableName :=
  ⟨{required "id" .integer, foreignKey "tenant_id" .tenants true, foreignKey "actor_user_id" .users true,
      optional "actor_label" .string, required "action" .string, optional "target" .string, optional "detail" .text,
      optional "ip_address" .string, required "created_at" .dateTime},
    {unique "audit_log_pkey" ["id"], index "ix_audit_log_id" ["id"], index "ix_audit_log_tenant_id" ["tenant_id"],
      index "ix_audit_log_actor_user_id" ["actor_user_id"], index "ix_audit_log_action" ["action"],
      index "ix_audit_log_created_at" ["created_at"]}⟩

/-- `Base.metadata` -/
def metadata : TableName → Shape TableName
  | .tenants => tenants
  | .users => ⟨userColumns ∪ mfaColumns, userKeys⟩
  | .alerts =>
      ⟨insert (foreignKey "tenant_id" .tenants false) alertColumns,
        alertKeys ∪ {index "ix_alerts_tenant_id" ["tenant_id"], index "ix_alerts_alert_id" ["alert_id"],
          unique "uq_alerts_tenant_alert_id" ["tenant_id", "alert_id"]}⟩
  | .incidentTriage => incidentTriage
  | .sensorTokens => sensorTokens
  | .auditLog => auditLog

/-! ## The default tenant -/

def idOf (row : Row) : ℤ :=
  match row "id" with
  | .int n => n
  | _ => 0

def freshId (rows : List Row) : ℤ := rows.foldr (fun row m => max (idOf row) m) 0 + 1

def defaultTenant (now : ℚ) (id : ℤ) : Row := fun name =>
  ([("id", .int id), ("name", .str "Default Tenant"), ("slug", .str "default"), ("is_active", .bool true),
    ("created_at", .time now)].lookup name).getD .null

/-- `bulk_insert`, with the columns the server fills in. -/
def insertDefault (now : ℚ) : Statement TableName :=
  .rewrite .tenants fun rows => rows ++ [defaultTenant now (freshId rows)]

/-- `SELECT id FROM tenants WHERE slug = 'default'` -/
def selectDefault (db : Database TableName) : Cell :=
  (((db.rows .tenants).find? fun row => row "slug" = .str "default").map fun row => row "id").getD .null

def ensureDefault (now : ℚ) (db : Database TableName) : Except String (Database TableName) :=
  if selectDefault db = .null then exec db (insertDefault now) else .ok db

/-- `UPDATE alerts SET tenant_id = ... WHERE tenant_id IS NULL` -/
def fillTenant (tenantId : Cell) (row : Row) : Row :=
  if row "tenant_id" = .null then Function.update row "tenant_id" tenantId else row

def backfill (tenantId : Cell) : Statement TableName := .rewrite .alerts fun rows => rows.map (fillTenant tenantId)

/-! ## alembic/versions -/

inductive Revision where
  | r95bddea6b154
  | r74fd85b501da
  | rce52f1799e61
  | r28d9095cde3b
  | r531d123cd6d9
  | rcc4a44b73173
  deriving DecidableEq

def chain : List Revision :=
  [.r95bddea6b154, .r74fd85b501da, .rce52f1799e61, .r28d9095cde3b, .r531d123cd6d9, .rcc4a44b73173]

abbrev Ddl := List (Statement TableName)

abbrev Outcome := Except String (Database TableName)

def upgradeTenants : Ddl :=
  [.createTable .tenants tenants, .createTable .users ⟨userColumns, userKeys⟩,
    .addColumn .alerts (foreignKey "tenant_id" .tenants true) .null,
    .createKey .alerts (index "ix_alerts_tenant_id" ["tenant_id"])]

def upgradeCompositeKey : Ddl :=
  [.dropKey .alerts "ix_alerts_alert_id", .setNullable .alerts "tenant_id" false,
    .createKey .alerts (unique "uq_alerts_tenant_alert_id" ["tenant_id", "alert_id"]),
    .createKey .alerts (index "ix_alerts_alert_id" ["alert_id"])]

def upgradeStep (now : ℚ) (db : Database TableName) : Revision → Outcome
  | .r95bddea6b154 =>
      [.createTable .alerts ⟨alertColumns, insert (unique "ix_alerts_alert_id" ["alert_id"]) alertKeys⟩].foldlM exec db
  | .r74fd85b501da => do
      let db ← upgradeTenants.foldlM exec db
      let db ← exec db (insertDefault now)
      exec db (backfill (selectDefault db))
  | .rce52f1799e61 =>
      [.createTable .incidentTriage incidentTriage, .createTable .sensorTokens sensorTokens].foldlM exec db
  | .r28d9095cde3b => do
      let db ← ensureDefault now db
      let db ← exec db (backfill (selectDefault db))
      upgradeCompositeKey.foldlM exec db
  | .r531d123cd6d9 => [.createTable .auditLog auditLog].foldlM exec db
  | .rcc4a44b73173 =>
      [.addColumn .users (optional "totp_secret" .string) .null,
        .addColumn .users (required "mfa_enabled" .boolean) (.bool false)].foldlM exec db

def downgradeStep : Revision → Ddl
  | .r95bddea6b154 => [.dropTable .alerts]
  | .r74fd85b501da =>
      [.dropKey .alerts "ix_alerts_tenant_id", .dropColumn .alerts "tenant_id", .dropTable .users,
        .dropTable .tenants]
  | .rce52f1799e61 => [.dropTable .sensorTokens, .dropTable .incidentTriage]
  | .r28d9095cde3b =>
      [.dropKey .alerts "ix_alerts_alert_id", .dropKey .alerts "uq_alerts_tenant_alert_id",
        .setNullable .alerts "tenant_id" true, .createKey .alerts (unique "ix_alerts_alert_id" ["alert_id"])]
  | .r531d123cd6d9 => [.dropTable .auditLog]
  | .rcc4a44b73173 => [.dropColumn .users "mfa_enabled", .dropColumn .users "totp_secret"]

/-! ## Commands -/

/-- The place of a revision in the chain of `down_revision`. -/
def Revision.number : Revision → ℕ
  | .r95bddea6b154 => 1
  | .r74fd85b501da => 2
  | .rce52f1799e61 => 3
  | .r28d9095cde3b => 4
  | .r531d123cd6d9 => 5
  | .rcc4a44b73173 => 6

def rank (version : Option Revision) : ℕ := version.elim 0 Revision.number

/-- `version` is what `alembic_version` says. -/
structure Store where
  version : Option Revision
  db : Database TableName

def Store.empty : Store := ⟨none, .empty⟩

def between (low high : ℕ) : List Revision := chain.filter fun r => low < r.number && r.number ≤ high

def upgrade (now : ℚ) (target : Revision) (s : Store) : Except String Store := do
  let db ← (between (rank s.version) target.number).foldlM (upgradeStep now) s.db
  return ⟨if rank s.version < target.number then some target else s.version, db⟩

def downgradeAll (revisions : List Revision) (db : Database TableName) : Outcome :=
  revisions.foldlM (fun db r => (downgradeStep r).foldlM exec db) db

def downgrade (target : Option Revision) (s : Store) : Except String Store := do
  if rank s.version < rank target then throw "not a valid downgrade target"
  let db ← downgradeAll (between (rank target) (rank s.version)).reverse s.db
  return ⟨target, db⟩

/-- The tables in the order in which they are created: none before those it refers to. -/
def sortedTables : List TableName := [.tenants, .users, .alerts, .incidentTriage, .sensorTokens, .auditLog]

/-- A table that is there stays as it is. -/
def createMissing (db : Database TableName) (t : TableName) : Outcome :=
  if (db.schema t).isSome then .ok db else exec db (.createTable t (metadata t))

def createAll (db : Database TableName) : Outcome := sortedTables.foldlM createMissing db

/-- `startup` is a start of the API, `write` a transaction of it. -/
inductive Command where
  | upgrade (now : ℚ) (target : Revision)
  | downgrade (target : Option Revision)
  | stamp (version : Option Revision)
  | startup
  | write (changes : List (TableName × (List Row → List Row)))

def perform (s : Store) : Command → Except String Store
  | .upgrade now target => upgrade now target s
  | .downgrade target => downgrade target s
  | .stamp version => .ok { s with version }
  | .startup => (createAll s.db).map fun db => { s with db }
  | .write changes =>
      (changes.foldlM (fun db change => exec db (.rewrite change.1 change.2)) s.db).map fun db => { s with db }

/-- A command that fails is rolled back. -/
def step (s : Store) (c : Command) : Store :=
  match perform s c with
  | .ok s' => s'
  | .error _ => s

end NeuralSoc.Migrations
