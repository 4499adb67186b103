import NeuralSoc.Tenants.Lemmas.Ingest
import NeuralSoc.Tenants.Lemmas.Isolation
import NeuralSoc.Api.Theorems

/-!
# The guarantees of the tenant data
-/

namespace NeuralSoc.Tenants

open Api

variable (db : Database)

/-! ## Ingest -/

/-- A batch leaves the rows of the other tenants as they are, and what it inserts or changes belongs to the
tenant of the sensor. -/
theorem ingest_isolates_tenants (tenantId : ℕ) (batch : List AlertPayload) (table : AlertTable db) :
    (∀ id a, a.tenantId ≠ tenantId →
        ((ingestAlerts tenantId batch table).2.rows.get? id = some a ↔ table.rows.get? id = some a)) ∧
      ∀ id a, (ingestAlerts tenantId batch table).2.rows.get? id = some a →
        table.rows.get? id = some a ∨ a.tenantId = tenantId := by
  obtain ⟨⟨ds, hchain, -⟩, -⟩ := ingestAlerts_chain tenantId batch table
  refine ⟨fun id a ha => hchain.others ha id, fun id a ha => ?_⟩
  by_cases htenant : a.tenantId = tenantId
  · exact Or.inr htenant
  · exact Or.inl ((hchain.others htenant id).mp ha)

/-- A batch is the upserts of its accepted alerts one after the other, on either path, and sending it again
changes no row. -/
theorem ingest_refines_upserts (tenantId : ℕ) (batch : List AlertPayload) (table : AlertTable db) :
    (ingestAlerts tenantId batch table).2.view tenantId =
        upserts Alert.alertId (table.view tenantId)
          ((batch.filter (accepts db tenantId)).map (AlertPayload.row tenantId)) ∧
      (ingestAlerts tenantId batch table).1.failed = rejections db tenantId batch ∧
      (∀ table', bulkUpsertAlerts tenantId batch table = .ok table' →
        table'.view tenantId = (ingestPerItem tenantId batch table).2.view tenantId) ∧
      (ingestAlerts tenantId batch table).1.accepted + (ingestAlerts tenantId batch table).1.failed.length =
        batch.length ∧
      ∀ id, (ingestAlerts tenantId batch (ingestAlerts tenantId batch table).2).2.rows.get? id =
        (ingestAlerts tenantId batch table).2.rows.get? id := by
  obtain ⟨-, hview, hresponse⟩ := ingestAlerts_chain tenantId batch table
  refine ⟨hview, by rw [hresponse], ?_, ?_, ingestAlerts_again batch table⟩
  · intro table' hbulk
    obtain ⟨hstorable, hbulkView⟩ := bulkUpsertAlerts_ok hbulk
    have hall : batch.filter (accepts db tenantId) = batch :=
      List.filter_eq_self.mpr fun d hd => accepts_eq_true.mpr (hstorable d hd)
    rw [hbulkView, ingestPerItem, (foldl_ingestItem tenantId batch ⟨0, []⟩ table).1.view, hall]
  · rw [hresponse]
    exact length_accepted_rejected batch

/-! ## Reading -/

/-- A session of a tenant reads the same in every two states with the same rows of the tenant, whatever the
rows of the others are. -/
theorem tenant_reads_isolated (services : Services) (env : Env) (tenantId id : ℕ) (s s' : Backend db)
    (claims : Claims) (u : User) (r : Read) (hs : Reachable services s) (hagree : Agree tenantId s s')
    (hid : claims.userId = some id) (hu : s.world.users.get? id = some u) (htenant : u.tenantId = tenantId)
    (hleft : Accepted env s.world claims) (hright : Accepted env s'.world claims) :
    (read services.toPlatform env (some (.jwt claims)) r s).1 =
      (read services.toPlatform env (some (.jwt claims)) r s').1 := by
  obtain ⟨-, hissued, -⟩ := verifyToken_eq_some.mp hleft.1
  refine read_answer services.toPlatform ⟨hleft, hright, fun hscopes => ?_⟩ hs.sound hagree r
  obtain ⟨hclaims, hstar⟩ := hs.sound.session hissued hid hu hscopes
  exact ⟨hclaims.trans (congrArg some htenant), hstar⟩

def plainServices : Services := { asciiPlatform with hashToken := id, repr := fun text => "'" ++ text ++ "'" }

def plainDatabase : Database := ⟨fun _ => none, "UNIQUE constraint failed", some "bulk UPDATE refused", id⟩

def firstSignup : Call × BackendRequest :=
  ({ plainEnvAt 0 "jti-1" with sensorToken := "" }, .api (.signup "B" "al@b.io" "12345678"))

def secondSignup : Call × BackendRequest :=
  ({ plainEnvAt 0 "jti-2" with sensorToken := "" }, .api (.signup "C" "cy@c.io" "12345678"))

def oneTenant : Backend plainDatabase := serveBackend plainServices .empty firstSignup

def twoTenants : Backend plainDatabase := serveBackend plainServices oneTenant secondSignup

/-- The audit log of the first tenant does not show the second one. -/
theorem first_tenant_reads_own_log :
    (read plainServices.toPlatform (plainEnvAt 60 "jti-3") (some (.jwt (adminSession 1 "jti-1"))) (.auditLog 0 100)
        oneTenant).1 =
      (read plainServices.toPlatform (plainEnvAt 60 "jti-3") (some (.jwt (adminSession 1 "jti-1")))
        (.auditLog 0 100) twoTenants).1 := by
  have hagree : Agree 1 oneTenant twoTenants :=
    ⟨by decide +kernel, by decide +kernel, by decide +kernel, by decide +kernel, by decide +kernel⟩
  have hadmin : (oneTenant.world.users.get? 1).map User.tenantId = some 1 := by decide +kernel
  obtain ⟨u, hu, htenant⟩ := Option.map_eq_some_iff.mp hadmin
  exact tenant_reads_isolated plainDatabase plainServices (plainEnvAt 60 "jti-3") 1 1 oneTenant twoTenants
    (adminSession 1 "jti-1") u (.auditLog 0 100) ⟨[firstSignup], rfl⟩ hagree rfl hu htenant
    ⟨by decide +kernel, by decide +kernel⟩ ⟨by decide +kernel, by decide +kernel⟩

end NeuralSoc.Tenants
