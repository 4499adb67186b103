import NeuralSoc.Migrations.Lemmas.Commands

/-!
# The guarantees of the migrations

Over upgrades, downgrades, starts of the API and its transactions in any order, from the empty database.
-/

namespace NeuralSoc.Migrations

open Relational

/-! ## Databases that follow their revision -/

def Managed (s : Store) : Prop := s.db.schema = schemaAt (rank s.version)

/-- `audit_log` is there, and the revision that creates it is still to come. -/
structure Barred (s : Store) : Prop where
  logged : (s.db.schema .auditLog).isSome
  behind : rank s.version < 5

/-- The API is started when the migrations have created all of its tables. -/
def StartsLate (s : Store) (c : Command) : Prop := c = .startup → 5 ≤ rank s.version

variable {s s' : Store} {c : Command}

theorem managed_empty : Managed .empty := schemaAt_zero.symm

theorem upgrade_ok (hs : Managed s) (now : ℚ) (target : Revision) :
    ∃ s', perform s (.upgrade now target) = .ok s' ∧ rank s'.version = max (rank s.version) target.number ∧
      Managed s' ∧ Grown s.db.schema s.db.rows s'.db.rows := by
  obtain ⟨db', hrun, hschema, hgrown⟩ := upgrades_ok now (ascends_between s.version target) hs
  rw [← hs] at hgrown
  have hperform : perform s (.upgrade now target) =
      .ok ⟨if rank s.version < target.number then some target else s.version, db'⟩ :=
    Fallible.bind_eq_ok.mpr ⟨db', hrun, rfl⟩
  have hrank : rank (if rank s.version < target.number then some target else s.version) =
      max (rank s.version) target.number := by
    split
    · rename_i hlt
      exact (max_eq_right hlt.le).symm
    · rename_i hle
      exact (max_eq_left (not_lt.mp hle)).symm
  exact ⟨_, hperform, hrank, by rw [Managed, hrank]; exact hschema, hgrown⟩

theorem downgrade_eq_ok {target : Option Revision} (h : perform s (.downgrade target) = .ok s') :
    rank target ≤ rank s.version ∧ s'.version = target ∧
      downgradeAll (between (rank target) (rank s.version)).reverse s.db = .ok s'.db := by
  change downgrade target s = .ok s' at h
  unfold downgrade at h
  split at h
  · cases h
  · rename_i hle
    obtain ⟨db', hrun, hs'⟩ := Fallible.bind_eq_ok.mp h
    cases hs'
    exact ⟨not_lt.mp hle, rfl, hrun⟩

theorem managed_step (hs : Managed s) (hstamp : ∀ version, c ≠ .stamp version) (hlate : StartsLate s c) :
    Managed (step s c) := by
  unfold step
  cases hrun : perform s c with
  | error e => exact hs
  | ok s' =>
      cases c with
      | upgrade now target =>
          obtain ⟨s₁, hrun₁, -, hmanaged, -⟩ := upgrade_ok hs now target
          cases hrun.symm.trans hrun₁
          exact hmanaged
      | downgrade target =>
          obtain ⟨hle, hversion, hdown⟩ := downgrade_eq_ok hrun
          rw [Managed, hversion]
          exact downgradeAll_schema (descends_between s.version target hle) hs hdown
      | stamp version => exact absurd rfl (hstamp version)
      | startup =>
          obtain ⟨db', hcreate, rfl⟩ := Fallible.map_eq_ok.mp hrun
          have hall : ∀ t, (s.db.schema t).isSome := fun t => hs ▸ schemaAt_isSome (hlate rfl) t
          cases hcreate.symm.trans (createAll_of_all hall)
          exact hs
      | write changes =>
          obtain ⟨db', hwrite, rfl⟩ := Fallible.map_eq_ok.mp hrun
          exact (write_schema hwrite).trans hs

/-! ## Databases that are barred -/

theorem barred_upgrade {now : ℚ} {target : Revision} (hs : Barred s) (h : perform s (.upgrade now target) = .ok s') :
    target.number < 5 ∧ Barred s' := by
  obtain ⟨db', hrun, hs'⟩ := Fallible.bind_eq_ok.mp h
  cases hs'
  obtain ⟨hfree, hlog⟩ := upgrades_keep hrun hs.logged
  have htarget : target.number < 5 := by
    by_contra hge
    exact hfree (mem_between.mpr ⟨hs.behind, not_lt.mp hge⟩)
  refine ⟨htarget, hlog, ?_⟩
  dsimp only
  split
  · exact htarget
  · exact hs.behind

theorem barred_step (hs : Barred s) (hstamp : ∀ version, c ≠ .stamp version) : Barred (step s c) := by
  unfold step
  cases hrun : perform s c with
  | error e => exact hs
  | ok s' =>
      cases c with
      | upgrade now target => exact (barred_upgrade hs hrun).2
      | downgrade target =>
          obtain ⟨hle, hversion, hdown⟩ := downgrade_eq_ok hrun
          constructor
          case logged =>
            apply downgrades_keep hdown _ hs.logged
            intro hmem
            exact absurd (mem_between.mp (List.mem_reverse.mp hmem)).2 (not_le.mpr hs.behind)
          case behind =>
            rw [hversion]
            exact hle.trans_lt hs.behind
      | stamp version => exact absurd rfl (hstamp version)
      | startup =>
          obtain ⟨db', hcreate, rfl⟩ := Fallible.map_eq_ok.mp hrun
          exact ⟨Fallible.foldlM_keeps (fun _ _ _ h hstep => createMissing_keeps hstep h) hs.logged hcreate, hs.behind⟩
      | write changes =>
          obtain ⟨db', hwrite, rfl⟩ := Fallible.map_eq_ok.mp hrun
          exact ⟨by rw [write_schema hwrite]; exact hs.logged, hs.behind⟩

/-- A start of the API before the last table is migrated. -/
theorem barred_startup (hbehind : rank s.version < 5) : Barred (step s .startup) := by
  obtain ⟨db', hcreate, hall⟩ := createAll_ok s.db
  have hperform : perform s .startup = .ok { s with db := db' } := Fallible.map_eq_ok.mpr ⟨db', hcreate, rfl⟩
  rw [step, hperform]
  exact ⟨hall .auditLog, hbehind⟩

variable {commands : List Command}

theorem stampFree_cons (hstamp : ∀ version, .stamp version ∉ c :: commands) :
    (∀ version, c ≠ .stamp version) ∧ ∀ version, .stamp version ∉ commands := by
  constructor
  · rintro version rfl
    exact hstamp version List.mem_cons_self
  · exact fun version hmem => hstamp version (List.mem_cons_of_mem _ hmem)

theorem barred_run (hs : Barred s) (hstamp : ∀ version, .stamp version ∉ commands) :
    Barred (commands.foldl step s) := by
  induction commands generalizing s with
  | nil => exact hs
  | cons c commands ih =>
      obtain ⟨hc, hrest⟩ := stampFree_cons hstamp
      exact ih (barred_step hs hc) hrest

theorem managed_run (hs : Managed s) (hstamp : ∀ version, .stamp version ∉ commands)
    (hlate : Each step StartsLate s commands) : Managed (commands.foldl step s) := by
  induction commands generalizing s with
  | nil => exact hs
  | cons c commands ih =>
      obtain ⟨hc, hrest⟩ := stampFree_cons hstamp
      exact ih (managed_step hs hc hlate.1) hrest hlate.2

theorem reaches_head_iff (hs : Managed s) (hstamp : ∀ version, .stamp version ∉ commands) (now : ℚ) :
    (∃ s', perform (commands.foldl step s) (.upgrade now .rcc4a44b73173) = .ok s') ↔
      Each step StartsLate s commands := by
  induction commands generalizing s with
  | nil =>
      obtain ⟨s', hrun, -⟩ := upgrade_ok hs now .rcc4a44b73173
      exact iff_of_true ⟨s', hrun⟩ trivial
  | cons c commands ih =>
      obtain ⟨hc, hrest⟩ := stampFree_cons hstamp
      by_cases hlate : StartsLate s c
      · exact (ih (managed_step hs hc hlate) hrest).trans (and_iff_right hlate).symm
      · apply iff_of_false
        · rintro ⟨s', hrun⟩
          obtain ⟨rfl, hbehind⟩ := Classical.not_imp.mp hlate
          have hbarred := barred_run (barred_startup (not_le.mp hbehind)) hrest
          exact absurd (barred_upgrade hbarred hrun).1 (by decide)
        · exact fun h => hlate h.1

/-! ## Two tenants -/

def cells (values : List (String × Cell)) : Row := fun name => (values.lookup name).getD .null

def sampleTenant : Row :=
  cells [("id", .int 2), ("name", .str "Acme"), ("slug", .str "acme"), ("is_active", .bool true),
    ("created_at", .time 0)]

def sampleAlert (id tenantId : ℤ) (alertId : String) : Row :=
  cells [("id", .int id), ("tenant_id", .int tenantId), ("alert_id", .str alertId),
    ("timestamp", .str "2026-01-01T00:00:00Z"), ("event_type", .str "dns")]

/-- A second tenant joins the default one, and each has an alert. -/
def twoTenants (first second : String) : List Command :=
  [.upgrade 0 .r531d123cd6d9, .startup,
    .write [(.tenants, fun rows => rows ++ [sampleTenant]),
      (.alerts, fun rows => rows ++ [sampleAlert 1 1 first, sampleAlert 2 2 second])]]

theorem twoTenants_late (first second : String) : Each step StartsLate .empty (twoTenants first second) :=
  ⟨(fun h => by cases h), (fun _ => by decide +kernel), (fun h => by cases h), trivial⟩

/-! ## The guarantees -/

variable (commands) (hstamp : ∀ version, .stamp version ∉ commands)

include hstamp

/-- `create_all` creates `audit_log` too, and `alembic upgrade head` fails from then on: it succeeds exactly when
the API was never started before the migrations had created all of its tables. -/
theorem head_reachable_iff (now : ℚ) :
    (∃ s, perform (commands.foldl step .empty) (.upgrade now .rcc4a44b73173) = .ok s) ↔
      Each step StartsLate .empty commands :=
  reaches_head_iff managed_empty hstamp now

omit hstamp in
theorem head_reachable_iff_early :
    ¬ ∃ s, perform ([.upgrade 0 .r28d9095cde3b, .startup].foldl step .empty) (.upgrade 0 .rcc4a44b73173) = .ok s := by
  intro h
  have hlate := (head_reachable_iff [.upgrade 0 .r28d9095cde3b, .startup] (by simp) 0).mp h
  exact absurd (hlate.2.1 rfl) (by decide +kernel)

/-- An upgrade succeeds whatever rows the API has written and keeps them, but for alerts without a tenant, which
get one. The last revision has exactly the tables of the models. -/
theorem upgrade_keeps_rows (hlate : Each step StartsLate .empty commands) (now : ℚ) (target : Revision) :
    let s := commands.foldl step .empty
    ∃ s', perform s (.upgrade now target) = .ok s' ∧ Grown s.db.schema s.db.rows s'.db.rows ∧
      (target = .rcc4a44b73173 → s'.db.schema = fun t => some (metadata t)) := by
  intro s
  have hmanaged : Managed s := managed_run managed_empty hstamp hlate
  obtain ⟨s', hrun, hrank, hs', hgrown⟩ := upgrade_ok hmanaged now target
  refine ⟨s', hrun, hgrown, ?_⟩
  rintro rfl
  have hhead : rank s.version ≤ Revision.rcc4a44b73173.number := by
    cases s.version with
    | none => exact Nat.zero_le _
    | some r => cases r <;> decide
  rw [hs', hrank, max_eq_right hhead]
  exact schemaAt_head

omit hstamp in
theorem upgrade_keeps_rows_twoTenants :
    let s := (twoTenants "ALT-1" "ALT-1").foldl step .empty
    ∃ s', perform s (.upgrade 0 .rcc4a44b73173) = .ok s' ∧ Grown s.db.schema s.db.rows s'.db.rows ∧
      (Revision.rcc4a44b73173 = .rcc4a44b73173 → s'.db.schema = fun t => some (metadata t)) :=
  upgrade_keeps_rows (twoTenants "ALT-1" "ALT-1") (by simp [twoTenants]) (twoTenants_late "ALT-1" "ALT-1") 0
    .rcc4a44b73173

/-- A downgrade fails exactly when it gives up the composite key while two alerts share an `alert_id`. -/
theorem downgrade_succeeds_iff (hlate : Each step StartsLate .empty commands) (target : Option Revision) :
    let s := commands.foldl step .empty
    (∃ s', perform s (.downgrade target) = .ok s') ↔
      rank target ≤ rank s.version ∧ (rank target < 4 → 4 ≤ rank s.version → UniqueIds s.db) := by
  intro s
  have hmanaged : Managed s := managed_run managed_empty hstamp hlate
  constructor
  · rintro ⟨s', hrun⟩
    obtain ⟨hle, -, hdown⟩ := downgrade_eq_ok hrun
    exact ⟨hle, (downgrades_ok_iff (descends_between s.version target hle) hmanaged).mp ⟨_, hdown⟩⟩
  · rintro ⟨hle, hunique⟩
    obtain ⟨db', hdown⟩ := (downgrades_ok_iff (descends_between s.version target hle) hmanaged).mpr hunique
    refine ⟨⟨target, db'⟩, ?_⟩
    change downgrade target s = _
    unfold downgrade
    rw [if_neg (not_lt.mpr hle)]
    exact Fallible.bind_eq_ok.mpr ⟨db', hdown, rfl⟩

omit hstamp in
theorem downgrade_succeeds_iff_shared :
    ¬ ∃ s', perform ((twoTenants "ALT-1" "ALT-1").foldl step .empty) (.downgrade (some .rce52f1799e61)) = .ok s' := by
  intro h
  have hunique := ((downgrade_succeeds_iff (twoTenants "ALT-1" "ALT-1") (by simp [twoTenants])
    (twoTenants_late "ALT-1" "ALT-1") (some .rce52f1799e61)).mp h).2 (by decide) (by decide +kernel)
  revert hunique
  decide +kernel

/-- From the baseline, where alerts have no tenants, an upgrade gives all of them to one tenant. -/
theorem upgrade_merges_tenants (hlate : Each step StartsLate .empty commands) (now : ℚ) (target : Revision)
    (htarget : 2 ≤ target.number) :
    let s := commands.foldl step .empty
    rank s.version ≤ 1 → ∃ s', perform s (.upgrade now target) = .ok s' ∧
      ∃ id, id ≠ .null ∧ ∀ row ∈ s'.db.rows .alerts, row "tenant_id" = id := by
  intro s hrank
  have hmanaged : Managed s := managed_run managed_empty hstamp hlate
  obtain ⟨db', hrun, hmerged⟩ := upgrades_merge now (ascends_between s.version target) hmanaged hrank
    (htarget.trans (le_max_right _ _))
  exact ⟨_, Fallible.bind_eq_ok.mpr ⟨db', hrun, rfl⟩, hmerged⟩

omit hstamp in
theorem upgrade_merges_tenants_back :
    ∃ s', perform ((twoTenants "ALT-1" "ALT-2" ++ [Command.downgrade (some .r95bddea6b154)]).foldl step .empty)
        (.upgrade 0 .rcc4a44b73173) = .ok s' ∧
      ∃ id, id ≠ .null ∧ ∀ row ∈ s'.db.rows .alerts, row "tenant_id" = id :=
  upgrade_merges_tenants (twoTenants "ALT-1" "ALT-2" ++ [Command.downgrade (some .r95bddea6b154)])
    (by simp [twoTenants])
    (each_append.mpr ⟨twoTenants_late "ALT-1" "ALT-2", (fun h => by cases h), trivial⟩) 0 .rcc4a44b73173 (by decide)
    (by decide +kernel)

end NeuralSoc.Migrations
