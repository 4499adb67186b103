import NeuralSoc.Migrations.Lemmas.Upgrades

/-!
# What the commands make of a database

Along the chain of the revisions, up and down. A start of the API creates the tables that are missing, whatever the
schema is, and once `audit_log` is there the revision that creates it fails.
-/

namespace NeuralSoc.Migrations

open Relational

variable {db db' : Database TableName}

/-! ## Up -/

/-- A revision takes no column away. -/
theorem columns_persist (r : Revision) : ∀ t, ∀ shape ∈ schemaAt (r.number - 1) t,
    ∃ shape' ∈ schemaAt r.number t, ∀ c ∈ shape.columns, shape'.Has c.name := by
  cases r <;> decide +kernel

theorem Grown.before {r : Revision} {rows rows' : Rows TableName} (h : Grown (schemaAt r.number) rows rows') :
    Grown (schemaAt (r.number - 1)) rows rows' := by
  apply h.of_later
  intro t shape ht
  obtain ⟨shape', ht', hhas⟩ := columns_persist r t shape ht
  refine ⟨shape', ht', ?_⟩
  rintro name ⟨c, hc, rfl⟩
  exact hhas c hc

theorem ascends_cons {a b : ℕ} {r : Revision} {rs : List Revision} (h : ascends a (r :: rs) b = true) :
    a = r.number - 1 ∧ a + 1 = r.number ∧ ascends r.number rs b = true := by
  obtain ⟨hr, hrs⟩ := Bool.and_eq_true_iff.mp h
  have hnumber := of_decide_eq_true hr
  exact ⟨by omega, hnumber.symm, hrs⟩

variable {a b : ℕ} {revisions : List Revision}

/-- The way up succeeds whatever the rows are, and keeps them. -/
theorem upgrades_ok (now : ℚ) (h : ascends a revisions b = true) (hdb : db.schema = schemaAt a) :
    ∃ db', revisions.foldlM (upgradeStep now) db = .ok db' ∧ db'.schema = schemaAt b ∧
      Grown (schemaAt a) db.rows db'.rows := by
  induction revisions generalizing a db with
  | nil =>
      cases of_decide_eq_true h
      exact ⟨db, rfl, hdb, Grown.refl⟩
  | cons r rs ih =>
      obtain ⟨rfl, -, hrs⟩ := ascends_cons h
      obtain ⟨db₁, hstep, hschema₁, hgrown₁⟩ := upgradeStep_ok now r hdb
      obtain ⟨db', hrun, hschema, hgrown⟩ := ih hrs hschema₁
      rw [hdb] at hgrown₁
      exact ⟨db', Fallible.foldlM_cons_eq_ok.mpr ⟨db₁, hstep, hrun⟩, hschema, hgrown₁.trans hgrown.before⟩

/-- Rows that are kept keep their tenant. -/
theorem Grown.tenant {schema : Schema TableName} {rows rows' : Rows TableName} {shape : Shape TableName} {id : Cell}
    (h : Grown schema rows rows') (ht : schema .alerts = some shape) (hhas : shape.Has "tenant_id") (hid : id ≠ .null)
    (hall : ∀ row ∈ rows .alerts, row "tenant_id" = id) : ∀ row ∈ rows' .alerts, row "tenant_id" = id := by
  intro row' hrow'
  obtain ⟨i, hi⟩ := List.getElem?_of_mem hrow'
  have hlt : i < (rows .alerts).length := by
    rw [← h.added .alerts nofun]
    exact (List.getElem?_eq_some_iff.mp hi).1
  obtain ⟨row, hrow, hkept⟩ := h.kept .alerts shape ht i _ (List.getElem?_eq_getElem hlt)
  cases hi.symm.trans hrow
  have hold := hall _ (List.getElem_mem hlt)
  rw [hkept.values "tenant_id" hhas (hold ▸ hid), hold]

/-- From before the tenants, all alerts go to one tenant. -/
theorem upgrades_merge (now : ℚ) (h : ascends a revisions b = true) (hdb : db.schema = schemaAt a) (ha : a ≤ 1)
    (hb : 2 ≤ b) :
    ∃ db', revisions.foldlM (upgradeStep now) db = .ok db' ∧
      ∃ id, id ≠ .null ∧ ∀ row ∈ db'.rows .alerts, row "tenant_id" = id := by
  induction revisions generalizing a db with
  | nil =>
      have hsame := of_decide_eq_true h
      omega
  | cons r rs ih =>
      obtain ⟨rfl, hnumber, hrs⟩ := ascends_cons h
      cases r with
      | r95bddea6b154 =>
          obtain ⟨db₁, hstep, hschema₁, -⟩ := upgradeStep_ok now .r95bddea6b154 hdb
          obtain ⟨db', hrun, hmerged⟩ := ih hrs hschema₁ (Nat.le_refl 1)
          exact ⟨db', Fallible.foldlM_cons_eq_ok.mpr ⟨db₁, hstep, hrun⟩, hmerged⟩
      | r74fd85b501da =>
          obtain ⟨db₁, hstep, hschema₁, -, id, hid, hall⟩ := upgradeTenants_ok now hdb
          obtain ⟨db', hrun, -, hgrown⟩ := upgrades_ok now hrs hschema₁
          refine ⟨db', Fallible.foldlM_cons_eq_ok.mpr ⟨db₁, hstep, hrun⟩, id, hid, ?_⟩
          exact hgrown.tenant rfl (by decide +kernel) hid hall
      | rce52f1799e61 | r28d9095cde3b | r531d123cd6d9 | rcc4a44b73173 => exact absurd ha (by decide)

/-! ## Down -/

theorem descends_cons {r : Revision} {rs : List Revision} (h : descends a (r :: rs) b = true) :
    a = r.number ∧ descends (r.number - 1) rs b = true := by
  obtain ⟨hr, hrs⟩ := Bool.and_eq_true_iff.mp h
  have hnumber := of_decide_eq_true hr
  exact ⟨hnumber.symm, hnumber ▸ hrs⟩

theorem descends_le (h : descends a revisions b = true) : b ≤ a := by
  induction revisions generalizing a with
  | nil => exact (of_decide_eq_true h).ge
  | cons r rs ih =>
      obtain ⟨rfl, hrs⟩ := descends_cons h
      exact (ih hrs).trans (Nat.sub_le _ _)

theorem downgradeAll_cons_eq_ok {r : Revision} {rs : List Revision} :
    downgradeAll (r :: rs) db = .ok db' ↔
      ∃ db₁, (downgradeStep r).foldlM exec db = .ok db₁ ∧ downgradeAll rs db₁ = .ok db' :=
  Fallible.foldlM_cons_eq_ok

theorem downgradeStep_schema {r : Revision} (hdb : db.schema = schemaAt r.number)
    (h : (downgradeStep r).foldlM exec db = .ok db') : db'.schema = schemaAt (r.number - 1) := by
  have hschema := (foldlM_exec_eq_ok h).1
  rw [hdb, downgrade_schema] at hschema
  exact (Except.ok.inj hschema).symm

theorem downgradeAll_schema (h : descends a revisions b = true) (hdb : db.schema = schemaAt a)
    (hrun : downgradeAll revisions db = .ok db') : db'.schema = schemaAt b := by
  induction revisions generalizing a db with
  | nil =>
      cases hrun
      exact of_decide_eq_true h ▸ hdb
  | cons r rs ih =>
      obtain ⟨rfl, hrs⟩ := descends_cons h
      obtain ⟨db₁, hstep, hrest⟩ := downgradeAll_cons_eq_ok.mp hrun
      exact ih hrs (downgradeStep_schema hdb hstep) hrest

/-- No two alerts have one `alert_id`, whatever their tenants are. -/
def UniqueIds (db : Database TableName) : Prop := (db.rows .alerts).Pairwise fun a b => ¬ Clash ["alert_id"] a b

instance (db : Database TableName) : Decidable (UniqueIds db) :=
  inferInstanceAs (Decidable ((db.rows .alerts).Pairwise fun a b => ¬ Clash ["alert_id"] a b))

theorem downgradeStep_ok (r : Revision) (hdb : db.schema = schemaAt r.number)
    (hunique : r = .r28d9095cde3b → UniqueIds db) :
    ∃ db', (downgradeStep r).foldlM exec db = .ok db' := by
  have hfit : Each Statement.onRows (fun rows s => s.Fit rows) db.rows (downgradeStep r) := by
    cases r with
    | r95bddea6b154 => exact ⟨trivial, trivial⟩
    | r74fd85b501da => exact ⟨trivial, (by decide : "tenant_id" ≠ "id"), trivial, trivial, trivial⟩
    | rce52f1799e61 => exact ⟨trivial, trivial, trivial⟩
    | r28d9095cde3b => exact ⟨trivial, trivial, .inl rfl, fun _ => hunique rfl, trivial⟩
    | r531d123cd6d9 => exact ⟨trivial, trivial⟩
    | rcc4a44b73173 =>
        exact ⟨(by decide : "mfa_enabled" ≠ "id"), (by decide : "totp_secret" ≠ "id"), trivial⟩
  obtain ⟨db', hrun, -⟩ := foldlM_exec_ok db _ hfit (hdb ▸ downgrade_schema r)
  exact ⟨db', hrun⟩

/-- The last steps of the chain do not touch the alerts. -/
theorem downgradeStep_alerts {r : Revision} (hr : 4 < r.number) (h : (downgradeStep r).foldlM exec db = .ok db') :
    db'.rows .alerts = db.rows .alerts := by
  rw [(foldlM_exec_eq_ok h).2]
  cases r with
  | r95bddea6b154 | r74fd85b501da | rce52f1799e61 | r28d9095cde3b => exact absurd hr (by decide)
  | r531d123cd6d9 | rcc4a44b73173 => rfl

/-- The old index is unique again. -/
theorem downgradeStep_unique (hdb : db.schema = schemaAt 4)
    (h : (downgradeStep .r28d9095cde3b).foldlM exec db = .ok db') : UniqueIds db := by
  have hok : TableOk db'.rows tenantAlerts (db'.rows .alerts) :=
    (db'.consistent .alerts).of_some (congrFun (downgradeStep_schema hdb h) .alerts)
  have hunique := hok.unique (unique "ix_alerts_alert_id" ["alert_id"]) (by decide +kernel) rfl
  have hsame : db'.rows .alerts = db.rows .alerts := by
    rw [(foldlM_exec_eq_ok h).2]
    rfl
  rwa [hsame] at hunique

theorem eq_of_number_four {r : Revision} (h : r.number = 4) : r = .r28d9095cde3b := by
  cases r with
  | r28d9095cde3b => rfl
  | r95bddea6b154 | r74fd85b501da | rce52f1799e61 | r531d123cd6d9 | rcc4a44b73173 => cases h

/-- The way down succeeds unless it crosses the composite key while two alerts share an `alert_id`. -/
theorem downgrades_ok_iff (h : descends a revisions b = true) (hdb : db.schema = schemaAt a) :
    (∃ db', downgradeAll revisions db = .ok db') ↔ (b < 4 → 4 ≤ a → UniqueIds db) := by
  induction revisions generalizing a db with
  | nil =>
      have hsame := of_decide_eq_true h
      exact iff_of_true ⟨db, rfl⟩ fun hb ha => by omega
  | cons r rs ih =>
      obtain ⟨rfl, hrs⟩ := descends_cons h
      have hle := descends_le hrs
      -- the alerts at the next place are those of here, as long as the composite key is still ahead
      have hnext : ∀ db₁, (downgradeStep r).foldlM exec db = .ok db₁ → 4 ≤ r.number - 1 →
          (UniqueIds db₁ ↔ UniqueIds db) := by
        intro db₁ hstep hr
        rw [UniqueIds, UniqueIds, downgradeStep_alerts (by omega) hstep]
      constructor
      · rintro ⟨db', hrun⟩ hb ha
        obtain ⟨db₁, hstep, hrest⟩ := downgradeAll_cons_eq_ok.mp hrun
        by_cases hr : r.number = 4
        · cases eq_of_number_four hr
          exact downgradeStep_unique hdb hstep
        · have hr' : 4 ≤ r.number - 1 := by omega
          exact (hnext db₁ hstep hr').mp ((ih hrs (downgradeStep_schema hdb hstep)).mp ⟨db', hrest⟩ hb hr')
      · intro hunique
        have hstep : ∃ db₁, (downgradeStep r).foldlM exec db = .ok db₁ := by
          apply downgradeStep_ok r hdb
          rintro rfl
          exact hunique (Nat.lt_succ_of_le hle) (Nat.le_refl 4)
        obtain ⟨db₁, hstep⟩ := hstep
        have hrest : ∃ db', downgradeAll rs db₁ = .ok db' := by
          apply (ih hrs (downgradeStep_schema hdb hstep)).mpr
          intro hb hr
          exact (hnext db₁ hstep hr).mpr (hunique hb (by omega))
        obtain ⟨db', hrest⟩ := hrest
        exact ⟨db', downgradeAll_cons_eq_ok.mpr ⟨db₁, hstep, hrest⟩⟩

/-! ## Starts of the API -/

/-- The tables come after those they refer to. -/
def ordered : List TableName → List TableName → Bool
  | _, [] => true
  | done, t :: todo =>
      decide ((metadata t).Keyed ∧ ∀ c ∈ (metadata t).columns, ∀ r ∈ c.references, r = t ∨ r ∈ done) &&
        ordered (t :: done) todo

theorem createMissing_ok (db : Database TableName) {t : TableName} (hkeyed : (metadata t).Keyed)
    (hrefs : ∀ c ∈ (metadata t).columns, ∀ r ∈ c.references, r = t ∨ (db.schema r).isSome = true) :
    ∃ db', createMissing db t = .ok db' ∧ (db'.schema t).isSome ∧
      ∀ u, (db.schema u).isSome → (db'.schema u).isSome := by
  unfold createMissing
  cases hthere : (db.schema t).isSome with
  | true => exact ⟨db, rfl, hthere, fun u hu => hu⟩
  | false =>
      have hschema : (Statement.createTable t (metadata t)).onSchema db.schema =
          .ok (Function.update db.schema t (some (metadata t))) := by
        simp only [Statement.onSchema]
        rw [if_neg (by simp [hthere]), if_neg (not_not.mpr hkeyed), if_pos hrefs]
      have hfit : (Statement.createTable t (metadata t)).Fit db.rows := trivial
      obtain ⟨db', hrun, hschema', -⟩ := exec_ok hschema (hfit.consistent hschema db.consistent)
      refine ⟨db', hrun, ?_, fun u hu => exec_keeps (by simp) hrun hu⟩
      rw [hschema', Function.update_self]
      rfl

theorem creates_ok {done todo : List TableName} (h : ordered done todo = true)
    (hdone : ∀ t ∈ done, (db.schema t).isSome) :
    ∃ db', todo.foldlM createMissing db = .ok db' ∧ (∀ t ∈ todo, (db'.schema t).isSome) ∧
      ∀ u, (db.schema u).isSome → (db'.schema u).isSome := by
  induction todo generalizing done db with
  | nil => exact ⟨db, rfl, fun t ht => absurd ht List.not_mem_nil, fun u hu => hu⟩
  | cons t todo ih =>
      obtain ⟨ht, htodo⟩ := Bool.and_eq_true_iff.mp h
      obtain ⟨hkeyed, hrefs⟩ := of_decide_eq_true ht
      obtain ⟨db₁, hstep, hnew, hkeeps₁⟩ := createMissing_ok db hkeyed
        fun c hc r hr => (hrefs c hc r hr).imp_right (hdone r)
      have hdone₁ : ∀ u ∈ t :: done, (db₁.schema u).isSome := by
        intro u hu
        cases hu with
        | head => exact hnew
        | tail _ hu => exact hkeeps₁ u (hdone u hu)
      obtain ⟨db', hrun, hall, hkeeps⟩ := ih htodo hdone₁
      refine ⟨db', Fallible.foldlM_cons_eq_ok.mpr ⟨db₁, hstep, hrun⟩, fun u hu => ?_, fun u hu => ?_⟩
      · cases hu with
        | head => exact hkeeps t hnew
        | tail _ hu => exact hall u hu
      · exact hkeeps u (hkeeps₁ u hu)

/-- A start of the API succeeds whatever the schema is, and no table is missing after it. -/
theorem createAll_ok (db : Database TableName) :
    ∃ db', createAll db = .ok db' ∧ ∀ t, (db'.schema t).isSome := by
  have hordered : ordered [] sortedTables = true := by decide +kernel
  have hdone : ∀ t ∈ ([] : List TableName), (db.schema t).isSome := fun t ht => absurd ht List.not_mem_nil
  obtain ⟨db', hrun, hall, -⟩ := creates_ok hordered hdone
  exact ⟨db', hrun, fun t => hall t (by cases t <;> decide)⟩

theorem createAll_of_all (h : ∀ t, (db.schema t).isSome) : createAll db = .ok db := by
  have hsame : ∀ todo : List TableName, todo.foldlM createMissing db = .ok db := by
    intro todo
    induction todo with
    | nil => rfl
    | cons t todo ih => exact Fallible.foldlM_cons_eq_ok.mpr ⟨db, if_pos (h t), ih⟩
  exact hsame sortedTables

theorem createMissing_keeps {t u : TableName} (h : createMissing db t = .ok db') (hu : (db.schema u).isSome) :
    (db'.schema u).isSome := by
  unfold createMissing at h
  split at h
  · cases h
    exact hu
  · exact exec_keeps (by simp) h hu

/-! ## Transactions of the API -/

theorem write_schema {changes : List (TableName × (List Row → List Row))}
    (h : changes.foldlM (fun db change => exec db (.rewrite change.1 change.2)) db = .ok db') :
    db'.schema = db.schema :=
  Fallible.foldlM_keeps (P := fun db₁ => db₁.schema = db.schema)
    (fun _ _ _ hsame hstep => (exec_rewrite_schema hstep).trans hsame) rfl h

/-! ## The table of the audit log -/

/-- Upgrades keep `audit_log`, and the one that creates it fails when it is there. -/
theorem upgradeStep_keeps {now : ℚ} {r : Revision} (h : upgradeStep now db r = .ok db')
    (hlog : (db.schema .auditLog).isSome) : r ≠ .r531d123cd6d9 ∧ (db'.schema .auditLog).isSome := by
  cases r with
  | r95bddea6b154 => exact ⟨by decide, foldlM_exec_keeps (by simp) h hlog⟩
  | r74fd85b501da =>
      obtain ⟨db₁, h₁, h⟩ := Fallible.bind_eq_ok.mp h
      obtain ⟨db₂, h₂, h₃⟩ := Fallible.bind_eq_ok.mp h
      have hlog₁ := foldlM_exec_keeps (by simp [upgradeTenants]) h₁ hlog
      exact ⟨by decide, exec_keeps (by simp [backfill]) h₃ (exec_keeps (by simp [insertDefault]) h₂ hlog₁)⟩
  | rce52f1799e61 => exact ⟨by decide, foldlM_exec_keeps (by simp) h hlog⟩
  | r28d9095cde3b =>
      obtain ⟨db₁, h₁, h⟩ := Fallible.bind_eq_ok.mp h
      obtain ⟨db₂, h₂, h₃⟩ := Fallible.bind_eq_ok.mp h
      have hlog₁ : (db₁.schema .auditLog).isSome := by
        unfold ensureDefault at h₁
        split at h₁
        · exact exec_keeps (by simp [insertDefault]) h₁ hlog
        · cases h₁
          exact hlog
      exact ⟨by decide, foldlM_exec_keeps (by simp [upgradeCompositeKey]) h₃ (exec_keeps (by simp [backfill]) h₂ hlog₁)⟩
  | r531d123cd6d9 =>
      obtain ⟨db₁, hstep, -⟩ := Fallible.foldlM_cons_eq_ok.mp h
      rw [(onSchema_createTable (exec_eq_ok hstep).1).1] at hlog
      cases hlog
  | rcc4a44b73173 => exact ⟨by decide, foldlM_exec_keeps (by simp) h hlog⟩

theorem upgrades_keep {now : ℚ} (h : revisions.foldlM (upgradeStep now) db = .ok db')
    (hlog : (db.schema .auditLog).isSome) : .r531d123cd6d9 ∉ revisions ∧ (db'.schema .auditLog).isSome := by
  induction revisions generalizing db with
  | nil =>
      cases h
      exact ⟨List.not_mem_nil, hlog⟩
  | cons r rs ih =>
      obtain ⟨db₁, hstep, hrest⟩ := Fallible.foldlM_cons_eq_ok.mp h
      obtain ⟨hr, hlog₁⟩ := upgradeStep_keeps hstep hlog
      obtain ⟨hrs, hlog'⟩ := ih hrest hlog₁
      exact ⟨List.not_mem_cons_of_ne_of_not_mem hr.symm hrs, hlog'⟩

theorem downgrades_keep (h : downgradeAll revisions db = .ok db') (hfree : .r531d123cd6d9 ∉ revisions)
    (hlog : (db.schema .auditLog).isSome) : (db'.schema .auditLog).isSome := by
  induction revisions generalizing db with
  | nil =>
      cases h
      exact hlog
  | cons r rs ih =>
      obtain ⟨db₁, hstep, hrest⟩ := downgradeAll_cons_eq_ok.mp h
      apply ih hrest (List.not_mem_of_not_mem_cons hfree)
      apply foldlM_exec_keeps _ hstep hlog
      cases r with
      | r531d123cd6d9 => exact absurd List.mem_cons_self hfree
      | r95bddea6b154 | r74fd85b501da | rce52f1799e61 | r28d9095cde3b | rcc4a44b73173 => simp [downgradeStep]

theorem mem_between {r : Revision} {low high : ℕ} : r ∈ between low high ↔ low < r.number ∧ r.number ≤ high := by
  have hchain : r ∈ chain := by cases r <;> decide
  simp [between, hchain]

end NeuralSoc.Migrations
