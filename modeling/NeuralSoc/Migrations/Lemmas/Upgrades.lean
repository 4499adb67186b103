import NeuralSoc.Migrations.Lemmas.Schemas

/-!
# What an upgrade makes of the rows

A step of an upgrade succeeds on every database of the revision before it, whatever its rows are. Every row is kept
with its values; the default tenant may be added, and alerts without a tenant get it.
-/

namespace NeuralSoc.Migrations

open Relational

/-! ## Rows that are kept -/

structure RowKept (t : TableName) (shape : Shape TableName) (row row' : Row) : Prop where
  values : ∀ name, shape.Has name → row name ≠ .null → row' name = row name
  nulls : ∀ name, shape.Has name → row name = .null → row' name = .null ∨ t = .alerts ∧ name = "tenant_id"

structure Grown (schema : Schema TableName) (rows rows' : Rows TableName) : Prop where
  kept : ∀ t shape, schema t = some shape → ∀ (i : ℕ) (row : Row), (rows t)[i]? = some row →
    ∃ row', (rows' t)[i]? = some row' ∧ RowKept t shape row row'
  added : ∀ t, t ≠ .tenants → (rows' t).length = (rows t).length

variable {schema schema' : Schema TableName} {rows rows' rows'' : Rows TableName} {t : TableName}
  {shape : Shape TableName} {row row' row'' : Row}

theorem RowKept.refl (row : Row) : RowKept t shape row row := ⟨fun _ _ _ => rfl, fun _ _ h => .inl h⟩

theorem RowKept.trans (h : RowKept t shape row row') (h' : RowKept t shape row' row'') :
    RowKept t shape row row'' where
  values name hname hrow := by
    have hsame := h.values name hname hrow
    rw [h'.values name hname (hsame ▸ hrow), hsame]
  nulls name hname hrow := by
    cases h.nulls name hname hrow with
    | inl hnull => exact h'.nulls name hname hnull
    | inr hfilled => exact .inr hfilled

theorem Grown.refl : Grown schema rows rows where
  kept _ _ _ _ row hi := ⟨row, hi, RowKept.refl row⟩
  added _ _ := rfl

theorem Grown.trans (h : Grown schema rows rows') (h' : Grown schema rows' rows'') : Grown schema rows rows'' where
  kept t shape ht i row hi := by
    obtain ⟨row', hi', hkept⟩ := h.kept t shape ht i row hi
    obtain ⟨row'', hi'', hkept'⟩ := h'.kept t shape ht i row' hi'
    exact ⟨row'', hi'', hkept.trans hkept'⟩
  added t ht := (h'.added t ht).trans (h.added t ht)

/-- A schema with more columns says more. -/
theorem Grown.of_later (h : Grown schema' rows rows')
    (hlater : ∀ t shape, schema t = some shape → ∃ shape', schema' t = some shape' ∧
      ∀ name, shape.Has name → shape'.Has name) : Grown schema rows rows' where
  kept t shape ht i row hi := by
    obtain ⟨shape', ht', hhas⟩ := hlater t shape ht
    obtain ⟨row', hi', hkept⟩ := h.kept t shape' ht' i row hi
    exact ⟨row', hi', fun name hname => hkept.values name (hhas name hname),
      fun name hname => hkept.nulls name (hhas name hname)⟩
  added := h.added

theorem grown_map (f : Row → Row) (hf : ∀ shape, schema t = some shape → ∀ row ∈ rows t, RowKept t shape row (f row)) :
    Grown schema rows (Function.update rows t ((rows t).map f)) where
  kept u shape hu i row hi := by
    by_cases hut : u = t
    · subst hut
      rw [Function.update_self, List.getElem?_map, hi]
      exact ⟨f row, rfl, hf shape hu row (List.mem_of_getElem? hi)⟩
    · rw [Function.update_of_ne hut]
      exact ⟨row, hi, RowKept.refl row⟩
  added u _ := by
    by_cases hut : u = t
    · subst hut
      rw [Function.update_self, List.length_map]
    · rw [Function.update_of_ne hut]

theorem grown_append (extra : List Row) :
    Grown schema rows (Function.update rows .tenants (rows .tenants ++ extra)) where
  kept u shape hu i row hi := by
    by_cases hut : u = .tenants
    · subst hut
      rw [Function.update_self, List.getElem?_append_left (List.getElem?_eq_some_iff.mp hi).1]
      exact ⟨row, hi, RowKept.refl row⟩
    · rw [Function.update_of_ne hut]
      exact ⟨row, hi, RowKept.refl row⟩
  added u hu := by rw [Function.update_of_ne hu]

/-- A column that was not there is no loss. -/
theorem grown_addColumn {column : Column TableName} {value : Cell}
    (hnew : ∀ shape, schema t = some shape → ¬ shape.Has column.name) :
    Grown schema rows ((Statement.addColumn t column value).onRows rows) := by
  apply grown_map
  intro shape ht row _
  have hsame : ∀ name, shape.Has name → Function.update row column.name value name = row name := by
    intro name hname
    apply Function.update_of_ne
    rintro rfl
    exact hnew shape ht hname
  exact ⟨fun name hname _ => hsame name hname, fun name hname hrow => .inl ((hsame name hname).trans hrow)⟩

theorem fillTenant_kept (tenantId : Cell) (row : Row) : RowKept .alerts shape row (fillTenant tenantId row) := by
  unfold fillTenant
  split
  · rename_i hnull
    constructor
    case values =>
      intro name _ hrow
      apply Function.update_of_ne
      rintro rfl
      exact hrow hnull
    case nulls =>
      intro name _ hrow
      by_cases hname : name = "tenant_id"
      · exact .inr ⟨rfl, hname⟩
      · rw [Function.update_of_ne hname]
        exact .inl hrow
  · exact RowKept.refl row

/-! ## The default tenant -/

theorem Fits.required {name : String} {type : ColumnType} {v : Cell} (h : Fits rows (required name type) v) :
    v ≠ .null ∧ v.hasType type = true := by
  unfold Fits at h
  split at h
  · cases h
  · rename_i hnull
    exact ⟨hnull, h.1⟩

theorem required_mem_tenants : required "id" .integer ∈ tenants.columns := by decide +kernel

variable {db : Database TableName}

theorem tenantId_int (ht : db.schema .tenants = some tenants) {row : Row} (hrow : row ∈ db.rows .tenants) :
    ∃ n, row "id" = .int n := by
  have hok := (db.consistent .tenants).of_some ht
  obtain ⟨hnull, htype⟩ := Fits.required (hok.fits row hrow _ required_mem_tenants)
  cases hid : row "id" with
  | int n => exact ⟨n, rfl⟩
  | null => exact absurd hid hnull
  | str _ | float _ | bool _ | time _ =>
      change (row "id").hasType .integer = true at htype
      rw [hid] at htype
      cases htype

/-- The lookup finds nothing only if there is nothing. -/
theorem no_default (ht : db.schema .tenants = some tenants) (h : selectDefault db = .null) :
    ∀ row ∈ db.rows .tenants, row "slug" ≠ .str "default" := by
  intro row hrow hslug
  unfold selectDefault at h
  cases hfound : (db.rows .tenants).find? fun row => row "slug" = .str "default" with
  | none => exact absurd hslug (by simpa using List.find?_eq_none.mp hfound row hrow)
  | some tenant =>
      obtain ⟨n, hn⟩ := tenantId_int ht (List.mem_of_find?_eq_some hfound)
      rw [hfound, Option.map_some, Option.getD_some, hn] at h
      cases h

theorem selectDefault_mem (h : selectDefault db ≠ .null) : ∃ row ∈ db.rows .tenants, row "id" = selectDefault db := by
  unfold selectDefault at h ⊢
  cases hfound : (db.rows .tenants).find? fun row => row "slug" = .str "default" with
  | none =>
      rw [hfound] at h
      exact absurd rfl h
  | some tenant => exact ⟨tenant, List.mem_of_find?_eq_some hfound, rfl⟩

theorem idOf_lt_freshId {rows : List Row} {row : Row} (h : row ∈ rows) : idOf row < freshId rows := by
  have hle : ∀ rows : List Row, row ∈ rows → idOf row ≤ rows.foldr (fun row m => max (idOf row) m) 0 := by
    intro rows
    induction rows with
    | nil => exact fun h => absurd h List.not_mem_nil
    | cons r rows ih =>
        intro h
        cases h with
        | head => exact le_max_left _ _
        | tail _ h => exact (ih h).trans (le_max_right _ _)
  exact Int.lt_add_one_of_le (hle rows h)

theorem defaultTenant_fits (rows : Rows TableName) (now : ℚ) (id : ℤ) :
    ∀ c ∈ tenants.columns, Fits rows c (defaultTenant now id c.name) := by
  simp [tenants, tenantColumns, required, Fits, defaultTenant, Cell.hasType, List.lookup_cons]

theorem tenants_unique_keys :
    ∀ key ∈ tenants.keys, key.unique = true → key.columns = ["id"] ∨ key.columns = ["slug"] := by
  decide +kernel

theorem insertDefault_ok (now : ℚ) (ht : db.schema .tenants = some tenants) (hnone : selectDefault db = .null) :
    ∃ db', exec db (insertDefault now) = .ok db' ∧ db'.schema = db.schema ∧
      db'.rows = Function.update db.rows .tenants
        (db.rows .tenants ++ [defaultTenant now (freshId (db.rows .tenants))]) := by
  have hids : ∀ row ∈ db.rows .tenants,
      ∃ row' ∈ db.rows .tenants ++ [defaultTenant now (freshId (db.rows .tenants))], row' "id" = row "id" :=
    fun row hrow => ⟨row, List.mem_append_left _ hrow, rfl⟩
  apply exec_rewrite ht hids
  apply TableOk.append (((db.consistent .tenants).of_some ht).mono (keepsIds_update hids))
  · exact defaultTenant_fits _ now _
  · intro key hkey hunique old hold hclash
    cases tenants_unique_keys key hkey hunique with
    | inl hid =>
        have hsame := (hclash "id" (by simp [hid])).1
        have hlt := idOf_lt_freshId hold
        rw [idOf, hsame] at hlt
        exact absurd hlt (lt_irrefl _)
    | inr hslug => exact no_default ht hnone old hold (hclash "slug" (by simp [hslug])).1

theorem selectDefault_of_last {rows : List Row} {now : ℚ} {id : ℤ}
    (h : db.rows .tenants = rows ++ [defaultTenant now id])
    (hnone : ∀ row ∈ rows, row "slug" ≠ .str "default") : selectDefault db = .int id := by
  have hfound : rows.find? (fun row => row "slug" = .str "default") = none := by
    rw [List.find?_eq_none]
    intro row hrow
    simpa using hnone row hrow
  rw [selectDefault, h, List.find?_append, hfound]
  rfl

theorem ensureDefault_ok (now : ℚ) (ht : db.schema .tenants = some tenants) :
    ∃ db', ensureDefault now db = .ok db' ∧ db'.schema = db.schema ∧ Grown db.schema db.rows db'.rows ∧
      selectDefault db' ≠ .null := by
  unfold ensureDefault
  by_cases hnone : selectDefault db = .null
  · obtain ⟨db', hrun, hschema, hrows⟩ := insertDefault_ok now ht hnone
    have hlast : db'.rows .tenants = db.rows .tenants ++ [defaultTenant now (freshId (db.rows .tenants))] := by
      rw [hrows, Function.update_self]
    refine ⟨db', (if_pos hnone).trans hrun, hschema, hrows ▸ grown_append _, ?_⟩
    rw [selectDefault_of_last hlast (no_default ht hnone)]
    nofun
  · exact ⟨db, if_neg hnone, rfl, Grown.refl, hnone⟩

/-! ## Backfilling -/

theorem tenantAlerts_columns :
    ∀ c ∈ tenantAlerts.columns, c.name = "tenant_id" → c = foreignKey "tenant_id" .tenants true := by
  decide +kernel

theorem tenantAlerts_keys : ∀ key ∈ tenantAlerts.keys, key.unique = true → "tenant_id" ∉ key.columns := by
  decide +kernel

theorem fillTenant_of_null {tenantId : Cell} {row : Row} (h : row "tenant_id" = .null) :
    fillTenant tenantId row "tenant_id" = tenantId := by
  rw [fillTenant, if_pos h, Function.update_self]

theorem fillTenant_of_ne (tenantId : Cell) (row : Row) {name : String} (h : name ≠ "tenant_id") :
    fillTenant tenantId row name = row name := by
  unfold fillTenant
  split
  · exact Function.update_of_ne h _ _
  · rfl

theorem fillTenant_ne_null {tenantId : Cell} (h : tenantId ≠ .null) (row : Row) :
    fillTenant tenantId row "tenant_id" ≠ .null := by
  unfold fillTenant
  split
  · rwa [Function.update_self]
  · assumption

theorem backfill_ok (db : Database TableName) (ha : db.schema .alerts = some tenantAlerts)
    (ht : db.schema .tenants = some tenants) (hid : selectDefault db ≠ .null) :
    ∃ db', exec db (backfill (selectDefault db)) = .ok db' ∧ db'.schema = db.schema ∧
      db'.rows = Function.update db.rows .alerts ((db.rows .alerts).map (fillTenant (selectDefault db))) := by
  have hids : ∀ row ∈ db.rows .alerts,
      ∃ row' ∈ (db.rows .alerts).map (fillTenant (selectDefault db)), row' "id" = row "id" := by
    intro row hrow
    exact ⟨_, List.mem_map_of_mem hrow, fillTenant_of_ne _ row (by decide)⟩
  have hok := ((db.consistent .alerts).of_some ha).mono (keepsIds_update hids)
  apply exec_rewrite ha hids
  apply hok.mapColumn
  · exact fun row _ name hname => fillTenant_of_ne _ row hname
  · intro row hrow c hc hname
    have hfits := hok.fits row hrow c hc
    rw [tenantAlerts_columns c hc hname] at hfits ⊢
    unfold fillTenant
    split
    · obtain ⟨tenant, htenant, hsame⟩ := selectDefault_mem hid
      obtain ⟨n, hn⟩ := tenantId_int ht htenant
      rw [Function.update_self, Fits, if_neg hid]
      refine ⟨by rw [← hsame, hn]; rfl, fun r hr => ?_⟩
      cases hr
      exact ⟨tenant, htenant, hsame⟩
    · exact hfits
  · exact tenantAlerts_keys

/-! ## The steps -/

/-- Every alert that was there when the column came belongs to the default tenant. -/
theorem upgradeTenants_ok (now : ℚ) (h : db.schema = schemaAt 1) :
    ∃ db', upgradeStep now db .r74fd85b501da = .ok db' ∧ db'.schema = schemaAt 2 ∧
      Grown db.schema db.rows db'.rows ∧ ∃ id, id ≠ .null ∧ ∀ row ∈ db'.rows .alerts, row "tenant_id" = id := by
  have hempty : db.rows .tenants = [] := (db.consistent .tenants).of_none (by rw [h]; rfl)
  obtain ⟨db₁, hrun₁, hschema₁, hrows₁⟩ := foldlM_exec_ok db upgradeTenants
    ⟨trivial, trivial, ⟨by decide, by decide⟩, nofun, trivial⟩ (h ▸ upgrade_schema .r74fd85b501da)
  have hempty₁ : db₁.rows .tenants = [] := by
    rw [hrows₁]
    exact hempty
  have hnone₁ : selectDefault db₁ = .null := by
    rw [selectDefault, hempty₁]
    rfl
  obtain ⟨db₂, hrun₂, hschema₂, hrows₂⟩ := insertDefault_ok now (by rw [hschema₁]; rfl) hnone₁
  have hid : selectDefault db₂ = .int (freshId []) := by
    have hlast : db₂.rows .tenants = [] ++ [defaultTenant now (freshId [])] := by
      rw [hrows₂, Function.update_self, hempty₁]
    exact selectDefault_of_last hlast fun row hrow => absurd hrow List.not_mem_nil
  obtain ⟨db₃, hrun₃, hschema₃, hrows₃⟩ := backfill_ok db₂ (by rw [hschema₂, hschema₁]; rfl)
    (by rw [hschema₂, hschema₁]; rfl) (by rw [hid]; nofun)
  refine ⟨db₃, ?_, ?_, ?_, .int (freshId []), nofun, ?_⟩
  · exact Fallible.bind_eq_ok.mpr ⟨db₁, hrun₁, Fallible.bind_eq_ok.mpr ⟨db₂, hrun₂, hrun₃⟩⟩
  · rw [hschema₃, hschema₂, hschema₁]
    rfl
  · have hadded : Grown db.schema db.rows db₁.rows := by
      rw [hrows₁]
      apply grown_addColumn
      intro shape hshape
      rw [h] at hshape
      cases hshape
      decide +kernel
    have hinserted : Grown db.schema db₁.rows db₂.rows := hrows₂ ▸ grown_append _
    have hfilled : Grown db.schema db₂.rows db₃.rows :=
      hrows₃ ▸ grown_map _ fun shape _ row _ => fillTenant_kept _ row
    exact (hadded.trans hinserted).trans hfilled
  · intro row hrow
    have halerts : db₂.rows .alerts = (db.rows .alerts).map fun row => Function.update row "tenant_id" .null := by
      rw [hrows₂, hrows₁]
      rfl
    rw [hrows₃, Function.update_self, halerts, hid] at hrow
    obtain ⟨row', hrow', rfl⟩ := List.mem_map.mp hrow
    obtain ⟨old, -, rfl⟩ := List.mem_map.mp hrow'
    exact fillTenant_of_null (Function.update_self ..)

theorem upgradeCompositeKey_ok (now : ℚ) (h : db.schema = schemaAt 3) :
    ∃ db', upgradeStep now db .r28d9095cde3b = .ok db' ∧ db'.schema = schemaAt 4 ∧
      Grown db.schema db.rows db'.rows := by
  have ht : db.schema .tenants = some tenants := by rw [h]; rfl
  obtain ⟨db₁, hrun₁, hsame₁, hgrown₁, hid⟩ := ensureDefault_ok now ht
  have hschema₁ : db₁.schema = schemaAt 3 := hsame₁.trans h
  obtain ⟨db₂, hrun₂, hschema₂, hrows₂⟩ := backfill_ok db₁ (by rw [hschema₁]; rfl) (by rw [hschema₁]; rfl) hid
  have hschema₃ : db₂.schema = schemaAt 3 := hschema₂.trans hschema₁
  have hfilled : ∀ row ∈ db₂.rows .alerts, row "tenant_id" ≠ .null := by
    intro row hrow
    rw [hrows₂, Function.update_self] at hrow
    obtain ⟨old, -, rfl⟩ := List.mem_map.mp hrow
    exact fillTenant_ne_null hid old
  have hdistinct : (db₂.rows .alerts).Pairwise fun a b => ¬ Clash ["tenant_id", "alert_id"] a b := by
    have hok : TableOk db₂.rows tenantAlerts (db₂.rows .alerts) :=
      (db₂.consistent .alerts).of_some (by rw [hschema₃]; rfl)
    have hunique := hok.unique (unique "ix_alerts_alert_id" ["alert_id"]) (by decide +kernel) rfl
    refine hunique.imp fun hclash hboth => hclash fun name hname => hboth name ?_
    exact List.mem_cons_of_mem _ hname
  obtain ⟨db₃, hrun₃, hschema₄, hrows₃⟩ := foldlM_exec_ok db₂ upgradeCompositeKey
    ⟨trivial, .inr hfilled, fun _ => hdistinct, nofun, trivial⟩ (hschema₃ ▸ upgrade_schema .r28d9095cde3b)
  refine ⟨db₃, ?_, hschema₄, ?_⟩
  · exact Fallible.bind_eq_ok.mpr ⟨db₁, hrun₁, Fallible.bind_eq_ok.mpr ⟨db₂, hrun₂, hrun₃⟩⟩
  · have hgrown₂ : Grown db.schema db₁.rows db₂.rows :=
      hrows₂ ▸ grown_map _ fun shape _ row _ => fillTenant_kept _ row
    have hsame : db₃.rows = db₂.rows := hrows₃
    exact hsame ▸ hgrown₁.trans hgrown₂

/-- A step succeeds on whatever rows the revision before it allows. -/
theorem upgradeStep_ok (now : ℚ) (r : Revision) (h : db.schema = schemaAt (r.number - 1)) :
    ∃ db', upgradeStep now db r = .ok db' ∧ db'.schema = schemaAt r.number ∧ Grown db.schema db.rows db'.rows := by
  cases r with
  | r95bddea6b154 =>
      obtain ⟨db', hrun, hschema, hrows⟩ := foldlM_exec_ok db (upgradeDdl .r95bddea6b154)
        ⟨trivial, trivial⟩ (h ▸ upgrade_schema .r95bddea6b154)
      exact ⟨db', hrun, hschema, by rw [hrows]; exact Grown.refl⟩
  | r74fd85b501da =>
      obtain ⟨db', hrun, hschema, hgrown, -⟩ := upgradeTenants_ok now h
      exact ⟨db', hrun, hschema, hgrown⟩
  | rce52f1799e61 =>
      obtain ⟨db', hrun, hschema, hrows⟩ := foldlM_exec_ok db (upgradeDdl .rce52f1799e61)
        ⟨trivial, trivial, trivial⟩ (h ▸ upgrade_schema .rce52f1799e61)
      exact ⟨db', hrun, hschema, by rw [hrows]; exact Grown.refl⟩
  | r28d9095cde3b => exact upgradeCompositeKey_ok now h
  | r531d123cd6d9 =>
      obtain ⟨db', hrun, hschema, hrows⟩ := foldlM_exec_ok db (upgradeDdl .r531d123cd6d9)
        ⟨trivial, trivial⟩ (h ▸ upgrade_schema .r531d123cd6d9)
      exact ⟨db', hrun, hschema, by rw [hrows]; exact Grown.refl⟩
  | rcc4a44b73173 =>
      obtain ⟨db', hrun, hschema, hrows⟩ := foldlM_exec_ok db (upgradeDdl .rcc4a44b73173)
        ⟨⟨by decide, by decide⟩, ⟨by decide, by decide⟩, trivial⟩ (h ▸ upgrade_schema .rcc4a44b73173)
      refine ⟨db', hrun, hschema, ?_⟩
      have hnew : ∀ column ∈ mfaColumns, ∀ shape, db.schema .users = some shape → ¬ shape.Has column.name := by
        intro column hcolumn shape hshape
        rw [h] at hshape
        cases hshape
        revert column
        decide +kernel
      rw [hrows]
      exact (grown_addColumn (hnew _ (by decide +kernel))).trans (grown_addColumn (hnew _ (by decide +kernel)))

end NeuralSoc.Migrations
