import NeuralSoc.Base.Fallible
import NeuralSoc.Base.Relational

/-!
# What statements keep

A statement that succeeds has the effect it has on the schema and on the rows. Most statements about the schema
cannot break a constraint of the rows, and the others ask one thing of them: statements that are `Fit` for the rows
succeed whenever the schema allows them.
-/

namespace NeuralSoc.Relational

variable {τ : Type}

/-! ## Constraints -/

/-- Every id of a table is still there. -/
def KeepsIds (rows rows' : Rows τ) : Prop := ∀ t, ∀ row ∈ rows t, ∃ row' ∈ rows' t, row' "id" = row "id"

variable {rows rows' : Rows τ} {shape shape' : Shape τ} {own own' : List Row} {c : Column τ} {v : Cell}

theorem Fits.mono (hids : KeepsIds rows rows') (h : Fits rows c v) : Fits rows' c v := by
  unfold Fits at h ⊢
  split
  · rename_i hnull
    rwa [if_pos hnull] at h
  · rename_i hnull
    rw [if_neg hnull] at h
    refine ⟨h.1, fun t ht => ?_⟩
    obtain ⟨row, hrow, hid⟩ := h.2 t ht
    obtain ⟨row', hrow', hsame⟩ := hids t row hrow
    exact ⟨row', hrow', hsame.trans hid⟩

theorem TableOk.mono (hids : KeepsIds rows rows') (h : TableOk rows shape own) : TableOk rows' shape own :=
  ⟨h.keyed, fun row hrow c hc => (h.fits row hrow c hc).mono hids, h.unique⟩

theorem clash_congr {columns : List String} {a a' b b' : Row} (ha : ∀ name ∈ columns, a' name = a name)
    (hb : ∀ name ∈ columns, b' name = b name) : Clash columns a' b' ↔ Clash columns a b := by
  unfold Clash
  constructor
  · intro h name hname
    rw [← ha name hname, ← hb name hname]
    exact h name hname
  · intro h name hname
    rw [ha name hname, hb name hname]
    exact h name hname

/-- Rows that are changed outside of the columns of a key clash as before. -/
theorem pairwise_map_of_same {columns : List String} {f : Row → Row}
    (hsame : ∀ row ∈ own, ∀ name ∈ columns, f row name = row name)
    (h : own.Pairwise fun a b => ¬ Clash columns a b) :
    (own.map f).Pairwise fun a b => ¬ Clash columns a b := by
  rw [List.pairwise_map]
  refine h.imp_of_mem ?_
  intro a b ha hb hclash hmapped
  exact hclash ((clash_congr (hsame a ha) (hsame b hb)).mp hmapped)

theorem ConsistentAt.of_some {schema : Schema τ} {t : τ} (h : ConsistentAt schema rows t) (ht : schema t = some shape) :
    TableOk rows shape (rows t) := by
  rw [ConsistentAt, ht] at h
  exact h

theorem ConsistentAt.of_none {schema : Schema τ} {t : τ} (h : ConsistentAt schema rows t) (ht : schema t = none) :
    rows t = [] := by
  rw [ConsistentAt, ht] at h
  exact h

/-! ## Tables -/

theorem TableOk.dropColumn {name : String} (h : TableOk rows shape own)
    (hless : shape.dropColumn name = .ok shape') :
    TableOk rows shape' (own.map fun row => Function.update row name .null) := by
  unfold Shape.dropColumn at hless
  split at hless
  · cases hless
    constructor
    case keyed =>
      intro key hkey n hn
      obtain ⟨hkey, hfree⟩ := Finset.mem_filter.mp hkey
      obtain ⟨c, hc, hcname⟩ := h.keyed key hkey n hn
      refine ⟨c, Finset.mem_filter.mpr ⟨hc, ?_⟩, hcname⟩
      rw [hcname]
      rintro rfl
      exact hfree hn
    case fits =>
      intro row' hrow' c hc
      obtain ⟨row, hrow, rfl⟩ := List.mem_map.mp hrow'
      obtain ⟨hc, hne⟩ := Finset.mem_filter.mp hc
      rw [Function.update_of_ne hne]
      exact h.fits row hrow c hc
    case unique =>
      intro key hkey hunique
      obtain ⟨hkey, hfree⟩ := Finset.mem_filter.mp hkey
      apply pairwise_map_of_same _ (h.unique key hkey hunique)
      intro row _ n hn
      apply Function.update_of_ne
      rintro rfl
      exact hfree hn
  · cases hless

theorem TableOk.createKey {key : Key} (h : TableOk rows shape own) (hnew : shape.createKey key = .ok shape')
    (hunique : key.unique = true → own.Pairwise fun a b => ¬ Clash key.columns a b) : TableOk rows shape' own := by
  unfold Shape.createKey at hnew
  split at hnew
  · cases hnew
  · split at hnew
    · rename_i hcolumns
      cases hnew
      constructor
      case keyed =>
        intro k hk
        cases Finset.mem_insert.mp hk with
        | inl heq => exact heq ▸ hcolumns
        | inr hold => exact h.keyed k hold
      case fits => exact h.fits
      case unique =>
        intro k hk hku
        cases Finset.mem_insert.mp hk with
        | inl heq => exact heq ▸ hunique (heq ▸ hku)
        | inr hold => exact h.unique k hold hku
    · cases hnew

theorem TableOk.dropKey {name : String} (h : TableOk rows shape own) (hless : shape.dropKey name = .ok shape') :
    TableOk rows shape' own := by
  unfold Shape.dropKey at hless
  split at hless
  · cases hless
    exact ⟨fun k hk => h.keyed k (Finset.mem_filter.mp hk).1, h.fits,
      fun k hk => h.unique k (Finset.mem_filter.mp hk).1⟩
  · cases hless

/-- One column is set anew, outside of the keys. -/
theorem TableOk.mapColumn {name : String} {f : Row → Row} (h : TableOk rows shape own)
    (hf : ∀ row ∈ own, ∀ n, n ≠ name → f row n = row n)
    (hfits : ∀ row ∈ own, ∀ c ∈ shape.columns, c.name = name → Fits rows c (f row name))
    (hkeys : ∀ key ∈ shape.keys, key.unique = true → name ∉ key.columns) : TableOk rows shape (own.map f) := by
  constructor
  case keyed => exact h.keyed
  case fits =>
    intro row' hrow' c hc
    obtain ⟨row, hrow, rfl⟩ := List.mem_map.mp hrow'
    by_cases hname : c.name = name
    · rw [hname]
      exact hfits row hrow c hc hname
    · rw [hf row hrow c.name hname]
      exact h.fits row hrow c hc
  case unique =>
    intro key hkey hunique
    apply pairwise_map_of_same _ (h.unique key hkey hunique)
    intro row hrow n hn
    apply hf row hrow
    rintro rfl
    exact hkeys key hkey hunique hn

theorem TableOk.append {row : Row} (h : TableOk rows shape own) (hfits : ∀ c ∈ shape.columns, Fits rows c (row c.name))
    (hnew : ∀ key ∈ shape.keys, key.unique = true → ∀ old ∈ own, ¬ Clash key.columns old row) :
    TableOk rows shape (own ++ [row]) := by
  constructor
  case keyed => exact h.keyed
  case fits =>
    intro r hr c hc
    cases List.mem_append.mp hr with
    | inl hold => exact h.fits r hold c hc
    | inr hlast =>
        rw [List.mem_singleton.mp hlast]
        exact hfits c hc
  case unique =>
    intro key hkey hunique
    rw [List.pairwise_append]
    refine ⟨h.unique key hkey hunique, List.pairwise_singleton _ _, fun old hold r hr => ?_⟩
    rw [List.mem_singleton.mp hr]
    exact hnew key hkey hunique old hold

variable [DecidableEq τ]

theorem keepsIds_update {t : τ} (h : ∀ row ∈ rows t, ∃ row' ∈ own', row' "id" = row "id") :
    KeepsIds rows (Function.update rows t own') := by
  intro r row hrow
  by_cases hr : r = t
  · subst hr
    rw [Function.update_self]
    exact h row hrow
  · rw [Function.update_of_ne hr]
    exact ⟨row, hrow, rfl⟩

/-- One table changes and keeps its ids. -/
theorem Consistent.update {schema : Schema τ} {t : τ} (h : Consistent schema rows)
    (hids : ∀ row ∈ rows t, ∃ row' ∈ own', row' "id" = row "id")
    (hok : TableOk (Function.update rows t own') shape' own') :
    Consistent (Function.update schema t (some shape')) (Function.update rows t own') := by
  intro r
  unfold ConsistentAt
  by_cases hr : r = t
  · subst hr
    rw [Function.update_self, Function.update_self]
    exact hok
  · rw [Function.update_of_ne hr, Function.update_of_ne hr]
    cases hs : schema r with
    | none => exact (h r).of_none hs
    | some shape => exact ((h r).of_some hs).mono (keepsIds_update hids)

/-- A table changes its shape and keeps its rows. -/
theorem Consistent.reshape {schema : Schema τ} {t : τ} (h : Consistent schema rows)
    (hok : TableOk rows shape' (rows t)) : Consistent (Function.update schema t (some shape')) rows := by
  have hself : Function.update rows t (rows t) = rows := Function.update_eq_self t rows
  have hids : ∀ row ∈ rows t, ∃ row' ∈ rows t, row' "id" = row "id" := fun row hrow => ⟨row, hrow, rfl⟩
  have hupdate : Consistent (Function.update schema t (some shape')) (Function.update rows t (rows t)) := by
    apply h.update hids
    rwa [hself]
  rwa [hself] at hupdate

theorem Consistent.drop {schema : Schema τ} {t : τ} (h : Consistent schema rows)
    (hfree : ¬ ∃ r, r ≠ t ∧ ∃ shape ∈ schema r, shape.References t) :
    Consistent (Function.update schema t none) (Function.update rows t []) := by
  intro r
  unfold ConsistentAt
  by_cases hr : r = t
  · subst hr
    rw [Function.update_self, Function.update_self]
  · rw [Function.update_of_ne hr, Function.update_of_ne hr]
    cases hs : schema r with
    | none => exact (h r).of_none hs
    | some shape =>
        have hok := (h r).of_some hs
        refine ⟨hok.keyed, fun row hrow c hc => ?_, hok.unique⟩
        have hfits := hok.fits row hrow c hc
        unfold Fits at hfits ⊢
        split
        · rename_i hnull
          rwa [if_pos hnull] at hfits
        · rename_i hnull
          rw [if_neg hnull] at hfits
          refine ⟨hfits.1, fun u hu => ?_⟩
          -- the dropped table is not one that a column refers to
          have hut : u ≠ t := by
            rintro rfl
            exact hfree ⟨r, hr, shape, hs, c, hc, hu⟩
          rw [Function.update_of_ne hut]
          exact hfits.2 u hu

/-! ## Columns -/

theorem TableOk.addColumn {column : Column τ} {value : Cell} (h : TableOk rows shape own)
    (hnew : shape.addColumn column = .ok shape') (hfits : Fits rows column value) :
    TableOk rows shape' (own.map fun row => Function.update row column.name value) := by
  unfold Shape.addColumn at hnew
  split at hnew
  · cases hnew
  · rename_i hfresh
    cases hnew
    have hother : ∀ c ∈ shape.columns, c.name ≠ column.name := fun c hc heq => hfresh ⟨c, hc, heq⟩
    constructor
    case keyed =>
      intro key hkey name hname
      obtain ⟨c, hc, hcname⟩ := h.keyed key hkey name hname
      exact ⟨c, Finset.mem_insert_of_mem hc, hcname⟩
    case fits =>
      intro row' hrow' c hc
      obtain ⟨row, hrow, rfl⟩ := List.mem_map.mp hrow'
      cases Finset.mem_insert.mp hc with
      | inl heq =>
          rw [heq, Function.update_self]
          exact hfits
      | inr hold =>
          rw [Function.update_of_ne (hother c hold)]
          exact h.fits row hrow c hold
    case unique =>
      intro key hkey hunique
      apply pairwise_map_of_same _ (h.unique key hkey hunique)
      intro row _ name hname
      apply Function.update_of_ne
      obtain ⟨c, hc, rfl⟩ := h.keyed key hkey name hname
      exact hother c hc

theorem Shape.has_setNullable {name n : String} {nullable : Bool} (h : shape.setNullable name nullable = .ok shape')
    (hn : shape.Has n) : shape'.Has n := by
  unfold Shape.setNullable at h
  split at h
  · cases h
    obtain ⟨c, hc, rfl⟩ := hn
    refine ⟨_, Finset.mem_image_of_mem _ hc, ?_⟩
    split <;> rfl
  · cases h

/-- A column whose values are all there can be made NOT NULL. -/
theorem TableOk.setNullable {name : String} {nullable : Bool} (h : TableOk rows shape own)
    (hset : shape.setNullable name nullable = .ok shape')
    (hfilled : nullable = true ∨ ∀ row ∈ own, row name ≠ .null) : TableOk rows shape' own := by
  have hhas := fun n => Shape.has_setNullable (n := n) hset
  unfold Shape.setNullable at hset
  split at hset
  · cases hset
    constructor
    case keyed => exact fun key hkey n hn => hhas n (h.keyed key hkey n hn)
    case fits =>
      intro row hrow c hc
      obtain ⟨old, hold, rfl⟩ := Finset.mem_image.mp hc
      have hfits := h.fits row hrow old hold
      split
      · rename_i hname
        unfold Fits at hfits ⊢
        dsimp only
        split
        · rename_i hnull
          exact hfilled.resolve_right fun hall => hall row hrow (hname ▸ hnull)
        · rename_i hnull
          rwa [if_neg hnull] at hfits
      · exact hfits
    case unique => exact h.unique
  · cases hset

/-! ## Statements -/

theorem onShape_eq_ok {schema schema' : Schema τ} {t : τ} {f : Shape τ → Except String (Shape τ)}
    (h : onShape schema t f = .ok schema') :
    ∃ shape shape', schema t = some shape ∧ f shape = .ok shape' ∧
      schema' = Function.update schema t (some shape') := by
  unfold onShape at h
  cases hs : schema t with
  | none =>
      rw [hs] at h
      cases h
  | some shape =>
      rw [hs] at h
      dsimp only at h
      cases hf : f shape with
      | error e =>
          rw [hf] at h
          cases h
      | ok shape' =>
          rw [hf] at h
          cases h
          exact ⟨shape, shape', rfl, hf, rfl⟩

/-- What a statement asks of the rows it finds. -/
def Statement.Fit (rows : Rows τ) : Statement τ → Prop
  | .createTable .. | .dropTable _ | .dropKey .. => True
  | .addColumn _ column value => column.name ≠ "id" ∧ Fits (fun _ => []) column value
  | .dropColumn _ name => name ≠ "id"
  | .setNullable t name nullable => nullable = true ∨ ∀ row ∈ rows t, row name ≠ .null
  | .createKey t key => key.unique = true → (rows t).Pairwise fun a b => ¬ Clash key.columns a b
  | .rewrite .. => False

variable [Fintype τ] {schema schema' : Schema τ} {db db' : Database τ} {s : Statement τ} {ss : List (Statement τ)}

theorem onSchema_createTable {t : τ} (h : (Statement.createTable t shape).onSchema schema = .ok schema') :
    schema t = none ∧ shape.Keyed ∧ schema' = Function.update schema t (some shape) := by
  simp only [Statement.onSchema] at h
  split at h
  · cases h
  · rename_i habsent
    split at h
    · cases h
    · rename_i hkeyed
      split at h
      · cases h
        exact ⟨by simpa using habsent, not_not.mp hkeyed, rfl⟩
      · cases h

theorem onSchema_dropTable {t : τ} (h : (Statement.dropTable t).onSchema schema = .ok schema') :
    (¬ ∃ r, r ≠ t ∧ ∃ shape ∈ schema r, shape.References t) ∧ schema' = Function.update schema t none := by
  simp only [Statement.onSchema] at h
  split at h
  · cases h
  · split at h
    · cases h
    · rename_i hfree
      cases h
      exact ⟨hfree, rfl⟩

theorem onSchema_addColumn {t : τ} {column : Column τ} {value : Cell}
    (h : (Statement.addColumn t column value).onSchema schema = .ok schema') :
    onShape schema t (fun shape => shape.addColumn column) = .ok schema' := by
  simp only [Statement.onSchema] at h
  split at h
  · exact h
  · cases h

theorem Statement.Fit.consistent (hfit : s.Fit rows) (hs : s.onSchema schema = .ok schema')
    (h : Consistent schema rows) : Consistent schema' (s.onRows rows) := by
  cases s with
  | createTable t shape =>
      obtain ⟨habsent, hkeyed, rfl⟩ := onSchema_createTable hs
      apply h.reshape
      rw [(h t).of_none habsent]
      exact ⟨hkeyed, fun row hrow => absurd hrow List.not_mem_nil, fun _ _ _ => List.Pairwise.nil⟩
  | dropTable t =>
      obtain ⟨hfree, rfl⟩ := onSchema_dropTable hs
      exact h.drop hfree
  | addColumn t column value =>
      obtain ⟨shape, shape', ht, hnew, rfl⟩ := onShape_eq_ok (onSchema_addColumn hs)
      have hids : ∀ row ∈ rows t,
          ∃ row' ∈ (rows t).map fun row => Function.update row column.name value, row' "id" = row "id" := by
        intro row hrow
        exact ⟨_, List.mem_map_of_mem hrow, Function.update_of_ne (Ne.symm hfit.1) _ _⟩
      apply h.update hids
      apply (((h t).of_some ht).mono (keepsIds_update hids)).addColumn hnew
      exact hfit.2.mono fun t row hrow => absurd hrow List.not_mem_nil
  | dropColumn t name =>
      obtain ⟨shape, shape', ht, hless, rfl⟩ := onShape_eq_ok hs
      have hids : ∀ row ∈ rows t,
          ∃ row' ∈ (rows t).map fun row => Function.update row name .null, row' "id" = row "id" := by
        intro row hrow
        exact ⟨_, List.mem_map_of_mem hrow, Function.update_of_ne (Ne.symm hfit) _ _⟩
      exact h.update hids ((((h t).of_some ht).mono (keepsIds_update hids)).dropColumn hless)
  | setNullable t name nullable =>
      obtain ⟨shape, shape', ht, hset, rfl⟩ := onShape_eq_ok hs
      exact h.reshape (((h t).of_some ht).setNullable hset hfit)
  | createKey t key =>
      obtain ⟨shape, shape', ht, hnew, rfl⟩ := onShape_eq_ok hs
      exact h.reshape (((h t).of_some ht).createKey hnew hfit)
  | dropKey t name =>
      obtain ⟨shape, shape', ht, hless, rfl⟩ := onShape_eq_ok hs
      exact h.reshape (((h t).of_some ht).dropKey hless)
  | rewrite t f => exact hfit.elim

theorem exec_eq_ok (h : exec db s = .ok db') :
    s.onSchema db.schema = .ok db'.schema ∧ db'.rows = s.onRows db.rows := by
  unfold exec at h
  cases hs : s.onSchema db.schema with
  | error e =>
      rw [hs] at h
      cases h
  | ok schema =>
      rw [hs] at h
      dsimp only at h
      split at h
      · cases h
        exact ⟨rfl, rfl⟩
      · cases h

theorem exec_ok (hs : s.onSchema db.schema = .ok schema') (hc : Consistent schema' (s.onRows db.rows)) :
    ∃ db', exec db s = .ok db' ∧ db'.schema = schema' ∧ db'.rows = s.onRows db.rows := by
  refine ⟨⟨schema', s.onRows db.rows, hc⟩, ?_, rfl, rfl⟩
  unfold exec
  rw [hs]
  exact dif_pos hc

/-- Statements in a row do what they do to the schema and to the rows. -/
theorem foldlM_exec_eq_ok (h : ss.foldlM exec db = .ok db') :
    ss.foldlM Statement.onSchema db.schema = .ok db'.schema ∧ db'.rows = ss.foldl Statement.onRows db.rows := by
  induction ss generalizing db with
  | nil =>
      cases h
      exact ⟨rfl, rfl⟩
  | cons s ss ih =>
      obtain ⟨db₁, hs, hss⟩ := Fallible.foldlM_cons_eq_ok.mp h
      obtain ⟨hschema, hrows⟩ := exec_eq_ok hs
      obtain ⟨ih₁, ih₂⟩ := ih hss
      rw [List.foldl_cons, ← hrows]
      exact ⟨Fallible.foldlM_cons_eq_ok.mpr ⟨_, hschema, ih₁⟩, ih₂⟩

/-- Fit statements in a row succeed when the schema allows them. -/
theorem foldlM_exec_ok (db : Database τ) (ss : List (Statement τ))
    (hfit : Each Statement.onRows (fun rows s => s.Fit rows) db.rows ss)
    (hs : ss.foldlM Statement.onSchema db.schema = .ok schema') :
    ∃ db', ss.foldlM exec db = .ok db' ∧ db'.schema = schema' ∧ db'.rows = ss.foldl Statement.onRows db.rows := by
  induction ss generalizing db with
  | nil =>
      cases hs
      exact ⟨db, rfl, rfl, rfl⟩
  | cons s ss ih =>
      obtain ⟨schema₁, hs₁, hss⟩ := Fallible.foldlM_cons_eq_ok.mp hs
      obtain ⟨db₁, hexec, hschema, hrows⟩ := exec_ok hs₁ (hfit.1.consistent hs₁ db.consistent)
      rw [← hschema] at hss
      obtain ⟨db', hrun, hschema', hrows'⟩ := ih db₁ (hrows ▸ hfit.2) hss
      refine ⟨db', Fallible.foldlM_cons_eq_ok.mpr ⟨db₁, hexec, hrun⟩, hschema', ?_⟩
      rw [hrows', hrows, List.foldl_cons]

theorem onSchema_rewrite {t : τ} (ht : schema t = some shape) (f : List Row → List Row) :
    (Statement.rewrite t f).onSchema schema = .ok schema := by
  simp only [Statement.onSchema, onShape, ht]
  change Except.ok (Function.update schema t (some shape)) = _
  rw [← ht, Function.update_eq_self]

theorem exec_rewrite {t : τ} {f : List Row → List Row} (ht : db.schema t = some shape)
    (hids : ∀ row ∈ db.rows t, ∃ row' ∈ f (db.rows t), row' "id" = row "id")
    (hok : TableOk (Function.update db.rows t (f (db.rows t))) shape (f (db.rows t))) :
    ∃ db', exec db (.rewrite t f) = .ok db' ∧ db'.schema = db.schema ∧
      db'.rows = Function.update db.rows t (f (db.rows t)) := by
  apply exec_ok (onSchema_rewrite ht f)
  have h := db.consistent.update hids hok
  rwa [← ht, Function.update_eq_self] at h

/-- INSERT, UPDATE and DELETE leave the schema as it is. -/
theorem exec_rewrite_schema {t : τ} {f : List Row → List Row} (h : exec db (.rewrite t f) = .ok db') :
    db'.schema = db.schema := by
  obtain ⟨shape, shape', ht, hsame, hschema⟩ := onShape_eq_ok (exec_eq_ok h).1
  cases hsame
  rw [hschema, ← ht, Function.update_eq_self]

/-- Only its own DROP TABLE takes a table away. -/
theorem onSchema_keeps {t : τ} (hs : s.onSchema schema = .ok schema') (hdrop : s ≠ .dropTable t)
    (ht : (schema t).isSome) : (schema' t).isSome := by
  have hupdate : ∀ u shape, (Function.update schema u (some shape) t).isSome = true := by
    intro u shape
    by_cases hu : t = u
    · rw [hu, Function.update_self]
      rfl
    · rwa [Function.update_of_ne hu]
  cases s with
  | createTable u shape =>
      obtain ⟨-, -, rfl⟩ := onSchema_createTable hs
      exact hupdate u shape
  | dropTable u =>
      obtain ⟨-, rfl⟩ := onSchema_dropTable hs
      rw [Function.update_of_ne]
      · exact ht
      · rintro rfl
        exact hdrop rfl
  | addColumn u column value =>
      obtain ⟨_, shape', -, -, rfl⟩ := onShape_eq_ok (onSchema_addColumn hs)
      exact hupdate u shape'
  | dropColumn u name | setNullable u name nullable | createKey u key | dropKey u name | rewrite u f =>
      obtain ⟨_, shape', -, -, rfl⟩ := onShape_eq_ok hs
      exact hupdate u shape'

theorem exec_keeps {t : τ} (hdrop : s ≠ .dropTable t) (h : exec db s = .ok db') (ht : (db.schema t).isSome) :
    (db'.schema t).isSome := onSchema_keeps (exec_eq_ok h).1 hdrop ht

theorem foldlM_exec_keeps {t : τ} (hdrop : ∀ s ∈ ss, s ≠ .dropTable t) (h : ss.foldlM exec db = .ok db')
    (ht : (db.schema t).isSome) : (db'.schema t).isSome := by
  induction ss generalizing db with
  | nil =>
      cases h
      exact ht
  | cons s ss ih =>
      obtain ⟨db₁, hs, hss⟩ := Fallible.foldlM_cons_eq_ok.mp h
      apply ih (fun s hs => hdrop s (List.mem_cons_of_mem _ hs)) hss
      exact exec_keeps (hdrop s List.mem_cons_self) hs ht

end NeuralSoc.Relational
