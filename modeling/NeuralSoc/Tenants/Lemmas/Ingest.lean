import NeuralSoc.Tenants.Ingest
import NeuralSoc.Api.Lemmas.Effects
import NeuralSoc.Base.Upserts

/-!
# What a batch writes

`Upserted` is one payload in place, `Chain` a list of them in order. The bulk path and the path item by item
are both chains, over the same payloads in a different order.
-/

namespace NeuralSoc.Tenants

open Api

variable {db : Database} {tenantId : ℕ}

/-! ## Writes -/

namespace AlertTable

theorem put_ok {table table' : AlertTable db} {id : ℕ} {a : Alert} (h : table.put id a = .ok table') :
    (∀ j b, j ≠ id → table.rows.get? j = some b → b.key ≠ a.key) ∧
      ∀ j, table'.rows.get? j = if j = id then some a else table.rows.get? j := by
  unfold put at h
  split at h
  · cases h
  · split at h
    · rename_i hfree
      cases h
      refine ⟨fun j b hj hb => hfree (j, b) (Dict.get?_eq_some.mp hb) hj, fun j => ?_⟩
      simp only [Dict.get?_set]
    · cases h

theorem put_rejected (table : AlertTable db) (id : ℕ) {a : Alert} {e : String} (h : db.reject a = some e) :
    table.put id a = .error e := by
  unfold put
  split
  · rename_i e' he
    cases h.symm.trans he
    rfl
  · rename_i he
    cases h.symm.trans he

theorem put_accepted {a : Alert} (h : db.reject a = none) (table : AlertTable db) (id : ℕ)
    (hfree : ∀ j b, j ≠ id → table.rows.get? j = some b → b.key ≠ a.key) :
    ∃ table', table.put id a = .ok table' := by
  unfold put
  split
  · rename_i e he
    cases h.symm.trans he
  · split
    · exact ⟨_, rfl⟩
    · rename_i hno
      refine absurd (fun e he hne => ?_) hno
      exact hfree e.1 e.2 hne (Dict.get?_eq_some.mpr he)

/-! ## Lookups -/

theorem find?_eq_some {table : AlertTable db} {alertId : String} {id : ℕ} {a : Alert} :
    table.find? tenantId alertId = some (id, a) ↔
      table.rows.get? id = some a ∧ a.key = (tenantId, alertId) := by
  constructor
  · intro h
    have hkey := List.find?_some h
    simp only [Bool.and_eq_true, decide_eq_true_eq] at hkey
    refine ⟨Dict.get?_eq_some.mpr (List.mem_of_find?_eq_some h), ?_⟩
    rw [Alert.key, hkey.1, hkey.2]
  · rintro ⟨ha, hkey⟩
    cases hfound : table.find? tenantId alertId with
    | none =>
        have hno := List.find?_eq_none.mp hfound (id, a) (Dict.get?_eq_some.mp ha)
        simp only [Alert.key, Prod.mk.injEq] at hkey
        simp [hkey.1, hkey.2] at hno
    | some e =>
        obtain ⟨j, b⟩ := e
        have hb := List.find?_some hfound
        simp only [Bool.and_eq_true, decide_eq_true_eq] at hb
        have hrow := Dict.get?_eq_some.mpr (List.mem_of_find?_eq_some hfound)
        have hsame : b.key = a.key := by rw [hkey, Alert.key, hb.1, hb.2]
        cases table.unique j id b a hrow ha hsame
        cases hrow.symm.trans ha
        rfl

theorem find?_eq_none {table : AlertTable db} {alertId : String} :
    table.find? tenantId alertId = none ↔
      ∀ id a, table.rows.get? id = some a → a.key ≠ (tenantId, alertId) := by
  constructor
  · intro h id a ha hkey
    rw [find?_eq_some.mpr ⟨ha, hkey⟩] at h
    cases h
  · intro h
    cases hfound : table.find? tenantId alertId with
    | none => rfl
    | some e =>
        obtain ⟨ha, hkey⟩ := find?_eq_some.mp hfound
        exact absurd hkey (h e.1 e.2 ha)

theorem view_eq_some {table : AlertTable db} {alertId : String} {a : Alert} :
    table.view tenantId alertId = some a ↔
      ∃ id, table.rows.get? id = some a ∧ a.key = (tenantId, alertId) := by
  rw [view, Option.map_eq_some_iff]
  constructor
  · rintro ⟨e, he, rfl⟩
    exact ⟨e.1, find?_eq_some.mp he⟩
  · rintro ⟨id, h⟩
    exact ⟨(id, a), find?_eq_some.mpr h, rfl⟩

end AlertTable

/-! ## One payload -/

/-- The payload stands in a new row or in the one the tenant had under its id, and all else is as before. -/
def Upserted (tenantId : ℕ) (d : AlertPayload) (table table' : AlertTable db) : Prop :=
  ∃ id, (∀ a, table.rows.get? id = some a → a.key = (tenantId, d.alertId)) ∧
    ∀ j, table'.rows.get? j = if j = id then some (d.row tenantId) else table.rows.get? j

theorem Upserted.storable {d : AlertPayload} {table table' : AlertTable db}
    (h : Upserted tenantId d table table') : db.reject (d.row tenantId) = none := by
  obtain ⟨id, -, hrows⟩ := h
  exact table'.storable id _ (by rw [hrows, if_pos rfl])

theorem Upserted.view {d : AlertPayload} {table table' : AlertTable db}
    (h : Upserted tenantId d table table') :
    table'.view tenantId = Function.update (table.view tenantId) d.alertId (some (d.row tenantId)) := by
  obtain ⟨id, hold, hrows⟩ := h
  have hnew : table'.rows.get? id = some (d.row tenantId) := by rw [hrows, if_pos rfl]
  funext alertId
  by_cases hid : alertId = d.alertId
  · subst hid
    rw [Function.update_self]
    exact AlertTable.view_eq_some.mpr ⟨id, hnew, rfl⟩
  · rw [Function.update_of_ne hid]
    apply Option.ext
    intro a
    rw [AlertTable.view_eq_some, AlertTable.view_eq_some]
    constructor
    · rintro ⟨j, hj, hkey⟩
      rw [hrows] at hj
      by_cases hji : j = id
      · rw [if_pos hji] at hj
        cases hj
        simp only [AlertPayload.row_key, Prod.mk.injEq] at hkey
        exact absurd hkey.2.symm hid
      · rw [if_neg hji] at hj
        exact ⟨j, hj, hkey⟩
    · rintro ⟨j, hj, hkey⟩
      have hji : j ≠ id := by
        rintro rfl
        have := (hold a hj).symm.trans hkey
        simp only [Prod.mk.injEq] at this
        exact hid this.2.symm
      exact ⟨j, by rw [hrows, if_neg hji, hj], hkey⟩

theorem Upserted.keys {d : AlertPayload} {table table' : AlertTable db}
    (h : Upserted tenantId d table table') (hknown : (table.view tenantId d.alertId).isSome) (j : ℕ) :
    (table'.rows.get? j).map Alert.key = (table.rows.get? j).map Alert.key := by
  obtain ⟨id, hold, hrows⟩ := h
  rw [hrows]
  by_cases hj : j = id
  · subst hj
    rw [if_pos rfl]
    obtain ⟨a, ha⟩ := Option.isSome_iff_exists.mp hknown
    obtain ⟨i, hi, hkey⟩ := AlertTable.view_eq_some.mp ha
    -- otherwise the new row would repeat the key of the old one
    have hij : i = j := by
      by_contra hne
      refine hne (table'.unique i j a (d.row tenantId) ?_ ?_ hkey)
      · rw [hrows, if_neg hne, hi]
      · rw [hrows, if_pos rfl]
    subst hij
    rw [hi]
    simp only [Option.map_some, AlertPayload.row_key, hkey]
  · rw [if_neg hj]

/-- The rows of the other tenants stay, and no row comes to them. -/
theorem Upserted.others {d : AlertPayload} {table table' : AlertTable db}
    (h : Upserted tenantId d table table') {a : Alert} (ha : a.tenantId ≠ tenantId) (j : ℕ) :
    table'.rows.get? j = some a ↔ table.rows.get? j = some a := by
  obtain ⟨id, hold, hrows⟩ := h
  rw [hrows]
  by_cases hj : j = id
  · subst hj
    rw [if_pos rfl]
    refine iff_of_false ?_ fun hrow => ?_
    · intro heq
      cases heq
      exact ha rfl
    · exact ha (congrArg Prod.fst (hold a hrow))
  · rw [if_neg hj]

theorem insert_upserted {d : AlertPayload} {table table' : AlertTable db}
    (h : table.insert (d.row tenantId) = .ok table') : Upserted tenantId d table table' := by
  obtain ⟨-, hrows⟩ := AlertTable.put_ok h
  refine ⟨freshId table.rows, fun a ha => ?_, hrows⟩
  rw [get?_freshId] at ha
  cases ha

/-- Over a table with the row of the tenant, the bulk UPDATE writes that row or is rejected. -/
theorem foldlM_put_ok {d : AlertPayload} {id : ℕ} (entries : List (ℕ × Alert)) (hne : entries ≠ [])
    {table table' : AlertTable db} {a : Alert} (ha : table.rows.get? id = some a)
    (hkey : a.key = (tenantId, d.alertId))
    (h : entries.foldlM (fun (table : AlertTable db) e => table.put e.1 (d.row tenantId)) table = .ok table') :
    ∀ j, table'.rows.get? j = if j = id then some (d.row tenantId) else table.rows.get? j := by
  induction entries generalizing table a with
  | nil => exact absurd rfl hne
  | cons e entries ih =>
      rw [List.foldlM_cons] at h
      cases hput : table.put e.1 (d.row tenantId) with
      | error err =>
          rw [hput] at h
          cases h
      | ok table₁ =>
          rw [hput] at h
          obtain ⟨hfree, hrows⟩ := AlertTable.put_ok hput
          have hid : e.1 = id := by
            by_contra hne'
            exact hfree id a (Ne.symm hne') ha hkey
          rw [hid] at hrows
          cases entries with
          | nil =>
              cases h
              exact hrows
          | cons e' rest =>
              intro j
              rw [ih (List.cons_ne_nil _ _) (by rw [hrows, if_pos rfl]) rfl h j, hrows]
              by_cases hj : j = id <;> simp [hj]

theorem updateWhere_upserted {d : AlertPayload} {table table' : AlertTable db}
    (hknown : (table.view tenantId d.alertId).isSome) (h : updateWhere tenantId table d = .ok table') :
    Upserted tenantId d table table' := by
  obtain ⟨a, ha⟩ := Option.isSome_iff_exists.mp hknown
  obtain ⟨id, hid, hkey⟩ := AlertTable.view_eq_some.mp ha
  have hmem : (id, a) ∈ table.rows.entries.filter fun e => e.2.alertId = d.alertId := by
    simp only [List.mem_filter, decide_eq_true_eq]
    exact ⟨Dict.get?_eq_some.mp hid, congrArg Prod.snd hkey⟩
  refine ⟨id, fun b hb => ?_, foldlM_put_ok _ (List.ne_nil_of_mem hmem) hid hkey h⟩
  cases hid.symm.trans hb
  exact hkey

theorem upsertItem_accepted {d : AlertPayload} (h : db.reject (d.row tenantId) = none) (table : AlertTable db) :
    ∃ table', upsertItem tenantId d table = .ok table' ∧ Upserted tenantId d table table' := by
  unfold upsertItem
  cases hfound : table.find? tenantId d.alertId with
  | some existing =>
      obtain ⟨id, a⟩ := existing
      obtain ⟨ha, hkey⟩ := AlertTable.find?_eq_some.mp hfound
      have hfree : ∀ j b, j ≠ id → table.rows.get? j = some b → b.key ≠ (d.row tenantId).key := by
        intro j b hj hb hsame
        exact hj (table.unique j id b a hb ha (hsame.trans hkey.symm))
      obtain ⟨table', hput⟩ := AlertTable.put_accepted h table id hfree
      refine ⟨table', hput, id, fun b hb => ?_, (AlertTable.put_ok hput).2⟩
      cases ha.symm.trans hb
      exact hkey
  | none =>
      obtain ⟨table', hput⟩ := AlertTable.put_accepted h table (freshId table.rows)
        fun j b _ hb => AlertTable.find?_eq_none.mp hfound j b hb
      exact ⟨table', hput, insert_upserted hput⟩

theorem upsertItem_rejected {d : AlertPayload} {e : String} (h : db.reject (d.row tenantId) = some e)
    (table : AlertTable db) : upsertItem tenantId d table = .error e := by
  unfold upsertItem
  split
  · exact AlertTable.put_rejected _ _ h
  · exact AlertTable.put_rejected _ _ h

/-! ## Several payloads -/

/-- The payloads have been written in this order. -/
inductive Chain (tenantId : ℕ) : List AlertPayload → AlertTable db → AlertTable db → Prop
  | nil {table} : Chain tenantId [] table table
  | cons {d ds table table₁ table₂} : Upserted tenantId d table table₁ → Chain tenantId ds table₁ table₂ →
      Chain tenantId (d :: ds) table table₂

theorem Chain.append {ds es : List AlertPayload} {table table₁ table₂ : AlertTable db}
    (h : Chain tenantId ds table table₁) (h' : Chain tenantId es table₁ table₂) :
    Chain tenantId (ds ++ es) table table₂ := by
  induction h with
  | nil => exact h'
  | cons hstep _ ih => exact .cons hstep (ih h')

theorem Chain.storable {ds : List AlertPayload} {table table' : AlertTable db}
    (h : Chain tenantId ds table table') : ∀ d ∈ ds, db.reject (d.row tenantId) = none := by
  induction h with
  | nil => exact fun _ h => absurd h List.not_mem_nil
  | cons hstep _ ih => exact List.forall_mem_cons.mpr ⟨hstep.storable, ih⟩

theorem Chain.view {ds : List AlertPayload} {table table' : AlertTable db}
    (h : Chain tenantId ds table table') :
    table'.view tenantId = upserts Alert.alertId (table.view tenantId) (ds.map (AlertPayload.row tenantId)) := by
  induction h with
  | nil => rfl
  | cons hstep _ ih => rw [ih, hstep.view, List.map_cons, upserts_cons, AlertPayload.row_alertId]

theorem Chain.others {ds : List AlertPayload} {table table' : AlertTable db}
    (h : Chain tenantId ds table table') {a : Alert} (ha : a.tenantId ≠ tenantId) (j : ℕ) :
    table'.rows.get? j = some a ↔ table.rows.get? j = some a := by
  induction h with
  | nil => exact Iff.rfl
  | cons hstep _ ih => exact ih.trans (hstep.others ha j)

theorem Upserted.view_isSome {d : AlertPayload} {table table' : AlertTable db}
    (h : Upserted tenantId d table table') {alertId : String} (hknown : (table.view tenantId alertId).isSome) :
    (table'.view tenantId alertId).isSome := by
  rw [h.view]
  by_cases hid : alertId = d.alertId
  · rw [hid, Function.update_self]
    rfl
  · rwa [Function.update_of_ne hid]

theorem Chain.keys {ds : List AlertPayload} {table table' : AlertTable db}
    (h : Chain tenantId ds table table') (hknown : ∀ d ∈ ds, (table.view tenantId d.alertId).isSome) (j : ℕ) :
    (table'.rows.get? j).map Alert.key = (table.rows.get? j).map Alert.key := by
  induction h with
  | nil => rfl
  | cons hstep _ ih =>
      obtain ⟨hd, hds⟩ := List.forall_mem_cons.mp hknown
      exact (ih fun e he => hstep.view_isSome (hds e he)).trans (hstep.keys hd j)

/-- A chain over known ids that leaves the view of the tenant alone leaves every row alone. -/
theorem Chain.rows_eq {ds : List AlertPayload} {table table' : AlertTable db}
    (h : Chain tenantId ds table table') (hknown : ∀ d ∈ ds, (table.view tenantId d.alertId).isSome)
    (hview : table'.view tenantId = table.view tenantId) (j : ℕ) :
    table'.rows.get? j = table.rows.get? j := by
  have hkey := h.keys hknown j
  cases ha : table'.rows.get? j with
  | none =>
      rw [ha] at hkey
      exact (Option.map_eq_none_iff.mp hkey.symm).symm
  | some a =>
      rw [ha] at hkey
      obtain ⟨b, hb, hsame⟩ := Option.map_eq_some_iff.mp hkey.symm
      by_cases htenant : a.tenantId = tenantId
      · have hka : a.key = (tenantId, a.alertId) := by rw [Alert.key, htenant]
        have h₁ := AlertTable.view_eq_some.mpr ⟨j, ha, hka⟩
        have h₂ := AlertTable.view_eq_some.mpr ⟨j, hb, hsame.trans hka⟩
        rw [hview, h₂] at h₁
        rw [hb, h₁]
      · rw [← ha]
        exact ha.trans ((h.others htenant j).mp ha).symm

/-! ## The bulk path -/

theorem foldlM_insert_chain (ds : List AlertPayload) {table table' : AlertTable db}
    (h : ds.foldlM (fun (table : AlertTable db) d => table.insert (d.row tenantId)) table = .ok table') :
    Chain tenantId ds table table' := by
  induction ds generalizing table with
  | nil =>
      cases h
      exact .nil
  | cons d ds ih =>
      rw [List.foldlM_cons] at h
      cases hput : table.insert (d.row tenantId) with
      | error e =>
          rw [hput] at h
          cases h
      | ok table₁ =>
          rw [hput] at h
          exact .cons (insert_upserted hput) (ih h)

theorem foldlM_updateWhere_chain (ds : List AlertPayload) {table table' : AlertTable db}
    (hknown : ∀ d ∈ ds, (table.view tenantId d.alertId).isSome)
    (h : ds.foldlM (updateWhere tenantId) table = .ok table') : Chain tenantId ds table table' := by
  induction ds generalizing table with
  | nil =>
      cases h
      exact .nil
  | cons d ds ih =>
      rw [List.foldlM_cons] at h
      obtain ⟨hd, hds⟩ := List.forall_mem_cons.mp hknown
      cases hput : updateWhere tenantId table d with
      | error e =>
          rw [hput] at h
          cases h
      | ok table₁ =>
          rw [hput] at h
          have hstep := updateWhere_upserted hd hput
          exact .cons hstep (ih (fun e he => hstep.view_isSome (hds e he)) h)

theorem mem_existingAids {batch : List AlertPayload} {table : AlertTable db} {d : AlertPayload} (hd : d ∈ batch) :
    d.alertId ∈ existingAids tenantId batch table ↔ (table.view tenantId d.alertId).isSome := by
  have hin : d.alertId ∈ batch.map AlertPayload.alertId := List.mem_map_of_mem hd
  simp only [existingAids, List.mem_map, List.mem_filter, Bool.and_eq_true, decide_eq_true_eq,
    List.contains_iff_mem]
  constructor
  · rintro ⟨e, ⟨he, -, htenant⟩, hid⟩
    refine Option.isSome_iff_exists.mpr ⟨e.2, AlertTable.view_eq_some.mpr ⟨e.1, Dict.get?_eq_some.mpr he, ?_⟩⟩
    rw [Alert.key, htenant, hid]
  · intro h
    obtain ⟨a, ha⟩ := Option.isSome_iff_exists.mp h
    obtain ⟨id, hid, hkey⟩ := AlertTable.view_eq_some.mp ha
    simp only [Alert.key, Prod.mk.injEq] at hkey
    refine ⟨(id, a), ⟨Dict.get?_eq_some.mp hid, ?_, hkey.1⟩, hkey.2⟩
    rw [hkey.2]
    exact List.mem_map.mp hin

/-- The bulk path writes the whole batch, the new ids first. -/
theorem bulkUpsertAlerts_chain {batch : List AlertPayload} {table table' : AlertTable db}
    (h : bulkUpsertAlerts tenantId batch table = .ok table') :
    ∃ isNew : String → Bool, Chain tenantId ((batch.filter fun d => isNew d.alertId) ++
      batch.filter fun d => !isNew d.alertId) table table' := by
  refine ⟨fun alertId => !(existingAids tenantId batch table).contains alertId, ?_⟩
  simp only [Bool.not_not]
  unfold bulkUpsertAlerts at h
  dsimp only at h
  cases hinsert : (batch.filter fun d => !(existingAids tenantId batch table).contains d.alertId).foldlM
      (fun (table : AlertTable db) d => table.insert (d.row tenantId)) table with
  | error e =>
      rw [hinsert] at h
      cases h
  | ok table₁ =>
      rw [hinsert] at h
      have hchain := foldlM_insert_chain _ hinsert
      refine hchain.append ?_
      change (if _ then Except.ok table₁ else _) = Except.ok table' at h
      split at h
      · rename_i hempty
        cases h
        rw [List.isEmpty_iff.mp hempty]
        exact .nil
      · unfold bulkUpdate at h
        split at h
        · cases h
        · refine foldlM_updateWhere_chain _ (fun d hd => ?_) h
          obtain ⟨hmem, hexisting⟩ := List.mem_filter.mp hd
          have hknown := (mem_existingAids hmem).mp (List.contains_iff_mem.mp hexisting)
          rw [hchain.view]
          rw [upserts_apply]
          obtain ⟨a, ha⟩ := Option.isSome_iff_exists.mp hknown
          rw [ha]
          cases List.getLast? _ <;> rfl

/-! ## The path item by item -/

def accepts (db : Database) (tenantId : ℕ) (d : AlertPayload) : Bool := (db.reject (d.row tenantId)).isNone

/-- The entries of the response for the alerts whose rows the database rejects. -/
def rejections (db : Database) (tenantId : ℕ) (batch : List AlertPayload) : List (String × String) :=
  batch.filterMap fun d => (db.reject (d.row tenantId)).map fun e => (d.alertId, e)

theorem foldl_ingestItem (tenantId : ℕ) (batch : List AlertPayload) (response : IngestResponse) (table : AlertTable db) :
    Chain tenantId (batch.filter (accepts db tenantId)) table
        (batch.foldl (ingestItem tenantId) (response, table)).2 ∧
      (batch.foldl (ingestItem tenantId) (response, table)).1 =
        ⟨response.accepted + (batch.filter (accepts db tenantId)).length,
          response.failed ++ rejections db tenantId batch⟩ := by
  induction batch generalizing response table with
  | nil => exact ⟨.nil, by simp [rejections]⟩
  | cons d batch ih =>
      rw [List.foldl_cons]
      cases hreject : db.reject (d.row tenantId) with
      | none =>
          obtain ⟨table₁, hrun, hstep⟩ := upsertItem_accepted hreject table
          have hitem : ingestItem tenantId (response, table) d =
              (⟨response.accepted + 1, response.failed⟩, table₁) := by
            simp only [ingestItem, hrun]
          obtain ⟨hchain, hresponse⟩ := ih ⟨response.accepted + 1, response.failed⟩ table₁
          rw [hitem, List.filter_cons_of_pos (by simp [accepts, hreject])]
          refine ⟨.cons hstep hchain, hresponse.trans ?_⟩
          simp only [rejections, List.filterMap_cons, hreject, Option.map_none, List.length_cons,
            Nat.add_assoc, Nat.add_comm 1]
      | some e =>
          have hitem : ingestItem tenantId (response, table) d =
              (⟨response.accepted, response.failed ++ [(d.alertId, e)]⟩, table) := by
            simp only [ingestItem, upsertItem_rejected hreject]
          obtain ⟨hchain, hresponse⟩ := ih ⟨response.accepted, response.failed ++ [(d.alertId, e)]⟩ table
          rw [hitem, List.filter_cons_of_neg (by simp [accepts, hreject])]
          refine ⟨hchain, hresponse.trans ?_⟩
          simp only [rejections, List.filterMap_cons, hreject, Option.map_some, List.append_assoc,
            List.singleton_append]

/-! ## The request -/

theorem rejections_eq_nil {batch : List AlertPayload} (h : ∀ d ∈ batch, db.reject (d.row tenantId) = none) :
    rejections db tenantId batch = [] := by
  rw [rejections, List.filterMap_eq_nil_iff]
  intro d hd
  rw [h d hd, Option.map_none]

theorem accepts_eq_true {d : AlertPayload} : accepts db tenantId d = true ↔ db.reject (d.row tenantId) = none :=
  Option.isNone_iff_eq_none

theorem bulkUpsertAlerts_ok {batch : List AlertPayload} {table table' : AlertTable db}
    (h : bulkUpsertAlerts tenantId batch table = .ok table') :
    (∀ d ∈ batch, db.reject (d.row tenantId) = none) ∧
      table'.view tenantId =
        upserts Alert.alertId (table.view tenantId) (batch.map (AlertPayload.row tenantId)) := by
  obtain ⟨isNew, hchain⟩ := bulkUpsertAlerts_chain h
  constructor
  · intro d hd
    refine hchain.storable d (List.mem_append.mpr ?_)
    cases hnew : isNew d.alertId with
    | true => exact Or.inl (List.mem_filter.mpr ⟨hd, hnew⟩)
    | false => exact Or.inr (List.mem_filter.mpr ⟨hd, by rw [hnew]; rfl⟩)
  · rw [hchain.view, ← upserts_partition _ (batch.map (AlertPayload.row tenantId)) isNew, List.map_append,
      List.filter_map, List.filter_map]
    rfl

/-- What a request writes and answers, on whichever path. -/
theorem ingestAlerts_chain (tenantId : ℕ) (batch : List AlertPayload) (table : AlertTable db) :
    (∃ ds, Chain tenantId ds table (ingestAlerts tenantId batch table).2 ∧
        ∀ d ∈ ds, d ∈ batch.filter (accepts db tenantId)) ∧
      (ingestAlerts tenantId batch table).2.view tenantId =
        upserts Alert.alertId (table.view tenantId)
          ((batch.filter (accepts db tenantId)).map (AlertPayload.row tenantId)) ∧
      (ingestAlerts tenantId batch table).1 =
        ⟨(batch.filter (accepts db tenantId)).length, rejections db tenantId batch⟩ := by
  unfold ingestAlerts
  split
  · rename_i hempty
    cases List.isEmpty_iff.mp hempty
    exact ⟨⟨[], .nil, fun _ h => absurd h List.not_mem_nil⟩, rfl, rfl⟩
  · split
    · rename_i table' hbulk
      obtain ⟨hstorable, hview⟩ := bulkUpsertAlerts_ok hbulk
      obtain ⟨isNew, hchain⟩ := bulkUpsertAlerts_chain hbulk
      have hall : batch.filter (accepts db tenantId) = batch :=
        List.filter_eq_self.mpr fun d hd => accepts_eq_true.mpr (hstorable d hd)
      rw [hall, rejections_eq_nil hstorable]
      refine ⟨⟨_, hchain, fun d hd => ?_⟩, hview, rfl⟩
      rcases List.mem_append.mp hd with hd | hd
      · exact List.mem_of_mem_filter hd
      · exact List.mem_of_mem_filter hd
    · obtain ⟨hchain, hresponse⟩ := foldl_ingestItem tenantId batch ⟨0, []⟩ table
      refine ⟨⟨_, hchain, fun d hd => hd⟩, hchain.view, hresponse.trans ?_⟩
      simp only [Nat.zero_add, List.nil_append]

theorem length_accepted_rejected (batch : List AlertPayload) :
    (batch.filter (accepts db tenantId)).length + (rejections db tenantId batch).length = batch.length := by
  induction batch with
  | nil => rfl
  | cons d batch ih =>
      cases hreject : db.reject (d.row tenantId) with
      | none =>
          rw [List.filter_cons_of_pos (accepts_eq_true.mpr hreject)]
          simp only [rejections, List.filterMap_cons, hreject, Option.map_none, List.length_cons] at ih ⊢
          omega
      | some e =>
          rw [List.filter_cons_of_neg (by simp [accepts, hreject])]
          simp only [rejections, List.filterMap_cons, hreject, Option.map_some, List.length_cons] at ih ⊢
          omega

theorem ingestAlerts_again (batch : List AlertPayload) (table : AlertTable db) (id : ℕ) :
    (ingestAlerts tenantId batch (ingestAlerts tenantId batch table).2).2.rows.get? id =
      (ingestAlerts tenantId batch table).2.rows.get? id := by
  obtain ⟨-, hview, -⟩ := ingestAlerts_chain tenantId batch table
  obtain ⟨⟨ds, hchain, hds⟩, hview', -⟩ :=
    ingestAlerts_chain tenantId batch (ingestAlerts tenantId batch table).2
  refine hchain.rows_eq (fun d hd => ?_) ?_ id
  · rw [hview]
    exact upserts_isSome (List.mem_map_of_mem (hds d hd))
  · rw [hview', hview, upserts_upserts]

end NeuralSoc.Tenants
