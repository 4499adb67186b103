import NeuralSoc.Delivery.Pipeline
import NeuralSoc.Sink.Lemmas.Batch
import NeuralSoc.Tenants.Lemmas.Ingest

/-!
# What a request writes

On either path the endpoint writes the rows the database can take, in order, and names the others. What the
sink sends has one alert for each id, so the row of an id is the one of its alert.
-/

namespace NeuralSoc.Delivery

open Sink

variable {db : Tenants.Database} {site : Site}

/-! ## The endpoint -/

/-- The row of an alert, if the driver can encode it and the database takes it. -/
def stored (db : Tenants.Database) (site : Site) (p : AlertPayload) : Option Tenants.Alert :=
  ((received p).filter fun d => Tenants.accepts db site.tenantId d).map (Tenants.AlertPayload.row site.tenantId)

theorem stored_of_received {p : AlertPayload} {d : Tenants.AlertPayload} (h : received p = some d) :
    stored db site p = if Tenants.accepts db site.tenantId d then some (d.row site.tenantId) else none := by
  rw [stored, h, Option.filter_some]
  split <;> rfl

theorem stored_of_not_received {p : AlertPayload} (h : received p = none) : stored db site p = none := by
  rw [stored, h]
  rfl

theorem plainText_eq_some {t : Text} {s : String} (h : plainText t = some s) : t.1 = .str s := by
  unfold plainText at h
  split at h
  · rename_i heq
    cases h
    exact heq
  · cases h

theorem received_alertId {p : AlertPayload} {d : Tenants.AlertPayload} (h : received p = some d) :
    p.alertId.1 = .str d.alertId := by
  obtain ⟨alertId, hid, h⟩ := Option.bind_eq_some_iff.mp h
  -- the fifteen texts after the first one
  iterate 15 obtain ⟨_, -, h⟩ := Option.bind_eq_some_iff.mp h
  cases h
  exact plainText_eq_some hid

theorem stored_eq_some {p : AlertPayload} {a : Tenants.Alert} (h : stored db site p = some a) :
    a.tenantId = site.tenantId ∧ p.alertId.1 = .str a.alertId := by
  obtain ⟨d, hd, rfl⟩ := Option.map_eq_some_iff.mp h
  have hreceived := (Option.filter_eq_some_iff.mp hd).1
  exact ⟨rfl, received_alertId hreceived⟩

theorem filterMap_stored (batch : List Tenants.AlertPayload) {body : List AlertPayload}
    (h : body.mapM received = some batch) :
    body.filterMap (stored db site) =
      (batch.filter (Tenants.accepts db site.tenantId)).map (Tenants.AlertPayload.row site.tenantId) := by
  induction body generalizing batch with
  | nil =>
      cases h
      rfl
  | cons p body ih =>
      rw [List.mapM_cons] at h
      obtain ⟨d, hd, h⟩ := Option.bind_eq_some_iff.mp h
      obtain ⟨ds, hds, h⟩ := Option.bind_eq_some_iff.mp h
      cases h
      rw [List.filterMap_cons, stored_of_received hd, ih ds hds, List.filter_cons]
      cases Tenants.accepts db site.tenantId d <;> rfl

theorem mem_batch_of_mapM {body : List AlertPayload} {batch : List Tenants.AlertPayload}
    (h : body.mapM received = some batch) {p : AlertPayload} (hp : p ∈ body) : ∃ d ∈ batch, received p = some d := by
  induction body generalizing batch with
  | nil => cases hp
  | cons q body ih =>
      rw [List.mapM_cons] at h
      obtain ⟨d, hd, h⟩ := Option.bind_eq_some_iff.mp h
      obtain ⟨ds, hds, h⟩ := Option.bind_eq_some_iff.mp h
      cases h
      cases hp with
      | head => exact ⟨d, List.mem_cons_self, hd⟩
      | tail _ hp =>
          obtain ⟨d', hd', hreceived⟩ := ih hds hp
          exact ⟨d', List.mem_cons_of_mem _ hd', hreceived⟩

theorem ingestOne_view (state : Failed × Tenants.AlertTable db) (p : AlertPayload) :
    (ingestOne site state p).2.view site.tenantId =
      upserts Tenants.Alert.alertId (state.2.view site.tenantId) (stored db site p).toList := by
  unfold ingestOne
  cases hd : received p with
  | none =>
      rw [stored_of_not_received hd]
      rfl
  | some d =>
      rw [stored_of_received hd]
      cases hreject : db.reject (d.row site.tenantId) with
      | none =>
          obtain ⟨table, hrun, hstep⟩ := Tenants.upsertItem_accepted hreject state.2
          simp only [hrun, hstep.view, Tenants.accepts, hreject]
          rfl
      | some e =>
          simp only [Tenants.upsertItem_rejected hreject, Tenants.accepts, hreject]
          rfl

theorem ingestOne_failed (site : Site) (state : Failed × Tenants.AlertTable db) (p : AlertPayload) :
    state.1 <+: (ingestOne site state p).1 ∧
      (stored db site p = none → p.alertId.1 ∈ (ingestOne site state p).1.map Prod.fst) := by
  unfold ingestOne
  cases hd : received p with
  | none => exact ⟨List.prefix_append _ _, fun _ => by simp⟩
  | some d =>
      rw [stored_of_received hd]
      cases hreject : db.reject (d.row site.tenantId) with
      | none =>
          obtain ⟨table, hrun, -⟩ := Tenants.upsertItem_accepted hreject state.2
          simp only [hrun, Tenants.accepts, hreject]
          refine ⟨List.prefix_refl _, fun hnone => ?_⟩
          cases hnone
      | some e =>
          simp only [Tenants.upsertItem_rejected hreject]
          exact ⟨List.prefix_append _ _, fun _ => by simp⟩

theorem foldl_ingestOne (body : List AlertPayload) (state : Failed × Tenants.AlertTable db) :
    (body.foldl (ingestOne site) state).2.view site.tenantId =
        upserts Tenants.Alert.alertId (state.2.view site.tenantId) (body.filterMap (stored db site)) ∧
      state.1 <+: (body.foldl (ingestOne site) state).1 ∧
      ∀ p ∈ body, stored db site p = none → p.alertId.1 ∈ (body.foldl (ingestOne site) state).1.map Prod.fst := by
  induction body generalizing state with
  | nil => exact ⟨rfl, List.prefix_refl _, fun p hp => absurd hp List.not_mem_nil⟩
  | cons q body ih =>
      obtain ⟨hview, hkeeps, hfailed⟩ := ih (ingestOne site state q)
      obtain ⟨hgrows, hq⟩ := ingestOne_failed site state q
      rw [List.foldl_cons]
      refine ⟨?_, hgrows.trans hkeeps, ?_⟩
      · rw [hview, ingestOne_view, ← upserts_append]
        cases hstored : stored db site q with
        | none => rw [List.filterMap_cons_none hstored]; rfl
        | some a => rw [List.filterMap_cons_some hstored]; rfl
      · intro p hp hnone
        cases hp with
        | head => exact (hkeeps.map Prod.fst).subset (hq hnone)
        | tail _ hp => exact hfailed p hp hnone

theorem ingestBody_view (site : Site) (body : List AlertPayload) (table : Tenants.AlertTable db) :
    (ingestBody site body table).2.view site.tenantId =
      upserts Tenants.Alert.alertId (table.view site.tenantId) (body.filterMap (stored db site)) := by
  unfold ingestBody
  cases hbatch : body.mapM received with
  | none => exact (foldl_ingestOne body ([], table)).1
  | some batch =>
      rw [filterMap_stored batch hbatch]
      exact (Tenants.ingestAlerts_chain site.tenantId batch table).2.1

/-- Every alert that is not stored is named in the response. -/
theorem ingestBody_failed (site : Site) {body : List AlertPayload} (table : Tenants.AlertTable db)
    {p : AlertPayload} (hp : p ∈ body) (h : stored db site p = none) :
    p.alertId.1 ∈ (ingestBody site body table).1.map Prod.fst := by
  unfold ingestBody
  cases hbatch : body.mapM received with
  | none => exact (foldl_ingestOne body ([], table)).2.2 p hp h
  | some batch =>
      obtain ⟨d, hd, hreceived⟩ := mem_batch_of_mapM hbatch hp
      have hresponse := (Tenants.ingestAlerts_chain site.tenantId batch table).2.2
      rw [stored_of_received hreceived] at h
      cases hreject : db.reject (d.row site.tenantId) with
      | none =>
          rw [if_pos (Tenants.accepts_eq_true.mpr hreject)] at h
          cases h
      | some e =>
          simp only [hresponse, List.map_map, List.mem_map, Tenants.rejections, List.mem_filterMap]
          exact ⟨(d.alertId, e), ⟨d, hd, by rw [hreject]; rfl⟩, (received_alertId hreceived).symm⟩

/-- The rows of a tenant do not change when the sensor of another tenant sends. -/
theorem ingestAlerts_view_of_ne {tenantId other : ℕ} (hne : other ≠ tenantId) (batch : List Tenants.AlertPayload)
    (table : Tenants.AlertTable db) :
    (Tenants.ingestAlerts other batch table).2.view tenantId = table.view tenantId := by
  obtain ⟨⟨ds, hchain, -⟩, -⟩ := Tenants.ingestAlerts_chain other batch table
  funext alertId
  apply Option.ext
  intro a
  rw [Tenants.AlertTable.view_eq_some, Tenants.AlertTable.view_eq_some]
  constructor
  · rintro ⟨id, hid, hkey⟩
    exact ⟨id, (hchain.others (fun h => hne (h.symm.trans (congrArg Prod.fst hkey))) id).mp hid, hkey⟩
  · rintro ⟨id, hid, hkey⟩
    exact ⟨id, (hchain.others (fun h => hne (h.symm.trans (congrArg Prod.fst hkey))) id).mpr hid, hkey⟩

end NeuralSoc.Delivery
