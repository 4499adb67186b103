import NeuralSoc.Delivery.Lemmas.Endpoint
import NeuralSoc.Sink.Lemmas.Loop

/-!
# What a call of process_batch makes of an alert

The table shows what it showed before or the row of an item, and a call that is done has settled every item: it,
or a later one of its id, is in the dead-letter file or in the table.
-/

namespace NeuralSoc.Delivery

open Sink

variable {db : Tenants.Database} {site : Site} {rt : Runtime} {batch : List Item} {k : String}

/-! ## Requests -/

theorem requestBody_eq_some {body : List AlertPayload} (h : requestBody rt batch = some body) :
    body = (sent rt batch).map Entry.alert := by
  unfold requestBody at h
  split at h
  · cases h
  · simp only [checkItems_eq] at h
    split at h
    · cases h
      rfl
    · cases h

theorem requestBody_of_finite (htrace : batch.findSome? (linkFailure rt) = none)
    (hvalid : (batch.filterMap (entryOf rt)).isEmpty = false)
    (hfinite : ((sent rt batch).map Entry.alert).all (fun a => a.confidenceScore.isFinite) = true) :
    requestBody rt batch = some ((sent rt batch).map Entry.alert) := by
  unfold requestBody
  rw [htrace]
  simp only [checkItems_eq, hvalid]
  exact if_pos hfinite

/-- The sink sends one alert for each id. -/
theorem sent_unique {e e' : Entry} (he : e ∈ sent rt batch) (he' : e' ∈ sent rt batch)
    (hid : e.alert.alertId.1 = e'.alert.alertId.1) : e = e' := by
  have hlast : ∀ e ∈ sent rt batch,
      ((batch.filterMap (entryOf rt)).filter (sameAlert e.alert.alertId.1)).getLast? = some e := by
    intro e he
    obtain ⟨j, hj⟩ := mem_dedup.mp he
    have hjid := (List.mem_filter.mp (List.mem_of_getLast? hj)).2
    rwa [of_decide_eq_true hjid]
  exact Option.some.inj ((hlast e he).symm.trans (hid ▸ hlast e' he'))

/-! ## The table -/

/-- The row a message becomes. -/
def rowOf (db : Tenants.Database) (site : Site) (data : Object) : Option Tenants.Alert :=
  (validatePayload site.runtime (serializeEvidence site.runtime data)).bind (stored db site)

theorem rowOf_entry {it : Item} {e : Entry} (h : entryOf site.runtime it = some e) :
    rowOf db site it.data = stored db site e.alert := by
  obtain ⟨alert, halert, rfl⟩ := Option.map_eq_some_iff.mp h
  rw [rowOf, halert]
  rfl

theorem rowOf_sent {e : Entry} (he : e ∈ sent site.runtime batch) {a : Tenants.Alert}
    (ha : stored db site e.alert = some a) :
    ∃ it ∈ batch, it.data.get "alert_id" = .str a.alertId ∧ rowOf db site it.data = some a := by
  obtain ⟨it, hit, hent⟩ := mem_sent he
  refine ⟨it, hit, ?_, by rw [rowOf_entry hent, ha]⟩
  rw [← (entryOf_eq_some hent).2.2, (stored_eq_some ha).2]

theorem sentBody_view (table : Tenants.AlertTable db) (k : String) :
    (ingestBody site ((sent site.runtime batch).map Entry.alert) table).2.view site.tenantId k =
        table.view site.tenantId k ∨
      ∃ it ∈ batch, it.data.get "alert_id" = .str k ∧ ∃ a, rowOf db site it.data = some a ∧
        (ingestBody site ((sent site.runtime batch).map Entry.alert) table).2.view site.tenantId k = some a := by
  rw [ingestBody_view]
  cases upserts_cases Tenants.Alert.alertId (table.view site.tenantId)
      (((sent site.runtime batch).map Entry.alert).filterMap (stored db site)) k with
  | inl h => exact .inl h
  | inr h =>
      obtain ⟨a, ha, rfl, hview⟩ := h
      obtain ⟨p, hp, hstored⟩ := List.mem_filterMap.mp ha
      obtain ⟨e, he, rfl⟩ := List.mem_map.mp hp
      obtain ⟨it, hit, hid, hrow⟩ := rowOf_sent he hstored
      exact .inr ⟨it, hit, hid, a, hrow, hview⟩

theorem sentBody_stored {e : Entry} (he : e ∈ sent site.runtime batch) {a : Tenants.Alert}
    (ha : stored db site e.alert = some a) (table : Tenants.AlertTable db) :
    (ingestBody site ((sent site.runtime batch).map Entry.alert) table).2.view site.tenantId a.alertId =
      some a := by
  rw [ingestBody_view]
  apply upserts_of_unique
  · exact List.mem_filterMap.mpr ⟨e.alert, List.mem_map_of_mem he, ha⟩
  · intro b hb hid
    obtain ⟨p, hp, hstored⟩ := List.mem_filterMap.mp hb
    obtain ⟨e', he', rfl⟩ := List.mem_map.mp hp
    have hsame : e' = e := by
      apply sent_unique he' he
      rw [(stored_eq_some hstored).2, (stored_eq_some ha).2, hid]
    rw [hsame] at hstored
    exact Option.some.inj (hstored.symm.trans ha)

theorem get?_failedById_of_mem {failed : Failed} {id : Json} (h : id ∈ failed.map Prod.fst) :
    ((failedById failed).get? id).isSome := by
  have hsets : ∀ d : Dict Json String,
      (d.get? id).isSome ∨ id ∈ failed.map Prod.fst →
        ((failed.foldl (fun d f => d.set f.1 f.2) d).get? id).isSome := by
    clear h
    induction failed with
    | nil => exact fun d h => h.resolve_right List.not_mem_nil
    | cons f failed ih =>
        intro d h
        apply ih
        rw [Dict.get?_set]
        by_cases hf : id = f.1
        · rw [if_pos hf]
          exact .inl rfl
        · rw [if_neg hf]
          exact h.imp_right fun hm => (List.mem_cons.mp hm).resolve_left hf
  exact hsets .empty (.inr h)

theorem fate_cases (failed : Failed) (e : Entry) :
    (∃ alert error, fate failed e = .dlq e.tp e.offset alert error) ∨ fate failed e = .accepted e.tp e.offset := by
  unfold fate
  split
  · exact .inl ⟨_, _, rfl⟩
  · exact .inr rfl

/-- An entry the response does not name is in the table. -/
theorem accepted_stored {e : Entry} (he : e ∈ sent site.runtime batch) (hid : e.alert.alertId.1 = .str k)
    {table : Tenants.AlertTable db}
    (h : fate (ingestBody site ((sent site.runtime batch).map Entry.alert) table).1 e =
      .accepted e.tp e.offset) :
    ∃ a, stored db site e.alert = some a ∧
      (ingestBody site ((sent site.runtime batch).map Entry.alert) table).2.view site.tenantId k = some a := by
  cases ha : stored db site e.alert with
  | none =>
      have hfailed := get?_failedById_of_mem (ingestBody_failed site table (List.mem_map_of_mem he) ha)
      obtain ⟨error, herror⟩ := Option.isSome_iff_exists.mp hfailed
      rw [fate, herror] at h
      cases h
  | some a =>
      refine ⟨a, rfl, ?_⟩
      have hk : a.alertId = k := by
        rw [(stored_eq_some ha).2] at hid
        exact Json.str.inj hid
      rw [← hk]
      exact sentBody_stored he ha table

/-! ## Attempts -/

/-- An item is named by a dead letter, or its row is what the table shows. -/
def ItemSettled (db : Tenants.Database) (site : Site) (events : List Event) (shown : Option Tenants.Alert)
    (it : Item) : Prop :=
  (∃ alert error, .dlq it.tp it.offset alert error ∈ events) ∨ ∃ a, rowOf db site it.data = some a ∧ shown = some a

theorem mem_rejections {events : List Event} {it : Item} (hit : it ∈ batch) (hent : entryOf rt it = none)
    (hsub : rejections rt batch ⊆ events) : ∃ alert error, .dlq it.tp it.offset alert error ∈ events := by
  refine ⟨_, _, hsub (List.mem_map.mpr ⟨it, ?_, rfl⟩)⟩
  exact List.mem_filter.mpr ⟨hit, by rw [invalid, hent]; rfl⟩

/-- A request that was answered has been carried out. -/
theorem post_ok {outcome : Outcome} {body : List AlertPayload} {table : Tenants.AlertTable db} {failed : Failed}
    (h : ingestViaApi (fun body => (post site outcome body table).1) body = .ok failed) :
    body.all (fun a => a.confidenceScore.isFinite) = true ∧ (ingestBody site body table).1 = failed ∧
      (post site outcome body table).2 = (ingestBody site body table).2 := by
  unfold ingestViaApi at h
  split at h
  · rename_i hfinite
    cases outcome with
    | lost | unanswered | delayed => cases h
    | answered =>
        simp only [post, answer] at h
        split at h
        · cases h
          exact ⟨hfinite, rfl, rfl⟩
        · cases h
  · cases h

variable (p : Pipeline db) (outcome : Outcome)

theorem attempt_view (batch : List Item) (k : String) :
    (p.attempt site outcome batch).table.view site.tenantId k = p.table.view site.tenantId k ∨
      ∃ it ∈ batch, it.data.get "alert_id" = .str k ∧ ∃ a, rowOf db site it.data = some a ∧
        (p.attempt site outcome batch).table.view site.tenantId k = some a := by
  unfold Pipeline.attempt
  cases hbody : requestBody site.runtime batch with
  | none => exact .inl rfl
  | some body =>
      cases requestBody_eq_some hbody
      cases outcome with
      | lost | delayed => exact .inl rfl
      | unanswered | answered => exact sentBody_view p.table k

/-- Offsets come back when nothing was valid, or with the answer to the request. -/
theorem attempt_done {offsets : Offsets}
    (hr : (processBatch site.runtime (ingestViaApi fun body => (post site outcome body p.table).1) batch).1 =
      .ok offsets)
    (hne : offsets.entries ≠ []) :
    rejections site.runtime batch ⊆
        (processBatch site.runtime (ingestViaApi fun body => (post site outcome body p.table).1) batch).2 ∧
      (batch.filterMap (entryOf site.runtime) = [] ∨
        (p.attempt site outcome batch).table =
            (ingestBody site ((sent site.runtime batch).map Entry.alert) p.table).2 ∧
          ∀ e ∈ sent site.runtime batch,
            fate (ingestBody site ((sent site.runtime batch).map Entry.alert) p.table).1 e ∈
              (processBatch site.runtime (ingestViaApi fun body => (post site outcome body p.table).1) batch).2) := by
  cases htrace : batch.findSome? (linkFailure site.runtime) with
  | some e =>
      rw [processBatch_crash _ htrace] at hr
      cases hr
  | none =>
      rw [processBatch_linked _ htrace] at hr ⊢
      cases hvalid : (batch.filterMap (entryOf site.runtime)).isEmpty with
      | true =>
          rw [if_pos rfl]
          exact ⟨List.Subset.refl _, .inl (List.isEmpty_iff.mp hvalid)⟩
      | false =>
          rw [hvalid] at hr
          rw [if_neg Bool.false_ne_true] at hr ⊢
          cases hpost : ingestViaApi (fun body => (post site outcome body p.table).1)
              ((sent site.runtime batch).map Entry.alert) with
          | error e =>
              rw [hpost] at hr
              cases hr
              exact absurd rfl hne
          | ok failed =>
              obtain ⟨hfinite, hfailed, htable⟩ := post_ok hpost
              refine ⟨List.subset_append_left _ _, .inr ⟨?_, fun e he => ?_⟩⟩
              · rw [Pipeline.attempt, requestBody_of_finite htrace hvalid hfinite]
                exact htable
              · rw [← hfailed]
                exact List.mem_append_right _ (List.mem_map_of_mem he)

/-- With the offsets every item, or a later one of its id, is settled. -/
theorem attempt_settled {offsets : Offsets}
    (hr : (processBatch site.runtime (ingestViaApi fun body => (post site outcome body p.table).1) batch).1 =
      .ok offsets)
    (hne : offsets.entries ≠ []) {pre post' : List Item} {it : Item} (hb : batch = pre ++ it :: post')
    (hid : it.data.get "alert_id" = .str k) :
    ∃ it', (it' = it ∨ it' ∈ post') ∧ it'.data.get "alert_id" = .str k ∧
      ItemSettled db site
        (processBatch site.runtime (ingestViaApi fun body => (post site outcome body p.table).1) batch).2
        ((p.attempt site outcome batch).table.view site.tenantId k) it' := by
  obtain ⟨hrejected, hdone⟩ := attempt_done p outcome hr hne
  have hit : it ∈ batch := by simp [hb]
  cases hent : entryOf site.runtime it with
  | none => exact ⟨it, .inl rfl, hid, .inl (mem_rejections hit hent hrejected)⟩
  | some e =>
      obtain ⟨it', e', hit', hid', hent', hmem⟩ := exists_sent hb hent
      obtain ⟨htp, hoff, hek⟩ := entryOf_eq_some hent'
      rw [hid] at hid'
      refine ⟨it', hit', hid', ?_⟩
      cases hdone with
      | inl hnone =>
          have hvalid : e ∈ batch.filterMap (entryOf site.runtime) := List.mem_filterMap.mpr ⟨it, hit, hent⟩
          rw [hnone] at hvalid
          cases hvalid
      | inr hanswered =>
          obtain ⟨htable, hfates⟩ := hanswered
          have hfate := hfates e' hmem
          cases fate_cases (ingestBody site ((sent site.runtime batch).map Entry.alert) p.table).1 e' with
          | inl hdead =>
              obtain ⟨alert, error, hdead⟩ := hdead
              rw [hdead, htp, hoff] at hfate
              exact .inl ⟨alert, error, hfate⟩
          | inr haccepted =>
              obtain ⟨a, ha, hview⟩ := accepted_stored hmem (hek.trans hid') haccepted
              exact .inr ⟨a, by rw [rowOf_entry hent', ha], htable ▸ hview⟩

end NeuralSoc.Delivery
