import NeuralSoc.Base.Paging
import NeuralSoc.Tenants.Lemmas.Ingest
import NeuralSoc.Tenants.Lemmas.Isolation

/-! # Pages of a table that is written to between the requests. -/

namespace NeuralSoc.Tenants

open Api Handler

variable {db : Database}

/-- Every row stays, with its tenant and its alert id. -/
def Grows (table table' : AlertTable db) : Prop :=
  ∀ id a, table.rows.get? id = some a → ∃ a', table'.rows.get? id = some a' ∧ a'.key = a.key

/-- The first request has no cursor, each other one the id of the last row before it, and until a page is empty
the requests are answered. -/
structure FollowsCursor {ρ : Type} (idOf : ρ → ℕ) (toResponse : List ρ → BackendResponse)
    (request : ℕ → ℤ → Except HttpError BackendResponse) (cursors : ℕ → ℕ) (pages : ℕ → List ρ) : Prop where
  start : cursors 0 = 0
  next : ∀ k row, (pages k).getLast? = some row → cursors (k + 1) = idOf row
  answered : ∀ k, (∀ j < k, pages j ≠ []) → request k (cursors k) = .ok (toResponse (pages k))

/-- The pages up to the first empty one descend strictly and show each of the ids once. -/
def ReadsAll {ρ : Type} (idOf : ρ → ℕ) (pages : ℕ → List ρ) (ids : List ℕ) : Prop :=
  ∃ n, pages n = [] ∧ (∀ k < n, pages k ≠ []) ∧
    (((List.range n).flatMap pages).map idOf).Pairwise (· > ·) ∧
    ∀ i ∈ ids, (((List.range n).flatMap pages).map idOf).count i = 1

/-! ## One page -/

theorem page_isPage {α : Type} {rows : List (ℕ × α)} (hn : (rows.map Prod.fst).Nodup) {limit : ℤ}
    (hlimit : 1 ≤ limit) (cursor : ℕ) :
    IsPage {i | i ∈ rows.map Prod.fst} cursor ((page cursor limit rows).map Prod.fst) := by
  unfold page
  split
  · next hcursor =>
      refine isPage_take (fun i => ?_) (hn.sublist (List.filter_sublist.map _)) (by omega)
      have hbelow : Below cursor i ↔ i < cursor := or_iff_right (by omega)
      simp only [List.mem_map, List.mem_filter, decide_eq_true_eq, Nat.cast_lt, Set.mem_ofPred_eq, hbelow]
      constructor
      · rintro ⟨e, ⟨he, hlt⟩, rfl⟩
        exact ⟨⟨e, he, rfl⟩, hlt⟩
      · rintro ⟨⟨e, he, rfl⟩, hlt⟩
        exact ⟨e, ⟨he, hlt⟩, rfl⟩
  · next hcursor =>
      have hzero : cursor = 0 := by omega
      exact isPage_take (fun i => (and_iff_left (.inl hzero)).symm) hn (by omega)

theorem requireScope_tenant {env env' : Env} {scope scope' : String} {credentials : Option Token} {w w' : World}
    {principal principal' : Principal} (h : requireScope env scope credentials w = (.ok principal, w))
    (h' : requireScope env' scope' credentials w' = (.ok principal', w')) :
    principal.tenantId = principal'.tenantId := by
  rcases requireScope_ok h with ⟨hkey, -, hnone⟩ | ⟨claims, hclaims, -, rfl, -⟩
  · rcases requireScope_ok h' with ⟨-, -, hnone'⟩ | ⟨claims, hclaims, -⟩
    · rw [hnone, hnone']
    · cases hkey.symm.trans hclaims
  · rcases requireScope_ok h' with ⟨hkey, -⟩ | ⟨claims', hclaims', -, rfl, -⟩
    · cases hkey.symm.trans hclaims
    · cases hclaims.symm.trans hclaims'
      rfl

theorem scopeToTenant_congr {α : Type} {principal principal' : Principal}
    (h : principal.tenantId = principal'.tenantId) (tenantOf : α → Option ℕ) (rows : List (ℕ × α)) :
    scopeToTenant principal tenantOf rows = scopeToTenant principal' tenantOf rows := by
  rw [scopeToTenant, scopeToTenant, h]

theorem scopeToTenant_sublist {α : Type} (principal : Principal) (tenantOf : α → Option ℕ)
    (rows : List (ℕ × α)) : (scopeToTenant principal tenantOf rows).Sublist rows := by
  unfold scopeToTenant
  split
  · exact .refl _
  · exact List.filter_sublist

/-- A paged route that answers has passed the scope check, and its limit is positive. -/
theorem paged_ok {env : Env} {scope : String} {credentials : Option Token} {cursor limit : ℤ} {s : Backend db}
    {answer : Principal → Backend db → BackendResponse} {response : BackendResponse}
    (h : ((onWorld (requireScope env scope credentials) >>= fun principal =>
      ensure (validPage cursor limit) unprocessable >>= fun _ => ensure (!env.limited) rateLimited >>= fun _ =>
      Handler.get >>= fun s => pure (answer principal s) : BackendRoute db BackendResponse) s).1 = .ok response) :
    ∃ principal, requireScope env scope credentials s.world = (.ok principal, s.world) ∧ 1 ≤ limit ∧
      answer principal s = response := by
  obtain ⟨r, hr⟩ := requireScope_run env scope credentials s.world
  cases r with
  | error e =>
      rw [bind_run_error (onWorld_run hr)] at h
      cases h
  | ok principal =>
      rw [bind_run_ok (onWorld_run hr), ensure_bind_run] at h
      split at h
      · next hpage =>
          rw [ensure_bind_run] at h
          split at h
          · simp only [validPage, Bool.and_eq_true, decide_eq_true_eq] at hpage
            exact ⟨principal, hr, hpage.1.2, Except.ok.inj h⟩
          · cases h
      · cases h

theorem getAlerts_ok {env : Env} {credentials : Option Token} {cursor limit : ℤ} {s : Backend db}
    {rows : List AlertResponse} (h : (getAlerts env credentials cursor limit s).1 = .ok (.alerts rows)) :
    ∃ principal, requireScope env "alerts:read" credentials s.world = (.ok principal, s.world) ∧ 1 ≤ limit ∧
      (page cursor limit (scopeToTenant principal (fun a => some a.tenantId) s.alerts.rows.entries)).map
        (fun e => alertResponse e.1 e.2) = rows := by
  obtain ⟨principal, hscope, hlimit, hrows⟩ := paged_ok h
  exact ⟨principal, hscope, hlimit, BackendResponse.alerts.inj hrows⟩

theorem listAuditLog_ok {env : Env} {credentials : Option Token} {cursor limit : ℤ} {s : Backend db}
    {rows : List AuditLogEntry} (h : (listAuditLog env credentials cursor limit s).1 = .ok (.auditLog rows)) :
    ∃ principal, requireScope env "users:manage" credentials s.world = (.ok principal, s.world) ∧ 1 ≤ limit ∧
      (page cursor limit (scopeToTenant principal AuditEvent.tenantId (auditRows s.world))).map
        (fun e => ⟨e.1, e.2⟩) = rows := by
  obtain ⟨principal, hscope, hlimit, hrows⟩ := paged_ok h
  exact ⟨principal, hscope, hlimit, BackendResponse.auditLog.inj hrows⟩

/-! ## All pages -/

theorem FollowsCursor.readsAll {ρ : Type} {idOf : ρ → ℕ} {toResponse : List ρ → BackendResponse}
    {request : ℕ → ℤ → Except HttpError BackendResponse} {cursors : ℕ → ℕ} {pages : ℕ → List ρ}
    (h : FollowsCursor idOf toResponse request cursors pages) {ids : ℕ → Set ℕ}
    (hkept : ∀ k i, i ∈ ids k → i ∈ ids (k + 1)) (hpositive : ∀ k i, i ∈ ids k → 0 < i)
    (hpage : ∀ k, request k (cursors k) = .ok (toResponse (pages k)) →
      IsPage (ids k) (cursors k) ((pages k).map idOf))
    {start : List ℕ} (hstart : ∀ i ∈ start, i ∈ ids 0) : ReadsAll idOf pages start := by
  have hfollows : Follows ids cursors fun k => (pages k).map idOf :=
    { kept := hkept
      positive := hpositive
      start := h.start
      next := fun k i hi => by
        rw [List.getLast?_map, Option.map_eq_some_iff] at hi
        obtain ⟨row, hrow, rfl⟩ := hi
        exact h.next k row hrow
      isPage := fun k hne => hpage k (h.answered k fun j hj hnil => hne j hj (by rw [hnil, List.map_nil])) }
  obtain ⟨n, hempty, hne, hdesc, hall⟩ := hfollows.complete
  rw [← List.map_flatMap] at hdesc hall
  refine ⟨n, List.map_eq_nil_iff.mp hempty, fun k hk hnil => hne k hk (by rw [hnil, List.map_nil]), hdesc,
    fun i hi => ?_⟩
  exact List.count_eq_one_of_mem (hdesc.imp fun hlt => ne_of_gt hlt) (hall i (hstart i hi))

/-- The rows that a principal sees of a table, asked for page by page. -/
theorem FollowsCursor.readsScoped {ρ α : Type} {idOf : ρ → ℕ} {toResponse : List ρ → BackendResponse}
    {request : ℕ → ℤ → Except HttpError BackendResponse} {cursors : ℕ → ℕ} {pages : ℕ → List ρ}
    (h : FollowsCursor idOf toResponse request cursors pages) (principal : Principal) (tenantOf : α → Option ℕ)
    (rows : ℕ → List (ℕ × α)) (toRow : ℕ × α → ρ) (hid : ∀ e, idOf (toRow e) = e.1)
    (hn : ∀ k, ((rows k).map Prod.fst).Nodup) (hpositive : ∀ k, ∀ i ∈ (rows k).map Prod.fst, 0 < i)
    (hkept : ∀ k i, i ∈ (scopeToTenant principal tenantOf (rows k)).map Prod.fst →
      i ∈ (scopeToTenant principal tenantOf (rows (k + 1))).map Prod.fst)
    (hanswer : ∀ k, request k (cursors k) = .ok (toResponse (pages k)) →
      ∃ caller limit, caller.tenantId = principal.tenantId ∧ 1 ≤ limit ∧
        (page (cursors k) limit (scopeToTenant caller tenantOf (rows k))).map toRow = pages k) :
    ReadsAll idOf pages ((scopeToTenant principal tenantOf (rows 0)).map Prod.fst) := by
  have hsub : ∀ k, ((scopeToTenant principal tenantOf (rows k)).map Prod.fst).Sublist ((rows k).map Prod.fst) :=
    fun k => (scopeToTenant_sublist _ _ _).map _
  let ids k : Set ℕ := {i | i ∈ (scopeToTenant principal tenantOf (rows k)).map Prod.fst}
  have hpage : ∀ k, request k (cursors k) = .ok (toResponse (pages k)) →
      IsPage (ids k) (cursors k) ((pages k).map idOf) := by
    intro k hk
    obtain ⟨caller, limit, hcaller, hlimit, hrows⟩ := hanswer k hk
    have hids : idOf ∘ toRow = Prod.fst := funext hid
    rw [← hrows, List.map_map, hids, scopeToTenant_congr hcaller]
    exact page_isPage ((hn k).sublist (hsub k)) hlimit (cursors k)
  exact h.readsAll hkept (fun k i hi => hpositive k i ((hsub k).mem hi)) hpage fun i hi => hi

/-! ## What is written meanwhile -/

theorem Grows.refl (table : AlertTable db) : Grows table table := fun _ a ha => ⟨a, ha, rfl⟩

theorem Grows.trans {table table₁ table₂ : AlertTable db} (h : Grows table table₁) (h' : Grows table₁ table₂) :
    Grows table table₂ := by
  intro id a ha
  obtain ⟨a₁, ha₁, hkey₁⟩ := h id a ha
  obtain ⟨a₂, ha₂, hkey₂⟩ := h' id a₁ ha₁
  exact ⟨a₂, ha₂, hkey₂.trans hkey₁⟩

theorem Upserted.grows {tenantId : ℕ} {d : AlertPayload} {table table' : AlertTable db}
    (h : Upserted tenantId d table table') : Grows table table' := by
  obtain ⟨id, hold, hrows⟩ := h
  intro j a ha
  rw [hrows]
  by_cases hj : j = id
  · subst hj
    exact ⟨_, if_pos rfl, (hold a ha).symm⟩
  · exact ⟨a, by rw [if_neg hj, ha], rfl⟩

theorem Chain.grows {tenantId : ℕ} {ds : List AlertPayload} {table table' : AlertTable db}
    (h : Chain tenantId ds table table') : Grows table table' := by
  induction h with
  | nil => exact .refl _
  | cons hstep _ ih => exact hstep.grows.trans ih

theorem ingestAlerts_grows (tenantId : ℕ) (batch : List AlertPayload) (table : AlertTable db) :
    Grows table (ingestAlerts tenantId batch table).2 := by
  obtain ⟨⟨ds, hchain, -⟩, -⟩ := ingestAlerts_chain tenantId batch table
  exact hchain.grows

/-! ## Rows of the caller -/

theorem visible_kept {principal : Principal} {table table' : AlertTable db} (h : Grows table table') {i : ℕ}
    (hi : i ∈ (scopeToTenant principal (fun a => some a.tenantId) table.rows.entries).map Prod.fst) :
    i ∈ (scopeToTenant principal (fun a => some a.tenantId) table'.rows.entries).map Prod.fst := by
  obtain ⟨⟨id, a⟩, ha, rfl⟩ := List.mem_map.mp hi
  have hmem := (scopeToTenant_sublist _ _ _).mem ha
  obtain ⟨a', ha', hkey⟩ := h id a (Dict.get?_eq_some.mpr hmem)
  refine List.mem_map.mpr ⟨(id, a'), ?_, rfl⟩
  have htenant : a'.tenantId = a.tenantId := congrArg Prod.fst hkey
  unfold scopeToTenant at ha ⊢
  split
  · exact Dict.get?_eq_some.mp ha'
  · next tenantId hsome =>
      rw [hsome] at ha
      refine List.mem_filter.mpr ⟨Dict.get?_eq_some.mp ha', ?_⟩
      have htenants := (List.mem_filter.mp ha).2
      simpa only [htenant] using htenants

theorem auditRows_extends {w w' : World} (h : w.audit <+: w'.audit) : auditRows w <+: auditRows w' := by
  obtain ⟨rest, hrest⟩ := h
  rw [auditRows, auditRows, ← hrest, List.zipIdx_append, List.map_append]
  exact List.prefix_append _ _

theorem visible_audit_kept {principal : Principal} {w w' : World} (h : w.audit <+: w'.audit) {i : ℕ}
    (hi : i ∈ (scopeToTenant principal AuditEvent.tenantId (auditRows w)).map Prod.fst) :
    i ∈ (scopeToTenant principal AuditEvent.tenantId (auditRows w')).map Prod.fst := by
  have hsub : (auditRows w).Sublist (auditRows w') := (auditRows_extends h).sublist
  refine (List.Sublist.map Prod.fst ?_).mem hi
  unfold scopeToTenant
  split
  · exact hsub
  · exact hsub.filter _

theorem map_fst_auditRows (w : World) : (auditRows w).map Prod.fst = List.range' 1 w.audit.length := by
  rw [auditRows, List.map_map]
  exact List.zipIdx_map_snd 1 w.audit

end NeuralSoc.Tenants
