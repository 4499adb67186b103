import NeuralSoc.Signups.Stages
import NeuralSoc.Api.Lemmas.Effects
import NeuralSoc.Base.Runs

/-!
# What a stage of a signup commits

Only two stages write a table. Between them the tenant of the signup has no user, and a signup that fails there
leaves it so.
-/

namespace NeuralSoc.Signups

open Handler Api

variable {p : Platform} {env : Env}

/-! ## The stages of one signup -/

theorem check_run (p : Platform) (env : Env) (body : Body) (w : World) : ∃ r, body.check p env w = (r, w) := by
  unfold Body.check
  rw [expect_bind_run]
  cases validateTenantName body.tenantName with
  | none => exact ⟨_, rfl⟩
  | some tenantName =>
      dsimp only
      rw [expect_bind_run]
      cases validateEmail p body.email with
      | none => exact ⟨_, rfl⟩
      | some email =>
          dsimp only
          rw [expect_bind_run]
          cases validatePassword body.password with
          | none => exact ⟨_, rfl⟩
          | some password =>
              dsimp only
              rw [ensure_bind_run]
              split
              · rw [get_bind_run, ensure_bind_run]
                split <;> exact ⟨_, rfl⟩
              · exact ⟨_, rfl⟩

theorem chooseSlug_run (p : Platform) (env : Env) (body : Body) (w : World) : body.chooseSlug p env w =
    match uniqueTenantSlug p env w body.tenantName with
    | some slug => (.ok slug, w)
    | none => (.error internalError, w) := by
  unfold Body.chooseSlug
  rw [get_bind_run]
  cases uniqueTenantSlug p env w body.tenantName <;> rfl

theorem commitTenant_run (body : Body) (slug : String) (w : World) : body.commitTenant slug w =
    if w.tenants.values.all fun t => t.slug ≠ slug then
      (.ok (freshId w.tenants), w.addTenant ⟨body.tenantName, slug⟩)
    else (.error internalError, w) := by
  unfold Body.commitTenant
  rw [get_bind_run, ensure_bind_run]
  split <;> rfl

def newUser (p : Platform) (env : Env) (body : Body) (tenantId : ℕ) : User :=
  ⟨tenantId, body.email, p.hashPassword env.salt body.password, .admin, true, env.now, none, none, false⟩

theorem commitUser_run (p : Platform) (env : Env) (body : Body) (tenantId : ℕ) (w : World) :
    body.commitUser p env tenantId w =
    if (w.userByEmail body.email).isNone then
      (.ok (freshId w.users, newUser p env body tenantId), w.addUser (newUser p env body tenantId))
    else (.error internalError, w) := by
  unfold Body.commitUser
  rw [get_bind_run, ensure_bind_run]
  split <;> rfl

theorem uniqueTenantSlug_free {w : World} {name slug : String}
    (h : uniqueTenantSlug p env w name = some slug) :
    (w.tenants.values.all fun t => t.slug ≠ slug) = true := by
  unfold uniqueTenantSlug at h
  simpa using List.find?_some h

theorem signup_eq (tenantName email password : String) :
    Body.signup p env ⟨tenantName, email, password⟩ = Api.signup p env tenantName email password := by
  unfold Body.signup Body.check Api.signup
  simp only [Handler.bind_assoc]
  refine congrArg _ (funext fun tenantName => congrArg _ (funext fun email => ?_))
  refine congrArg _ (funext fun password => congrArg _ (funext fun _ => ?_))
  funext w
  rw [get_bind_run, get_bind_run, ensure_bind_run, ensure_bind_run]
  split
  · rename_i hemail
    change (Body.chooseSlug p env ⟨tenantName, email, password⟩ >>= _) w = _
    rw [expect_bind_run]
    have hslug := chooseSlug_run p env ⟨tenantName, email, password⟩ w
    cases hfree : uniqueTenantSlug p env w tenantName with
    | none =>
        simp only [hfree] at hslug
        rw [bind_run_error hslug]
    | some slug =>
        simp only [hfree] at hslug
        have htenant := (commitTenant_run ⟨tenantName, email, password⟩ slug w).trans
          (if_pos (uniqueTenantSlug_free hfree))
        have huser := (commitUser_run p env ⟨tenantName, email, password⟩
          (freshId w.tenants) (w.addTenant ⟨tenantName, slug⟩)).trans (if_pos hemail)
        rw [bind_run_ok hslug, bind_run_ok htenant, bind_run_ok huser]
        rfl
  · rfl

/-! ## A stage -/

/-- The tenant that has been committed without its user. -/
def Phase.tenant? : Phase → Option ℕ
  | .opened _ _ tenantId => some tenantId
  | _ => none

def Phase.Commits (event : Event) (w : World) : Phase → Prop
  | .opened body _ _ => event.answers = true ∧ w.userByEmail body.email = none
  | _ => True

instance (event : Event) (w : World) (phase : Phase) : Decidable (phase.Commits event w) :=
  match phase with
  | .opened body _ _ => inferInstanceAs (Decidable (event.answers = true ∧ w.userByEmail body.email = none))
  | .waiting => .isTrue trivial
  | .checked _ => .isTrue trivial
  | .named _ _ => .isTrue trivial
  | .joined _ _ _ => .isTrue trivial
  | .succeeded _ => .isTrue trivial
  | .failed _ => .isTrue trivial

theorem commitsUser_iff {s : State} {event : Event} :
    CommitsUser s event ↔ (s.phase event.signup).Commits event s.world := by
  unfold CommitsUser
  cases s.phase event.signup with
  | opened body slug tenantId =>
      constructor
      · exact fun h => h body slug tenantId rfl
      · rintro h _ _ _ heq
        cases heq
        exact h
  | _ => exact iff_of_true nofun trivial

theorem settle_tenant? {α : Type} {next : α → Phase} (hnext : ∀ a, (next a).tenant? = none)
    (r : Except HttpError α × World) : (settle next r).1.tenant? = none := by
  obtain ⟨r, w⟩ := r
  cases r with
  | ok a => exact hnext a
  | error e => rfl

theorem settle_world {α : Type} (next : α → Phase) (r : Except HttpError α × World) :
    (settle next r).2 = r.2 := by
  obtain ⟨r, w⟩ := r
  cases r <;> rfl

theorem guard_world {α : Type} {event : Event} {m : Route α} {w : World} {β : Type} {f : World → β}
    (h : f (m w).2 = f w) : f (event.guard m w).2 = f w := by
  unfold Event.guard
  split
  · exact h
  · rfl

/-- The stages that write no table. -/
structure Reads (phase phase' : Phase) (w w' : World) : Prop where
  before : phase.tenant? = none
  after : phase'.tenant? = none
  tenants : w'.tenants = w.tenants
  users : w'.users = w.users

structure Opens (phase phase' : Phase) (w w' : World) : Prop where
  before : phase.tenant? = none
  after : phase'.tenant? = some (freshId w.tenants)
  tenants : ∃ t, w'.tenants = w.tenants.set (freshId w.tenants) t
  users : w'.users = w.users

structure Joins (tenantId : ℕ) (phase phase' : Phase) (w w' : World) : Prop where
  before : phase.tenant? = some tenantId
  after : phase'.tenant? = none
  tenants : w'.tenants = w.tenants
  users : ∃ u, u.tenantId = tenantId ∧ u.role = .admin ∧ w'.users = w.users.set (freshId w.users) u

/-- The end of a signup that leaves its tenant alone. -/
structure Leaves (tenantId : ℕ) (phase phase' : Phase) (w w' : World) : Prop where
  before : phase.tenant? = some tenantId
  after : phase'.tenant? = none
  tenants : w'.tenants = w.tenants
  users : w'.users = w.users

/-- A stage that changes no table reads, whether or not the database answers. -/
theorem reads_settle {α : Type} {event : Event} {m : Route α} {next : α → Phase} {phase : Phase} {w : World}
    (hbefore : phase.tenant? = none) (hnext : ∀ a, (next a).tenant? = none)
    (htenants : (m w).2.tenants = w.tenants) (husers : (m w).2.users = w.users) :
    Reads phase (settle next (event.guard m w)).1 w (settle next (event.guard m w)).2 where
  before := hbefore
  after := settle_tenant? hnext _
  tenants := by rw [settle_world, guard_world htenants]
  users := by rw [settle_world, guard_world husers]

theorem stage_cases (event : Event) (body : Body) (w : World) (phase : Phase) :
    Reads phase (stage p event body w phase).1 w (stage p event body w phase).2 ∨
      Opens phase (stage p event body w phase).1 w (stage p event body w phase).2 ∨
      ∃ tenantId, (phase.Commits event w ∧
          Joins tenantId phase (stage p event body w phase).1 w (stage p event body w phase).2) ∨
        ¬ phase.Commits event w ∧
          Leaves tenantId phase (stage p event body w phase).1 w (stage p event body w phase).2 := by
  cases phase with
  | waiting =>
      obtain ⟨r, hr⟩ := check_run p event.env body w
      exact Or.inl (reads_settle rfl (fun _ => rfl) (by rw [hr]) (by rw [hr]))
  | checked body =>
      have hw : (body.chooseSlug p event.env w).2 = w := by
        rw [chooseSlug_run]
        split <;> rfl
      exact Or.inl (reads_settle rfl (fun _ => rfl) (by rw [hw]) (by rw [hw]))
  | named body slug =>
      rw [stage, Event.guard]
      split
      · rw [commitTenant_run]
        split
        · exact Or.inr (Or.inl ⟨rfl, rfl, ⟨_, rfl⟩, rfl⟩)
        · exact Or.inl ⟨rfl, rfl, rfl, rfl⟩
      · exact Or.inl ⟨rfl, rfl, rfl, rfl⟩
  | opened body slug tenantId =>
      refine Or.inr (Or.inr ⟨tenantId, ?_⟩)
      rw [stage, Event.guard]
      split
      · rename_i hanswers
        rw [commitUser_run]
        split
        · rename_i hnone
          refine Or.inl ⟨⟨hanswers, Option.isNone_iff_eq_none.mp hnone⟩, rfl, rfl, rfl, ?_⟩
          exact ⟨newUser p event.env body tenantId, rfl, rfl, rfl⟩
        · rename_i hsome
          refine Or.inr ⟨fun h => ?_, rfl, rfl, rfl, rfl⟩
          exact hsome (Option.isNone_iff_eq_none.mpr h.2)
      · rename_i hsilent
        exact Or.inr ⟨fun h => hsilent h.1, rfl, rfl, rfl, rfl⟩
  | joined slug id user =>
      have htables : (Body.finish p event.env slug id user w).2.tenants = w.tenants ∧
          (Body.finish p event.env slug id user w).2.users = w.users := by
        obtain ⟨audit, hrun⟩ := recordAuditEvent_run event.env "signup"
          { tenantId := some user.tenantId, actorUserId := some id, actorLabel := some user.email, target := some slug }
          w
        unfold Body.finish
        rw [bind_run_ok hrun]
        exact ⟨rfl, rfl⟩
      exact Or.inl (reads_settle rfl (fun _ => rfl) htables.1 htables.2)
  | succeeded response => exact Or.inl ⟨rfl, rfl, rfl, rfl⟩
  | failed e => exact Or.inl ⟨rfl, rfl, rfl, rfl⟩

/-! ## A step of a run -/

variable {bodies : ℕ → Body}

theorem phase_advance (s : State) (event : Event) (i : ℕ) : ((advance p bodies s event).phase i).tenant? =
    if i = event.signup then
      (stage p event (bodies event.signup) s.world (s.phase event.signup)).1.tenant?
    else (s.phase i).tenant? := by
  simp only [advance, Function.update_apply]
  split <;> rfl

def HasAdmin (w : World) (tenantId : ℕ) : Prop :=
  ∃ id u, w.users.get? id = some u ∧ u.tenantId = tenantId ∧ u.role = .admin

/-- A tenant without an administrator belongs to a signup that is about to commit one. -/
def Backed (s : State) : Prop := ∀ tenantId t, s.world.tenants.get? tenantId = some t →
  HasAdmin s.world tenantId ∨ ∃ i, (s.phase i).tenant? = some tenantId

theorem hasAdmin_set {w w' : World} {u : User} (husers : w'.users = w.users.set (freshId w.users) u)
    {tenantId : ℕ} (h : HasAdmin w tenantId) : HasAdmin w' tenantId := by
  obtain ⟨id, v, hv, htenant, hrole⟩ := h
  refine ⟨id, v, ?_, htenant, hrole⟩
  have hne : id ≠ freshId w.users := by
    rintro rfl
    rw [get?_freshId] at hv
    cases hv
  rw [husers, Dict.get?_set, if_neg hne, hv]

theorem backed_advance {s : State} {event : Event} (h : Backed s) (hcommits : CommitsUser s event) :
    Backed (advance p bodies s event) := by
  intro tenantId t ht
  -- a signup other than the one that moves still backs its tenant
  have hkeeps : ∀ i, i ≠ event.signup → (s.phase i).tenant? = some tenantId →
      ∃ i, ((advance p bodies s event).phase i).tenant? = some tenantId :=
    fun i hne hi => ⟨i, by rw [phase_advance, if_neg hne, hi]⟩
  rcases stage_cases (p := p) event (bodies event.signup) s.world (s.phase event.signup) with
    hreads | hopens | ⟨opened, ⟨-, hjoins⟩ | ⟨hnot, hleaves⟩⟩
  · rw [advance, hreads.tenants] at ht
    rcases h tenantId t ht with ⟨id, u, hu, hadmin⟩ | ⟨i, hi⟩
    · exact Or.inl ⟨id, u, by rw [advance, hreads.users, hu], hadmin⟩
    · refine Or.inr (hkeeps i ?_ hi)
      rintro rfl
      cases hreads.before.symm.trans hi
  · obtain ⟨new, hnew⟩ := hopens.tenants
    rw [advance, hnew, Dict.get?_set] at ht
    split at ht
    · rename_i hfresh
      exact Or.inr ⟨event.signup, by rw [phase_advance, if_pos rfl, hopens.after, hfresh]⟩
    · rcases h tenantId t ht with ⟨id, u, hu, hadmin⟩ | ⟨i, hi⟩
      · exact Or.inl ⟨id, u, by rw [advance, hopens.users, hu], hadmin⟩
      · refine Or.inr (hkeeps i ?_ hi)
        rintro rfl
        cases hopens.before.symm.trans hi
  · obtain ⟨u, hu, hrole, husers⟩ := hjoins.users
    rw [advance, hjoins.tenants] at ht
    rcases h tenantId t ht with hadmin | ⟨i, hi⟩
    · exact Or.inl (hasAdmin_set husers hadmin)
    · by_cases hself : i = event.signup
      · subst hself
        cases hjoins.before.symm.trans hi
        exact Or.inl ⟨freshId s.world.users, u, by rw [advance, husers, Dict.get?_set, if_pos rfl], hu, hrole⟩
      · exact Or.inr (hkeeps i hself hi)
  · exact absurd (commitsUser_iff.mp hcommits) hnot

theorem Backed.atomic {s : State} (h : Backed s) : Atomic s := by
  intro hsettled tenantId t ht
  rcases h tenantId t ht with hadmin | ⟨i, hi⟩
  · exact hadmin
  · have hi' := hsettled i
    cases hphase : s.phase i with
    | opened body slug opened =>
        rw [hphase] at hi'
        exact hi'.elim
    | _ =>
        rw [hphase] at hi
        cases hi

/-! ## A tenant that is left alone -/

/-- Nobody belongs to the tenant, and no signup is about to commit somebody. -/
structure Orphan (tenantId : ℕ) (s : State) : Prop where
  committed : (s.world.tenants.get? tenantId).isSome = true
  users : ∀ id u, s.world.users.get? id = some u → u.tenantId ≠ tenantId
  phases : ∀ i, (s.phase i).tenant? ≠ some tenantId

/-- The users refer to tenants, and a signup that is about to commit the user of its tenant is the only one
who knows of it. -/
structure Ordered (s : State) : Prop where
  references : ∀ id u, s.world.users.get? id = some u → (s.world.tenants.get? u.tenantId).isSome = true
  committed : ∀ i tenantId, (s.phase i).tenant? = some tenantId →
    (s.world.tenants.get? tenantId).isSome = true
  alone : ∀ i tenantId, (s.phase i).tenant? = some tenantId →
    ∀ id u, s.world.users.get? id = some u → u.tenantId ≠ tenantId
  apart : ∀ i j tenantId, (s.phase i).tenant? = some tenantId → (s.phase j).tenant? = some tenantId → i = j

/-- A stage that opens no tenant leaves only the other signups about to commit a user. -/
theorem other_of_advance {s : State} {event : Event}
    (hafter : (stage p event (bodies event.signup) s.world (s.phase event.signup)).1.tenant? = none)
    {i tenantId : ℕ} (h : ((advance p bodies s event).phase i).tenant? = some tenantId) :
    i ≠ event.signup ∧ (s.phase i).tenant? = some tenantId := by
  rw [phase_advance] at h
  split at h
  · cases hafter.symm.trans h
  · rename_i hne
    exact ⟨hne, h⟩

theorem get?_set_isSome {α : Type} {table : Dict ℕ α} {j : ℕ} (h : (table.get? j).isSome = true) (k : ℕ)
    (a : α) : ((table.set k a).get? j).isSome = true := by
  rw [Dict.get?_set]
  split
  · rfl
  · exact h

section Step

variable {s : State} {event : Event}

theorem ordered_same (h : Ordered s)
    (hafter : (stage p event (bodies event.signup) s.world (s.phase event.signup)).1.tenant? = none)
    (htenants : (advance p bodies s event).world.tenants = s.world.tenants)
    (husers : (advance p bodies s event).world.users = s.world.users) :
    Ordered (advance p bodies s event) where
  references := by
    rw [htenants, husers]
    exact h.references
  committed i tenantId hi := by
    rw [htenants]
    exact h.committed i tenantId (other_of_advance hafter hi).2
  alone i tenantId hi := by
    rw [husers]
    exact h.alone i tenantId (other_of_advance hafter hi).2
  apart i j tenantId hi hj :=
    h.apart i j tenantId (other_of_advance hafter hi).2 (other_of_advance hafter hj).2

theorem ordered_opens (h : Ordered s)
    (hopens : Opens (s.phase event.signup)
      (stage p event (bodies event.signup) s.world (s.phase event.signup)).1 s.world
      (advance p bodies s event).world) : Ordered (advance p bodies s event) := by
  obtain ⟨t, htenants⟩ := hopens.tenants
  have hcases : ∀ i tenantId, ((advance p bodies s event).phase i).tenant? = some tenantId →
      i = event.signup ∧ tenantId = freshId s.world.tenants ∨ (s.phase i).tenant? = some tenantId := by
    intro i tenantId hi
    rw [phase_advance] at hi
    split at hi
    · rename_i hself
      exact Or.inl ⟨hself, Option.some.inj (hi.symm.trans hopens.after)⟩
    · exact Or.inr hi
  have hnew : ∀ i, (s.phase i).tenant? ≠ some (freshId s.world.tenants) := by
    intro i hi
    have hsome := h.committed i _ hi
    rw [get?_freshId] at hsome
    cases hsome
  refine ⟨?_, ?_, ?_, ?_⟩
  · rw [hopens.users, htenants]
    exact fun id u hu => get?_set_isSome (h.references id u hu) _ _
  · intro i tenantId hi
    rw [htenants]
    rcases hcases i tenantId hi with ⟨-, rfl⟩ | hi
    · rw [Dict.get?_set, if_pos rfl]
      rfl
    · exact get?_set_isSome (h.committed i tenantId hi) _ _
  · intro i tenantId hi
    rw [hopens.users]
    rcases hcases i tenantId hi with ⟨-, rfl⟩ | hi
    · rintro id u hu heq
      have hsome := h.references id u hu
      rw [heq, get?_freshId] at hsome
      cases hsome
    · exact h.alone i tenantId hi
  · intro i j tenantId hi hj
    rcases hcases i tenantId hi with ⟨rfl, rfl⟩ | hi
    · rcases hcases j _ hj with ⟨rfl, -⟩ | hj
      · rfl
      · exact absurd hj (hnew j)
    · rcases hcases j _ hj with ⟨-, rfl⟩ | hj
      · exact absurd hi (hnew i)
      · exact h.apart i j tenantId hi hj

theorem user_of_joins {opened : ℕ} (hjoins : Joins opened (s.phase event.signup)
      (stage p event (bodies event.signup) s.world (s.phase event.signup)).1 s.world
      (advance p bodies s event).world) {id : ℕ} {v : User}
    (hv : (advance p bodies s event).world.users.get? id = some v) :
    v.tenantId = opened ∨ s.world.users.get? id = some v := by
  obtain ⟨u, hu, -, husers⟩ := hjoins.users
  rw [husers, Dict.get?_set] at hv
  split at hv
  · cases hv
    exact Or.inl hu
  · exact Or.inr hv

theorem ordered_joins (h : Ordered s) {opened : ℕ} (hjoins : Joins opened (s.phase event.signup)
      (stage p event (bodies event.signup) s.world (s.phase event.signup)).1 s.world
      (advance p bodies s event).world) : Ordered (advance p bodies s event) where
  references id v hv := by
    rw [hjoins.tenants]
    rcases user_of_joins hjoins hv with hv | hv
    · rw [hv]
      exact h.committed _ _ hjoins.before
    · exact h.references id v hv
  committed i tenantId hi := by
    rw [hjoins.tenants]
    exact h.committed i tenantId (other_of_advance hjoins.after hi).2
  alone i tenantId hi id v hv := by
    obtain ⟨hne, hi⟩ := other_of_advance hjoins.after hi
    rcases user_of_joins hjoins hv with hv | hv
    · rintro rfl
      rw [hv] at hi
      exact hne (h.apart i event.signup opened hi hjoins.before)
    · exact h.alone i tenantId hi id v hv
  apart i j tenantId hi hj :=
    h.apart i j tenantId (other_of_advance hjoins.after hi).2 (other_of_advance hjoins.after hj).2

theorem ordered_advance (h : Ordered s) (event : Event) : Ordered (advance p bodies s event) := by
  rcases stage_cases (p := p) event (bodies event.signup) s.world (s.phase event.signup) with
    hreads | hopens | ⟨opened, ⟨-, hjoins⟩ | ⟨-, hleaves⟩⟩
  · exact ordered_same h hreads.after hreads.tenants hreads.users
  · exact ordered_opens h hopens
  · exact ordered_joins h hjoins
  · exact ordered_same h hleaves.after hleaves.tenants hleaves.users

theorem orphan_same {tenantId : ℕ} (h : Orphan tenantId s)
    (hafter : (stage p event (bodies event.signup) s.world (s.phase event.signup)).1.tenant? = none)
    (htenants : (advance p bodies s event).world.tenants = s.world.tenants)
    (husers : (advance p bodies s event).world.users = s.world.users) :
    Orphan tenantId (advance p bodies s event) where
  committed := by
    rw [htenants]
    exact h.committed
  users := by
    rw [husers]
    exact h.users
  phases i hi := h.phases i (other_of_advance hafter hi).2

theorem orphan_opens {tenantId : ℕ} (h : Orphan tenantId s)
    (hopens : Opens (s.phase event.signup)
      (stage p event (bodies event.signup) s.world (s.phase event.signup)).1 s.world
      (advance p bodies s event).world) : Orphan tenantId (advance p bodies s event) := by
  obtain ⟨t, htenants⟩ := hopens.tenants
  refine ⟨?_, ?_, ?_⟩
  · rw [htenants]
    exact get?_set_isSome h.committed _ _
  · rw [hopens.users]
    exact h.users
  · intro i hi
    rw [phase_advance] at hi
    split at hi
    · have hsome := h.committed
      rw [← Option.some.inj (hopens.after.symm.trans hi), get?_freshId] at hsome
      cases hsome
    · exact h.phases i hi

theorem orphan_joins {tenantId opened : ℕ} (h : Orphan tenantId s)
    (hjoins : Joins opened (s.phase event.signup)
      (stage p event (bodies event.signup) s.world (s.phase event.signup)).1 s.world
      (advance p bodies s event).world) : Orphan tenantId (advance p bodies s event) where
  committed := by
    rw [hjoins.tenants]
    exact h.committed
  users id v hv := by
    rcases user_of_joins hjoins hv with hv | hv
    · rintro rfl
      rw [hv] at h
      exact h.phases event.signup hjoins.before
    · exact h.users id v hv
  phases i hi := h.phases i (other_of_advance hjoins.after hi).2

theorem orphan_advance {tenantId : ℕ} (h : Orphan tenantId s) (event : Event) :
    Orphan tenantId (advance p bodies s event) := by
  rcases stage_cases (p := p) event (bodies event.signup) s.world (s.phase event.signup) with
    hreads | hopens | ⟨opened, ⟨-, hjoins⟩ | ⟨-, hleaves⟩⟩
  · exact orphan_same h hreads.after hreads.tenants hreads.users
  · exact orphan_opens h hopens
  · exact orphan_joins h hjoins
  · exact orphan_same h hleaves.after hleaves.tenants hleaves.users

end Step

/-- A signup that fails after its first commit leaves the tenant to nobody. -/
theorem orphan_of_not_commitsUser {s : State} (h : Ordered s) {event : Event}
    (hnot : ¬ CommitsUser s event) : ∃ tenantId, Orphan tenantId (advance p bodies s event) := by
  rw [commitsUser_iff] at hnot
  have hopen : ∃ tenantId, (s.phase event.signup).tenant? = some tenantId := by
    cases heq : s.phase event.signup with
    | opened body slug tenantId => exact ⟨tenantId, rfl⟩
    | _ =>
        rw [heq] at hnot
        exact absurd trivial hnot
  obtain ⟨tenantId, htenant⟩ := hopen
  rcases stage_cases (p := p) event (bodies event.signup) s.world (s.phase event.signup) with
    hreads | hopens | ⟨opened, ⟨hcommits, -⟩ | ⟨-, hleaves⟩⟩
  · cases hreads.before.symm.trans htenant
  · cases hopens.before.symm.trans htenant
  · exact absurd hcommits hnot
  · refine ⟨opened, ?_, ?_, ?_⟩
    · rw [advance, hleaves.tenants]
      exact h.committed _ _ hleaves.before
    · rw [advance, hleaves.users]
      exact h.alone _ _ hleaves.before
    · intro i hi
      obtain ⟨hne, hi⟩ := other_of_advance hleaves.after hi
      exact hne (h.apart i event.signup opened hi hleaves.before)

theorem Orphan.not_administered {tenantId : ℕ} {s : State} (h : Orphan tenantId s) :
    ¬ Administered s.world := by
  intro hadministered
  obtain ⟨t, ht⟩ := Option.isSome_iff_exists.mp h.committed
  obtain ⟨id, u, hu, htenant, -⟩ := hadministered tenantId t ht
  exact h.users id u hu htenant

/-! ## Runs -/

theorem backed_start {w : World} (h : Administered w) : Backed (.start w) :=
  fun tenantId t ht => Or.inl (h tenantId t ht)

theorem ordered_start {w : World}
    (h : ∀ id u, w.users.get? id = some u → (w.tenants.get? u.tenantId).isSome = true) :
    Ordered (.start w) :=
  ⟨h, nofun, nofun, nofun⟩

theorem ordered_run {s : State} (h : Ordered s) (events : List Event) :
    Ordered (events.foldl (advance p bodies) s) := by
  induction events generalizing s with
  | nil => exact h
  | cons event events ih => exact ih (ordered_advance h event)

theorem orphan_run {tenantId : ℕ} {s : State} (h : Orphan tenantId s) (events : List Event) :
    Orphan tenantId (events.foldl (advance p bodies) s) := by
  induction events generalizing s with
  | nil => exact h
  | cons event events ih => exact ih (orphan_advance h event)

theorem phase_run {i : ℕ} {events : List Event} (h : ∀ event ∈ events, event.signup ≠ i) (s : State) :
    (events.foldl (advance p bodies) s).phase i = s.phase i := by
  induction events generalizing s with
  | nil => rfl
  | cons event events ih =>
      have hne : i ≠ event.signup := (h event (List.mem_cons_self ..)).symm
      rw [List.foldl_cons, ih fun e he => h e (List.mem_cons_of_mem _ he)]
      exact Function.update_of_ne hne ..

end NeuralSoc.Signups
