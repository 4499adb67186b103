import NeuralSoc.Api.Lemmas.Answers
import NeuralSoc.Dashboard.Sessions
import NeuralSoc.Tenants.Lemmas.Audit

/-!
# What a tab says and what the cache keeps

A tab that is signed in says who its token was issued for, in every state of the backend that follows. A cached
value is the answer to the token it is kept under, and the backend gave it in an earlier state of the run.
-/

namespace NeuralSoc.Dashboard

open Api Tenants Handler

variable {db : Database} {lib : Libraries} {d : Process db}

/-! ## Definitions -/

def SameEmail (_ : ℕ) (u u' : User) : Prop := u'.email = u.email

/-- The tab is signed in as the user that its token is a session of. -/
structure SignedInAs (p : Platform) (w : World) (tab : Tab) (claims : Claims) (id : ℕ) (u : User) : Prop where
  user : w.users.get? id = some u
  session : Session claims id u
  role : tab.role = some u.role
  tenantId : tab.tenantId = some u.tenantId
  analyst : ∃ name, tab.analystName = some name ∧ validateEmail p name = some u.email

/-- The challenge of the tab is one of the user whose address was typed in. -/
structure Challenged (p : Platform) (w : World) (tab : Tab) (claims : Claims) (id : ℕ) (u : User) : Prop where
  user : w.users.get? id = some u
  challenge : claims.userId = some id
  email : ∃ name, tab.pendingMfaEmail = some name ∧ validateEmail p name = some u.email

structure Truthful (p : Platform) (w : World) (tab : Tab) : Prop where
  signedIn : ∀ claims, tab.accessToken = some claims → ∃ id u, SignedInAs p w tab claims id u
  challenged : ∀ claims, tab.pendingMfaToken = some claims → ∃ id u, Challenged p w tab claims id u
  signedOut : tab.accessToken = none → tab.role = none ∧ tab.tenantId = none ∧ tab.analystName = none
  once : tab.accessToken = none ∨ tab.pendingMfaToken = none

/-! ## Requests of a tab -/

instance (id : ℕ) : IsPreorder User (SameEmail id) where
  refl _ := rfl
  trans _ _ _ h h' := h'.trans h

theorem serveBackend_effect {R : ℕ → User → User → Prop} [∀ id, IsPreorder User (R id)] {services : Services}
    {call : Call} (hrow : ∀ q id f, RowUpdate services.toPlatform call.toEnv q id f → ∀ u, R id u (f u))
    (r : BackendRequest) (s : Backend db) : Effect R s.world (serveBackend services s (call, r)).world := by
  cases r with
  | api q =>
      rw [serve_api]
      exact handle_effect (hrow q) s.world
  | read credentials r =>
      rw [serveBackend, handleBackend, ← read_keeps services.toPlatform credentials r s]
      exact refl s.world
  | setStatus credentials incidentId status note =>
      rw [serveBackend, handleBackend]
      rcases setStatus_cases services call.toEnv credentials incidentId status note s with hsame | ⟨_, _, -, -, hrun⟩
      · rw [hsame]
        exact refl s.world
      · rw [hrun]
        exact recordAuditEvent_effect _ _ s.world
  | createSensorToken credentials tenantId name =>
      obtain ⟨husers, hissued, -⟩ := createSensorToken_aside services call credentials tenantId name s
      refine .of_same husers fun claims hc => .inl ?_
      rwa [← hissued]
  | ingest authorization batch =>
      obtain ⟨husers, hissued, -⟩ := ingest_aside services call.toEnv authorization batch s
      refine .of_same husers fun claims hc => .inl ?_
      rwa [← hissued]

theorem sameEmail_serve (services : Services) (s : Backend db) (request : Call × BackendRequest) :
    Effect SameEmail s.world (serveBackend services s request).world := by
  refine serveBackend_effect (fun q id f hupdate u => ?_) request.2 s
  cases hupdate <;> rfl

/-- A request leaves the tabs and the cache, and the backend as it was or as it serves it. -/
theorem send_cases (services : Services) (d : Process db) (trip : Trip) (r : BackendRequest) :
    (send services d trip r).2 = d ∨
      (send services d trip r).2 = { d with backend := serveBackend services d.backend (trip.call, r) } := by
  unfold send
  cases trip.delivery with
  | lost => exact .inl rfl
  | unanswered => exact .inr rfl
  | answered => exact .inr rfl

theorem send_answer {services : Services} {trip : Trip} {r : BackendRequest} {answer : BackendResponse}
    {d' : Process db} (h : send services d trip r = (some (.ok answer), d')) :
    (handleBackend services trip.call r d.backend).1 = .ok answer ∧
      d' = { d with backend := serveBackend services d.backend (trip.call, r) } := by
  unfold send at h
  cases hdelivery : trip.delivery with
  | lost =>
      rw [hdelivery] at h
      cases h
  | unanswered =>
      rw [hdelivery] at h
      cases h
  | answered =>
      rw [hdelivery] at h
      obtain ⟨hanswer, hd'⟩ := Prod.mk.inj h
      exact ⟨Option.some.inj hanswer, hd'.symm⟩

theorem api_answer {services : Services} {call : Call} {q : Request} {s : Backend db} {r : Response}
    (h : (handleBackend services call (.api q) s).1 = .ok (.auth r)) :
    (handle services.toPlatform call.toEnv q s.world).1 = .ok r := by
  unfold handleBackend at h
  dsimp only at h
  cases hrun : handle services.toPlatform call.toEnv q s.world with
  | mk answer w =>
      have hworld : (onWorld (handle services.toPlatform call.toEnv q) : BackendRoute db _) s =
          (answer, { s with world := w }) := by rw [onWorld, hrun]
      cases answer with
      | error e =>
          rw [bind_run_error hworld] at h
          cases h
      | ok response =>
          rw [bind_run_ok hworld] at h
          cases h
          rfl

/-! ## Tabs stay truthful -/

section Truthful

variable {p : Platform} {w w' : World} {tab : Tab}

theorem SignedInAs.effect {claims : Claims} {id : ℕ} {u : User} (h : SignedInAs p w tab claims id u)
    (heffect : Effect SameEmail w w') : ∃ u', SignedInAs p w' tab claims id u' := by
  obtain ⟨u', hu', htenant, hrole, hemail⟩ := heffect.rows id u h.user
  obtain ⟨huser, hclaims, hscopes⟩ := h.session
  refine ⟨u', hu', ⟨huser, ?_, ?_⟩, ?_, ?_, ?_⟩
  · rw [hclaims, htenant]
  · rw [hscopes, hrole]
  · rw [h.role, hrole]
  · rw [h.tenantId, htenant]
  · obtain ⟨name, hname, hvalid⟩ := h.analyst
    exact ⟨name, hname, hvalid.trans (congrArg some hemail.symm)⟩

theorem Challenged.effect {claims : Claims} {id : ℕ} {u : User} (h : Challenged p w tab claims id u)
    (heffect : Effect SameEmail w w') : ∃ u', Challenged p w' tab claims id u' := by
  obtain ⟨u', hu', -, -, hemail⟩ := heffect.rows id u h.user
  obtain ⟨name, hname, hvalid⟩ := h.email
  exact ⟨u', hu', h.challenge, name, hname, hvalid.trans (congrArg some hemail.symm)⟩

theorem Truthful.effect (h : Truthful p w tab) (heffect : Effect SameEmail w w') : Truthful p w' tab where
  signedIn claims hc := by
    obtain ⟨id, u, hu⟩ := h.signedIn claims hc
    exact ⟨id, hu.effect heffect⟩
  challenged claims hc := by
    obtain ⟨id, u, hu⟩ := h.challenged claims hc
    exact ⟨id, hu.effect heffect⟩
  signedOut := h.signedOut
  once := h.once

theorem truthful_new (p : Platform) (w : World) : Truthful p w .new where
  signedIn _ hc := by cases hc
  challenged _ hc := by cases hc
  signedOut _ := ⟨rfl, rfl, rfl⟩
  once := .inl rfl

end Truthful

/-! ## Steps -/

/-- The addresses of the users stay, and the tabs truthful. -/
structure TabsKept (p : Platform) (d d' : Process db) : Prop where
  users : Effect SameEmail d.backend.world d'.backend.world
  tabs : ∀ j, Truthful p d.backend.world (d.tabs j) → Truthful p d'.backend.world (d'.tabs j)

theorem tabsKept_backend (p : Platform) {d d' : Process db}
    (h : Effect SameEmail d.backend.world d'.backend.world) (htabs : d'.tabs = d.tabs) : TabsKept p d d' where
  users := h
  tabs j hj := by
    rw [htabs]
    exact hj.effect h

theorem tabsKept_refl (p : Platform) (d : Process db) : TabsKept p d d := tabsKept_backend p (refl _) rfl

theorem Process.tabs_setTab (d : Process db) (i : ℕ) (tab : Tab) (j : ℕ) :
    (d.setTab i tab).tabs j = if j = i then tab else d.tabs j := by
  simp [Process.setTab, Function.update_apply]

/-- Only one tab changes, and it is truthful. -/
theorem tabsKept_setTab {p : Platform} {d d' : Process db} {i : ℕ} {tab : Tab}
    (h : Effect SameEmail d.backend.world d'.backend.world) (htabs : d'.tabs = d.tabs)
    (htab : Truthful p d.backend.world (d.tabs i) → Truthful p d'.backend.world tab) :
    TabsKept p d (d'.setTab i tab) where
  users := h
  tabs j hj := by
    rw [Process.tabs_setTab]
    split
    · next hji =>
        rw [hji] at hj
        exact htab hj
    · rw [htabs]
      exact hj.effect h

theorem send_kept (services : Services) (d : Process db) (trip : Trip) (r : BackendRequest) :
    Effect SameEmail d.backend.world (send services d trip r).2.backend.world ∧
      (send services d trip r).2.tabs = d.tabs := by
  rcases send_cases services d trip r with h | h
  · rw [h]
    exact ⟨refl _, rfl⟩
  · rw [h]
    exact ⟨sameEmail_serve services d.backend (trip.call, r), rfl⟩

theorem signIn_kept (d : Process db) (i : ℕ) (email password : String) (trip : Trip) :
    TabsKept lib.toPlatform d (signIn lib d i email password trip) := by
  unfold signIn
  dsimp only
  split
  · exact tabsKept_refl _ d
  · next hout =>
      have hnone : (d.tabs i).accessToken = none ∧ (d.tabs i).pendingMfaToken = none := by
        simpa using hout
      obtain ⟨hsent, htabs⟩ := send_kept lib.toServices d trip (.api (.login (strip email) password))
      split
      · next mfaToken d' hsend =>
          rw [hsend] at hsent htabs
          obtain ⟨hanswer, -⟩ := send_answer hsend
          obtain ⟨e, id, u, hvalid, hu, hemail, ⟨_, hother, -⟩ | ⟨token, htoken, huser⟩⟩ :=
            login_answer (api_answer hanswer)
          · cases hother
          · cases htoken
            obtain ⟨u', hu', -, -, hsame⟩ := hsent.rows id u hu
            refine tabsKept_setTab hsent htabs fun htab => ⟨?_, ?_, htab.signedOut, .inl hnone.1⟩
            · intro claims hc
              rw [hnone.1] at hc
              cases hc
            · intro claims hc
              cases hc
              exact ⟨id, u', hu', huser, strip email, rfl, by rw [hvalid, hsame, hemail]⟩
      · next accessToken tenantId role d' hsend =>
          rw [hsend] at hsent htabs
          obtain ⟨hanswer, -⟩ := send_answer hsend
          obtain ⟨e, id, u, hvalid, hu, hemail, ⟨token, htoken, hsession⟩ | ⟨_, hother, -⟩⟩ :=
            login_answer (api_answer hanswer)
          · cases htoken
            have hnow : SignedInAs lib.toPlatform d.backend.world
                { d.tabs i with
                  accessToken := some accessToken, role := some u.role, tenantId := some u.tenantId,
                  analystName := some (strip email) } accessToken id u :=
              ⟨hu, hsession, rfl, rfl, strip email, rfl, by rw [hvalid, hemail]⟩
            refine tabsKept_setTab hsent htabs fun htab => ⟨?_, ?_, nofun, .inr hnone.2⟩
            · intro claims hc
              cases hc
              exact ⟨id, hnow.effect hsent⟩
            · intro claims hc
              rw [hnone.2] at hc
              cases hc
          · cases hother
      · next d' hsend =>
          rw [hsend] at hsent htabs
          exact tabsKept_backend _ hsent htabs

theorem verifyCode_kept (d : Process db) (i : ℕ) (code : String) (trip : Trip) :
    TabsKept lib.toPlatform d (verifyCode lib d i code trip) := by
  unfold verifyCode
  dsimp only
  split
  · next mfaToken hout hpending =>
      obtain ⟨hsent, htabs⟩ := send_kept lib.toServices d trip (.api (.verifyMfa (.jwt mfaToken) (strip code)))
      split
      · next accessToken tenantId role d' hsend =>
          rw [hsend] at hsent htabs
          obtain ⟨hanswer, -⟩ := send_answer hsend
          obtain ⟨id, u, huser, hu, token, htoken, hsession⟩ := verifyMfa_answer (api_answer hanswer)
          cases htoken
          refine tabsKept_setTab hsent htabs fun htab => ?_
          obtain ⟨id', u', hu', huser', name, hname, hvalid⟩ := htab.challenged mfaToken hpending
          cases huser.symm.trans huser'
          cases hu.symm.trans hu'
          have hnow : SignedInAs lib.toPlatform d.backend.world
              { d.tabs i with
                accessToken := some accessToken, role := some u.role, tenantId := some u.tenantId,
                analystName := some ((d.tabs i).pendingMfaEmail.getD ""), pendingMfaEmail := none,
                pendingMfaToken := none } accessToken id u :=
            ⟨hu, hsession, rfl, rfl, name, by rw [hname]; rfl, hvalid⟩
          refine ⟨?_, nofun, nofun, .inr rfl⟩
          intro claims hc
          cases hc
          exact ⟨id, hnow.effect hsent⟩
      · next d' hsend =>
          rw [hsend] at hsent htabs
          exact tabsKept_backend _ hsent htabs
  · exact tabsKept_refl _ d

theorem backToLogin_kept (p : Platform) (d : Process db) (i : ℕ) : TabsKept p d (backToLogin d i) := by
  unfold backToLogin
  dsimp only
  split
  · next hpending =>
      have hout : (d.tabs i).accessToken = none := by
        simp only [Bool.and_eq_true, Option.isNone_iff_eq_none] at hpending
        exact hpending.1
      refine tabsKept_setTab (refl _) rfl fun htab => ⟨?_, nofun, htab.signedOut, .inl hout⟩
      intro claims hc
      rw [hout] at hc
      cases hc
  · exact tabsKept_refl p d

theorem logOut_kept (d : Process db) (i : ℕ) (trip : Trip) :
    TabsKept lib.toPlatform d (logOut lib d i trip) := by
  unfold logOut
  dsimp only
  split
  · next token hsigned =>
      obtain ⟨hsent, htabs⟩ := send_kept lib.toServices d trip (.api (.logout (.jwt token)))
      refine tabsKept_setTab hsent htabs fun htab => ⟨nofun, ?_, fun _ => ⟨rfl, rfl, rfl⟩, .inl rfl⟩
      intro claims hc
      rcases htab.once with hnone | hnone
      · rw [hnone] at hsigned
        cases hsigned
      · rw [hnone] at hc
        cases hc
  · exact tabsKept_refl _ d

end NeuralSoc.Dashboard
