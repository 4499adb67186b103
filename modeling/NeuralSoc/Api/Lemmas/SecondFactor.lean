import NeuralSoc.Api.Lemmas.Effects

/-!
# What a request does to the second factor

`SecondFactor` relates the worlds before and after a request that carries a code: the secret of a user with
MFA enabled is kept, and MFA stays enabled, unless the code is right. Every route keeps it but `enrollMfa`.
-/

namespace NeuralSoc.Api

open Handler

variable {p : Platform} {env : Env}

/-! ## Definitions -/

def Request.code : Request → Option String
  | .verifyMfa _ code => some code
  | .confirmMfa _ code => some code
  | .disableMfa _ code => some code
  | _ => none

def SecondFactor (p : Platform) (code : Option String) (w w' : World) : Prop :=
  ∀ id u, w.users.get? id = some u → u.mfaEnabled = true →
    (∃ u', w'.users.get? id = some u' ∧ u'.totpSecret = u.totpSecret ∧ u'.mfaEnabled = true) ∨
      ∃ c, code = some c ∧ codeMatches p u c = true

/-- The request handled next leaves the second factors alone that its code does not match. -/
def SecondFactorKept (p : Platform) (w : World) (call : Env × Request) : Prop :=
  SecondFactor p call.2.code w (serve p w call)

/-- An enrolment, with a credential for it, of a user with MFA enabled that draws another secret. -/
def Reenrolls (w : World) (call : Env × Request) : Prop :=
  ∃ credentials principal id u, call.2 = .enrollMfa credentials ∧
    requireScope call.1 "users:manage" credentials w = (.ok principal, w) ∧
    principal.userId = some id ∧ w.users.get? id = some u ∧ u.mfaEnabled = true ∧
    u.totpSecret ≠ some call.1.secret

section Relation

variable {code : Option String}

def Guarded (_ : ℕ) (u u' : User) : Prop :=
  u.mfaEnabled = true → u'.totpSecret = u.totpSecret ∧ u'.mfaEnabled = true

instance (id : ℕ) : IsPreorder User (Guarded id) where
  refl _ h := ⟨rfl, h⟩
  trans _ _ _ h h' henabled := by
    obtain ⟨hsecret, hon⟩ := h henabled
    obtain ⟨hsecret', hon'⟩ := h' hon
    exact ⟨hsecret'.trans hsecret, hon'⟩

theorem Effect.secondFactor {w w' : World} (h : Effect Guarded w w') : SecondFactor p code w w' := by
  intro id u hu henabled
  obtain ⟨u', hu', -, -, hguarded⟩ := h.rows id u hu
  obtain ⟨hsecret, hon⟩ := hguarded henabled
  exact Or.inl ⟨u', hu', hsecret, hon⟩

theorem SecondFactor.trans {a b c : World} (h : SecondFactor p code a b) (h' : SecondFactor p code b c) :
    SecondFactor p code a c := by
  intro id u hu henabled
  rcases h id u hu henabled with ⟨u', hu', hsecret, henabled'⟩ | hcode
  · rcases h' id u' hu' henabled' with ⟨u'', hu'', hsecret', henabled''⟩ | ⟨c, hc, hmatch⟩
    · exact Or.inl ⟨u'', hu'', hsecret'.trans hsecret, henabled''⟩
    · refine Or.inr ⟨c, hc, ?_⟩
      rwa [codeMatches, hsecret, ← codeMatches] at hmatch
  · exact Or.inr hcode

instance : IsPreorder World (SecondFactor p code) where
  refl w := (refl (r := Effect Guarded) w).secondFactor
  trans _ _ _ := SecondFactor.trans

end Relation

/-- Every request keeps the second factors but an enrolment and a disabling. -/
theorem handle_secondFactor {r : Request} (code : Option String) (henroll : ∀ c, r ≠ .enrollMfa c)
    (hdisable : ∀ c x, r ≠ .disableMfa c x) (w : World) :
    SecondFactor p code w (handle p env r w).2 := by
  refine Effect.secondFactor (handle_effect ?_ w)
  intro id f hf u
  cases hf with
  | enroll => exact absurd rfl (henroll _)
  | disable => exact absurd rfl (hdisable _ _)
  | confirm => exact fun _ => ⟨rfl, rfl⟩
  | _ => exact fun h => ⟨rfl, h⟩

/-! ## The two routes that change a secret -/

theorem disableMfa_keeps (credentials : Option Token) (code : String) :
    Keeps (SecondFactor p (some code)) (disableMfa p env credentials code) := by
  intro w
  refine related_read (requireScope_run env _ credentials w) fun principal _ => related_get ?_
  refine related_expect fun found hfound => related_ensure fun _ => related_ensure fun _ => ?_
  refine related_ensure fun hmatch => ?_
  obtain ⟨-, huser⟩ := userById_eq_some.mp hfound
  intro j u hu henabled
  by_cases hj : j = found.1
  · subst hj
    cases huser.symm.trans hu
    exact Or.inr ⟨code, rfl, hmatch⟩
  · refine Or.inl ⟨u, ?_, rfl, henabled⟩
    obtain ⟨audit, hrun⟩ := update_record_run env found.1
      (fun u => { u with mfaEnabled := false, totpSecret := none }) "mfa.disabled" (userFields found.1 found.2)
      Response.noContent w
    rw [hrun]
    change (w.updateUser found.1 _).users.get? j = some u
    rw [users_updateUser, if_neg hj, hu]

/-- An enrolment writes the drawn secret into the row of its user, or does nothing. -/
theorem enrollMfa_cases (env : Env) (credentials : Option Token) (w : World) :
    (∃ principal id u, requireScope env "users:manage" credentials w = (.ok principal, w) ∧
        principal.userId = some id ∧ w.users.get? id = some u ∧
        ∀ j, (enrollMfa env credentials w).2.users.get? j =
          if j = id then some { u with totpSecret := some env.secret } else w.users.get? j) ∨
      (enrollMfa env credentials w).2 = w ∧
        ∀ principal id, requireScope env "users:manage" credentials w = (.ok principal, w) →
          principal.userId = some id → w.users.get? id = none := by
  obtain ⟨r, hr⟩ := requireScope_run env "users:manage" credentials w
  unfold enrollMfa
  cases r with
  | error e =>
      rw [bind_run_error hr, hr]
      exact Or.inr ⟨rfl, nofun⟩
  | ok principal =>
      rw [bind_run_ok hr, get_bind_run, expect_bind_run, hr]
      cases hfound : userById w principal.userId with
      | none =>
          refine Or.inr ⟨rfl, fun _ id heq hid => ?_⟩
          cases heq
          rw [hid] at hfound
          exact Option.map_eq_none_iff.mp hfound
      | some found =>
          obtain ⟨id, user⟩ := found
          obtain ⟨hid, huser⟩ := userById_eq_some.mp hfound
          refine Or.inl ⟨principal, id, user, rfl, hid, huser, fun j => ?_⟩
          obtain ⟨audit, hrun⟩ := update_record_run env id (fun u => { u with totpSecret := some env.secret })
            "mfa.enroll_started" (userFields id user) (Response.mfaEnroll env.secret user.email "T-SOC") w
          dsimp only
          rw [hrun]
          change (w.updateUser id _).users.get? j = _
          rw [users_updateUser, huser]
          rfl

/-- An enrolment keeps the second factors exactly when it does not replace the secret of an enabled one. -/
theorem enrollMfa_keeps_iff (credentials : Option Token) (w : World) :
    SecondFactor p none w (enrollMfa env credentials w).2 ↔
      ¬ Reenrolls w (env, .enrollMfa credentials) := by
  rcases enrollMfa_cases env credentials w with
    ⟨principal, id, user, hscope, hid, huser, hafter⟩ | ⟨hsame, hno⟩
  · constructor
    · rintro hkept ⟨_, principal', id', u, heq, hscope', hid', hu, henabled, hne⟩
      cases heq
      cases hscope.symm.trans hscope'
      cases hid.symm.trans hid'
      cases huser.symm.trans hu
      rcases hkept id user huser henabled with ⟨u', hu', hsecret, -⟩ | ⟨c, hc, -⟩
      · rw [hafter, if_pos rfl] at hu'
        cases hu'
        exact hne hsecret.symm
      · cases hc
    · intro hno j u hu henabled
      rw [hafter]
      split
      · rename_i hj
        subst hj
        cases huser.symm.trans hu
        refine Or.inl ⟨_, rfl, ?_, henabled⟩
        by_contra hne
        exact hno ⟨credentials, principal, j, user, rfl, hscope, hid, huser, henabled, fun h => hne h.symm⟩
      · exact Or.inl ⟨u, hu, rfl, henabled⟩
  · rw [hsame]
    refine iff_of_true (refl w) ?_
    rintro ⟨_, principal, id, u, heq, hscope, hid, hu, -⟩
    cases heq
    cases (hno principal id hscope hid).symm.trans hu

theorem secondFactorKept_iff (w : World) (call : Env × Request) :
    SecondFactorKept p w call ↔ ¬ Reenrolls w call := by
  obtain ⟨env, r⟩ := call
  unfold SecondFactorKept serve
  by_cases henroll : ∃ credentials, r = .enrollMfa credentials
  · obtain ⟨credentials, rfl⟩ := henroll
    exact enrollMfa_keeps_iff credentials w
  have hnot : ¬ Reenrolls w (env, r) := by
    rintro ⟨credentials, _, _, _, heq, -⟩
    exact henroll ⟨credentials, heq⟩
  refine iff_of_true ?_ hnot
  by_cases hdisable : ∃ credentials code, r = .disableMfa credentials code
  · obtain ⟨credentials, code, rfl⟩ := hdisable
    exact disableMfa_keeps credentials code w
  · exact handle_secondFactor _ (fun c heq => henroll ⟨c, heq⟩) (fun c x heq => hdisable ⟨c, x, heq⟩) w

end NeuralSoc.Api
