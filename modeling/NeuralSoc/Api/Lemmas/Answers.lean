import NeuralSoc.Api.Lemmas.Effects

/-! # Who a login and a verified challenge are answered for -/

namespace NeuralSoc.Api

open Handler

variable {p : Platform} {env : Env} {w : World}

theorem completeLogin_answer (p : Platform) (env : Env) (id : ℕ) (user : User) (detail : Option String) (w : World) :
    ∃ token, (completeLogin p env id user detail w).1 = .ok (.token token user.tenantId user.role) ∧
      Session token id user := ⟨_, rfl, rfl, rfl, rfl⟩

theorem challenge_answer (p : Platform) (env : Env) (id : ℕ) (user : User) (w : World) :
    ∃ token, (challenge p env id user w).1 = .ok (.mfaRequired token) ∧ token.userId = some id := ⟨_, rfl, rfl⟩

/-- A login that is not refused is by the user of the address, and answered with a session or a challenge of that
user. -/
theorem login_answer {email password : String} {r : Response} (h : (login p env email password w).1 = .ok r) :
    ∃ e id user, validateEmail p email = some e ∧ w.users.get? id = some user ∧ user.email = e ∧
      ((∃ token, r = .token token user.tenantId user.role ∧ Session token id user) ∨
        ∃ token, r = .mfaRequired token ∧ token.userId = some id) := by
  have hrun : login p env email password w = (.ok r, (login p env email password w).2) := Prod.ext h rfl
  obtain ⟨e, w₁, he, hrun⟩ := bind_eq_ok.mp hrun
  obtain ⟨he, hw₁⟩ := expect_eq_ok.mp he
  obtain ⟨_, w₂, hlimit, hrun⟩ := bind_eq_ok.mp hrun
  obtain ⟨-, hw₂⟩ := ensure_eq_ok.mp hlimit
  rw [hw₂, hw₁, get_bind_run] at hrun
  cases hlocked : isLockedOut p env w e with
  | true =>
      rw [if_pos hlocked] at hrun
      cases hrun
  | false =>
      rw [if_neg (Bool.eq_false_iff.mp hlocked)] at hrun
      cases hfound : (w.userByEmail e).filter fun e => e.2.isActive with
      | none =>
          rw [hfound] at hrun
          cases hrun
      | some found =>
          obtain ⟨id, user⟩ := found
          rw [hfound] at hrun
          obtain ⟨hget, hsame⟩ := userByEmail_eq_some (Option.eq_some_of_filter_eq_some hfound)
          refine ⟨e, id, user, he, hget, hsame, ?_⟩
          dsimp only at hrun
          split at hrun
          · cases hrun
          · obtain ⟨_, w', -, hrun⟩ := bind_eq_ok.mp hrun
            split at hrun
            · obtain ⟨token, hanswer, huser⟩ := challenge_answer p env id user w'
              rw [hrun] at hanswer
              exact .inr ⟨token, Except.ok.inj hanswer, huser⟩
            · obtain ⟨token, hanswer, hsession⟩ := completeLogin_answer p env id user none w'
              rw [hrun] at hanswer
              exact .inl ⟨token, Except.ok.inj hanswer, hsession⟩

/-- A verified challenge is answered with a session of its user. -/
theorem verifyMfa_answer {claims : Claims} {code : String} {r : Response}
    (h : (verifyMfa p env (.jwt claims) code w).1 = .ok r) :
    ∃ id user, claims.userId = some id ∧ w.users.get? id = some user ∧
      ∃ token, r = .token token user.tenantId user.role ∧ Session token id user := by
  have hrun : verifyMfa p env (.jwt claims) code w = (.ok r, (verifyMfa p env (.jwt claims) code w).2) :=
    Prod.ext h rfl
  obtain ⟨_, w₁, hlimit, hrun⟩ := bind_eq_ok.mp hrun
  obtain ⟨-, hw₁⟩ := ensure_eq_ok.mp hlimit
  rw [hw₁] at hrun
  rcases purposeToken_cases env invalidChallenge "mfa_pending" (.jwt claims) w with
    ⟨c, heq, -, htoken⟩ | ⟨htoken, -⟩
  · cases heq
    rw [bind_run_ok htoken, get_bind_run] at hrun
    obtain ⟨⟨id, user⟩, w₂, hfound, hrun⟩ := bind_eq_ok.mp hrun
    obtain ⟨hfound, hw₂⟩ := expect_eq_ok.mp hfound
    obtain ⟨hid, hget⟩ := userById_eq_some.mp (Option.eq_some_of_filter_eq_some hfound)
    obtain ⟨_, w₃, henabled, hrun⟩ := bind_eq_ok.mp hrun
    refine ⟨id, user, hid, hget, ?_⟩
    split at hrun
    · cases hrun
    · obtain ⟨_, w', -, hrun⟩ := bind_eq_ok.mp hrun
      obtain ⟨token, hanswer, hsession⟩ := completeLogin_answer p env id user (some "mfa") w'
      rw [hrun] at hanswer
      exact ⟨token, Except.ok.inj hanswer, hsession⟩
  · rw [bind_run_error htoken] at hrun
    cases hrun

end NeuralSoc.Api
