import NeuralSoc.Tokens.SingleUse
import NeuralSoc.Api.Lemmas.Effects
import NeuralSoc.Base.Runs

/-!
# Stages of a redemption

The check only reads, the work leaves the tokens alone, the denylist write is the only one, and the finish
always succeeds. So a request that has passed its check stands alone until its entry is in the denylist.
-/

namespace NeuralSoc.Tokens

open Handler Api

variable {p : Platform} {env : Env}

/-! ## The stages of one request -/

/-- The denylist stays and no token is forgotten. -/
def KeepsTokens (w w' : World) : Prop := w'.denylist = w.denylist ∧ ∀ c ∈ w.issued, c ∈ w'.issued

instance : IsPreorder World KeepsTokens where
  refl _ := ⟨rfl, fun _ h => h⟩
  trans _ _ _ h h' := ⟨h'.1.trans h.1, fun c hc => h'.2 c (h.2 c hc)⟩

theorem updateUser_keepsTokens (id : ℕ) (f : User → User) :
    Keeps KeepsTokens (modify (World.updateUser id f) : Route Unit) := by
  refine .modify fun w => ⟨?_, ?_⟩
  · unfold World.updateUser
    split <;> rfl
  · rw [issued_updateUser]
    exact fun _ h => h

theorem recordAuditEvent_keepsTokens (action : String) (fields : AuditFields) :
    Keeps KeepsTokens (recordAuditEvent env action fields) := by
  intro w
  obtain ⟨audit, hrun⟩ := recordAuditEvent_run env action fields w
  rw [hrun]
  exact ⟨rfl, fun _ h => h⟩

namespace Redemption

variable (p env)

theorem redeem_eq (token : Token) (r : Redemption) :
    handle p env (r.request token) = r.redeem p env token := by
  cases r with
  | mfa code =>
      change verifyMfa p env token code = _
      unfold verifyMfa redeem check work finish
      simp only [Handler.bind_assoc]
      refine congrArg _ (funext fun _ => congrArg _ (funext fun claims => congrArg _ (funext fun w => ?_)))
      refine congrArg _ (funext fun found => congrArg _ (funext fun _ => ?_))
      split
      · rfl
      · rfl
  | reset newPassword =>
      change confirmPasswordReset p env token newPassword = _
      unfold confirmPasswordReset redeem check work finish
      dsimp only
      cases hpassword : validatePassword newPassword with
      | none => rfl
      | some password =>
          cases validatePassword_eq_some hpassword
          simp only [Handler.bind_assoc]
          rfl

theorem check_cases (token : Token) (r : Redemption) (w : World) :
    (∃ claims purpose, token = .jwt claims ∧ Redeemable env w purpose claims ∧
        r.check env token w = (.ok claims, w)) ∨
      ∃ e, r.check env token w = (.error e, w) := by
  have htoken : ∀ e expected, (∃ claims purpose, token = .jwt claims ∧ Redeemable env w purpose claims ∧
      purposeToken env e expected token w = (.ok claims, w)) ∨
      ∃ e', purposeToken env e expected token w = (.error e', w) := by
    intro e expected
    rcases purposeToken_cases env e expected token w with ⟨claims, heq, hredeemable, hrun⟩ | ⟨hrun, -⟩
    · exact Or.inl ⟨claims, expected, heq, hredeemable, hrun⟩
    · exact Or.inr ⟨e, hrun⟩
  cases r with
  | mfa code =>
      rw [check, ensure_bind_run]
      split
      · exact htoken _ _
      · exact Or.inr ⟨_, rfl⟩
  | reset newPassword =>
      rw [check, expect_bind_run]
      cases validatePassword newPassword with
      | some _ => exact htoken invalidResetToken "password_reset"
      | none => exact Or.inr ⟨_, rfl⟩

theorem work_keepsTokens (claims : Claims) (r : Redemption) : Keeps KeepsTokens (r.work p env claims) := by
  intro w
  cases r with
  | mfa code =>
      refine related_get (related_expect fun found _ => related_ensure fun _ => ?_)
      split
      · exact related_bind (recordAuditEvent_keepsTokens _ _ w) fun _ w' _ => refl w'
      · exact refl w
  | reset newPassword =>
      refine related_get (related_expect fun found _ => ?_)
      exact related_bind (updateUser_keepsTokens _ _ w) fun _ w' _ => refl w'

theorem finish_ok (id : ℕ) (user : User) (r : Redemption) (w : World) :
    ∃ response, (r.finish p env id user w).1 = .ok response := by
  cases r with
  | mfa code => exact ⟨_, rfl⟩
  | reset newPassword => exact ⟨_, rfl⟩

theorem finish_keepsTokens (id : ℕ) (user : User) (r : Redemption) :
    Keeps KeepsTokens (r.finish p env id user) := by
  cases r with
  | mfa code =>
      refine .bind (updateUser_keepsTokens _ _) fun _ => ?_
      refine .bind (recordAuditEvent_keepsTokens _ _) fun _ => ?_
      refine .bind (.bind (.modify fun w => ⟨rfl, fun c hc => ?_⟩) fun _ => .pure _) fun _ => .pure _
      exact List.mem_append_left _ hc
  | reset newPassword => exact .bind (recordAuditEvent_keepsTokens _ _) fun _ => .pure _

/-- A request that succeeds has redeemed its token and consumed it. -/
theorem redeem_ok {token : Token} {r : Redemption} {w w' : World} {response : Response}
    (h : r.redeem p env token w = (.ok response, w')) :
    ∃ claims purpose, token = .jwt claims ∧ Redeemable env w purpose claims ∧
      w'.denylist = consumed env claims w.denylist ∧ ∀ c ∈ w.issued, c ∈ w'.issued := by
  rcases check_cases env token r w with ⟨claims, purpose, rfl, hredeemable, hcheck⟩ | ⟨e, hcheck⟩
  · refine ⟨claims, purpose, rfl, hredeemable, ?_⟩
    rw [redeem, bind_run_ok hcheck] at h
    obtain ⟨⟨id, user⟩, w₁, hwork, h⟩ := bind_eq_ok.mp h
    have hkept := work_keepsTokens p env claims r w
    rw [hwork] at hkept
    dsimp only at h
    rw [bind_run_ok (consume_run env claims w₁)] at h
    have hfinish := finish_keepsTokens p env id user r
      { w₁ with denylist := consumed env claims w₁.denylist }
    rw [h] at hfinish
    refine ⟨?_, fun c hc => hfinish.2 c (hkept.2 c hc)⟩
    rw [hfinish.1]
    exact congrArg (consumed env claims) hkept.1
  · rw [redeem, bind_run_error hcheck] at h
    cases h

end Redemption

theorem mem_consumed {claims : Claims} (hjti : claims.jti ≠ "") (hexp : claims.exp ≠ 0)
    (hredis : env.redisUp = true) (hlife : 0 < truncate (claims.exp - env.now)) (denylist : List (String × ℚ)) :
    (claims.jti, env.now + truncate (claims.exp - env.now)) ∈ consumed env claims denylist := by
  simp [consumed, hjti, hexp, hredis, hlife.not_ge]

theorem isTokenRevoked_of_mem {w : World} {jti : String} {expires : ℚ} (hjti : jti ≠ "")
    (hredis : env.redisUp = true) (hmem : (jti, expires) ∈ w.denylist) (hlive : env.now ≤ expires) :
    isTokenRevoked env w jti = true := by
  simp only [isTokenRevoked, hjti, hredis, ne_eq, not_false_eq_true, decide_true, Bool.and_self, Bool.true_and,
    List.any_eq_true, Bool.and_eq_true, decide_eq_true_eq]
  exact ⟨_, hmem, rfl, hlive⟩

/-! ## Races -/

/-- A request that takes its four stages without a break is the request handled in one go. -/
theorem advance_alone (token : Token) (requests : ℕ → Redemption) {s : Race} {i : ℕ}
    (hi : s.phase i = .waiting) (env : Env) :
    (List.replicate 4 (env, i)).foldl (advance p token requests) s =
      ⟨(handle p env ((requests i).request token) s.world).2, Function.update s.phase i
        (.ofResult env.now (handle p env ((requests i).request token) s.world).1)⟩ := by
  rw [Redemption.redeem_eq, Redemption.redeem]
  simp only [List.replicate, List.foldl_cons, List.foldl_nil, advance, Function.update_self,
    Function.update_idem, hi]
  cases hcheck : (requests i).check env token s.world with
  | mk r w =>
      cases r with
      | error e =>
          rw [bind_run_error hcheck]
          simp only [stage, hcheck, settle, Phase.ofResult]
      | ok claims =>
          rw [bind_run_ok hcheck]
          cases hwork : (requests i).work p env claims w with
          | mk r w' =>
              cases r with
              | error e =>
                  rw [bind_run_error hwork]
                  simp only [stage, hcheck, hwork, settle, Phase.ofResult]
              | ok found =>
                  rw [bind_run_ok hwork, bind_run_ok (consume_run env claims w')]
                  cases hfinish : (requests i).finish p env found.1 found.2
                      { w' with denylist := consumed env claims w'.denylist } with
                  | mk r w'' =>
                      cases r with
                      | error e => simp only [stage, hcheck, hwork, consume_run, hfinish, settle, Phase.ofResult]
                      | ok response => simp only [stage, hcheck, hwork, consume_run, hfinish, settle, Phase.ofResult]

/-- The request has passed its check and has not failed since. -/
def Phase.Holds : Phase → Prop
  | .waiting => False
  | .failed _ => False
  | _ => True

def Phase.claims? : Phase → Option Claims
  | .checked claims => some claims
  | .worked claims _ _ => some claims
  | _ => none

def Phase.since? : Phase → Option ℚ
  | .consumed since _ _ => some since
  | .succeeded since _ => some since
  | _ => none

/-- One request at most holds the token, and the entry of its denylist write is there. -/
structure Single (claims : Claims) (s : Race) : Prop where
  presented : ∀ i c, (s.phase i).claims? = some c → c = claims
  alone : ∀ i j, (s.phase i).Holds → (s.phase j).Holds → i = j
  denied : ∀ i since, (s.phase i).since? = some since → 0 < truncate (claims.exp - since) →
    (claims.jti, since + truncate (claims.exp - since)) ∈ s.world.denylist

theorem Single.usedOnce {claims : Claims} {s : Race} (h : Single claims s) : UsedOnce s := by
  have hholds : ∀ i, (s.phase i).Succeeded → (s.phase i).Holds := by
    intro i hi
    cases hphase : s.phase i <;> simp_all [Phase.Succeeded, Phase.Holds]
  exact fun i j hi hj => h.alone i j (hholds i hi) (hholds j hj)

theorem single_start (claims : Claims) (w : World) : Single claims (.start w) where
  presented _ _ h := by cases h
  alone _ _ h := by cases h
  denied _ _ h := by cases h

theorem Phase.holds_of_since {phase : Phase} {t : ℚ} (h : phase.since? = some t) : phase.Holds := by
  cases phase <;> simp_all [Phase.since?, Phase.Holds]

theorem Single.update {claims : Claims} {s : Race} (h : Single claims s) {i : ℕ} {phase : Phase} {w : World}
    (hpresented : ∀ c, phase.claims? = some c → c = claims)
    (halone : phase.Holds → ∀ j, (s.phase j).Holds → j = i)
    (hdenied : ∀ t, phase.since? = some t → 0 < truncate (claims.exp - t) →
      (claims.jti, t + truncate (claims.exp - t)) ∈ w.denylist)
    (hothers : ∀ j, j ≠ i → ∀ t, (s.phase j).since? = some t → 0 < truncate (claims.exp - t) →
      (claims.jti, t + truncate (claims.exp - t)) ∈ w.denylist) :
    Single claims ⟨w, Function.update s.phase i phase⟩ where
  presented := (Function.forall_update_iff s.phase fun _ x => ∀ c, x.claims? = some c → c = claims).mpr
    ⟨hpresented, fun j _ => h.presented j⟩
  alone j k hj hk := by
    by_cases hphase : phase.Holds
    · have honly : ∀ l, (Function.update s.phase i phase l).Holds → l = i :=
        (Function.forall_update_iff s.phase fun l x => x.Holds → l = i).mpr
          ⟨fun _ => rfl, fun l _ => halone hphase l⟩
      exact (honly j hj).trans (honly k hk).symm
    · have hpull : ∀ l, (Function.update s.phase i phase l).Holds → (s.phase l).Holds :=
        (Function.forall_update_iff s.phase fun l x => x.Holds → (s.phase l).Holds).mpr
          ⟨fun hx => absurd hx hphase, fun _ _ hl => hl⟩
      exact h.alone j k (hpull j hj) (hpull k hk)
  denied := (Function.forall_update_iff s.phase fun _ x => ∀ t, x.since? = some t →
      0 < truncate (claims.exp - t) → (claims.jti, t + truncate (claims.exp - t)) ∈ w.denylist).mpr
    ⟨hdenied, hothers⟩

theorem Single.of_calm {claims : Claims} {s : Race} (h : Single claims s) {i : ℕ} {phase : Phase} {w : World}
    (hclaims : ∀ c, phase.claims? = some c → (s.phase i).claims? = some c)
    (hholds : phase.Holds → (s.phase i).Holds)
    (hsince : ∀ t, phase.since? = some t → (s.phase i).since? = some t)
    (hdenylist : w.denylist = s.world.denylist) :
    Single claims ⟨w, Function.update s.phase i phase⟩ := by
  apply h.update
  · exact fun c hc => h.presented i c (hclaims c hc)
  · exact fun hx j hj => h.alone j i hj (hholds hx)
  · rw [hdenylist]
    exact fun t ht => h.denied i t (hsince t ht)
  · rw [hdenylist]
    exact fun j _ => h.denied j

/-- While the token can be redeemed, no request that keeps apart holds it. -/
theorem Single.not_holds {claims : Claims} {s : Race} (h : Single claims s) (hjti : claims.jti ≠ "")
    (hredis : env.redisUp = true) {purpose : String} (hredeemable : Redeemable env s.world purpose claims)
    (hapart : ∀ j, (s.phase j).Apart claims.exp env.now) (j : ℕ) : ¬ (s.phase j).Holds := by
  obtain ⟨hgood, -, hnot⟩ := hredeemable
  obtain ⟨-, -, hnow⟩ := verifyToken_eq_some.mp hgood
  have hwritten : ∀ since, (s.phase j).since? = some since → ¬ Covered claims.exp env.now since := by
    rintro since hsince (⟨hlife, hlive⟩ | hexpired)
    · rw [isTokenRevoked_of_mem hjti hredis (h.denied j since hsince hlife) hlive] at hnot
      cases hnot
    · exact absurd hnow hexpired.not_gt
  have hj := hapart j
  cases hphase : s.phase j with
  | waiting => exact id
  | failed e => exact id
  | checked c => rw [hphase] at hj; exact hj.elim
  | worked c id user => rw [hphase] at hj; exact hj.elim
  | consumed since id user =>
      rw [hphase] at hj hwritten
      exact absurd hj (hwritten since rfl)
  | succeeded since response =>
      rw [hphase] at hj hwritten
      exact absurd hj (hwritten since rfl)

/-- A check that keeps apart passes only when no request holds the token. -/
theorem Single.check {claims : Claims} {s : Race} (h : Single claims s) {i : ℕ}
    (hnone : ∀ j, ¬ (s.phase j).Holds) :
    Single claims ⟨s.world, Function.update s.phase i (.checked claims)⟩ := by
  apply h.update
  · intro c hc
    cases hc
    rfl
  · exact fun _ j hj => absurd hj (hnone j)
  · exact nofun
  · exact fun j _ => h.denied j

theorem Single.consume {claims : Claims} {s : Race} (h : Single claims s) (hjti : claims.jti ≠ "")
    (hexp : claims.exp ≠ 0) (hredis : env.redisUp = true) {i id : ℕ} {user : User}
    (hi : s.phase i = .worked claims id user) :
    Single claims ⟨{ s.world with denylist := consumed env claims s.world.denylist },
      Function.update s.phase i (.consumed env.now id user)⟩ := by
  have honly : ∀ j, (s.phase j).Holds → j = i := fun j hj =>
    h.alone j i hj (by rw [hi]; trivial)
  apply h.update
  · exact nofun
  · exact fun _ => honly
  · intro t ht hlife
    cases ht
    exact mem_consumed hjti hexp hredis hlife _
  · exact fun j hj t ht _ => absurd (honly j (Phase.holds_of_since ht)) hj

theorem single_advance {claims : Claims} {requests : ℕ → Redemption} {s : Race} (h : Single claims s)
    (hjti : claims.jti ≠ "") (hexp : claims.exp ≠ 0) {event : Env × ℕ} (hredis : event.1.redisUp = true)
    (hapart : ChecksApart claims.exp s event) : Single claims (advance p (.jwt claims) requests s event) := by
  obtain ⟨env, i⟩ := event
  unfold advance
  cases hphase : s.phase i with
  | waiting =>
      rcases Redemption.check_cases env (.jwt claims) (requests i) s.world with
        ⟨c, purpose, heq, hredeemable, hrun⟩ | ⟨e, hrun⟩
      · cases heq
        simp only [stage, hrun, settle]
        exact h.check (h.not_holds hjti hredis hredeemable (hapart hphase))
      · simp only [stage, hrun, settle]
        exact h.of_calm nofun nofun nofun rfl
  | checked c =>
      have hkept := Redemption.work_keepsTokens p env c (requests i) s.world
      cases hrun : (requests i).work p env c s.world with
      | mk r w =>
          rw [hrun] at hkept
          cases r with
          | ok found =>
              simp only [stage, hrun, settle]
              exact h.of_calm (fun _ hc => by rw [hphase]; exact hc) (fun _ => by rw [hphase]; trivial) nofun
                hkept.1
          | error e =>
              simp only [stage, hrun, settle]
              exact h.of_calm nofun nofun nofun hkept.1
  | worked c id user =>
      cases h.presented i c (by rw [hphase]; rfl)
      simp only [stage, consume_run, settle]
      exact h.consume hjti hexp hredis hphase
  | consumed since id user =>
      have hkept := Redemption.finish_keepsTokens p env id user (requests i) s.world
      obtain ⟨response, hok⟩ := Redemption.finish_ok p env id user (requests i) s.world
      cases hrun : (requests i).finish p env id user s.world with
      | mk r w =>
          rw [hrun] at hkept hok
          cases hok
          simp only [stage, hrun, settle]
          exact h.of_calm nofun (fun _ => by rw [hphase]; trivial) (fun _ ht => by rw [hphase]; exact ht) hkept.1
  | succeeded since response =>
      simp only [stage]
      exact h.of_calm nofun (fun _ => by rw [hphase]; trivial) (fun _ ht => by rw [hphase]; exact ht) rfl
  | failed e =>
      simp only [stage]
      exact h.of_calm nofun nofun nofun rfl

/-- A request that takes its stages without a break keeps apart from requests that are done. -/
theorem checksApart_alone {token : Token} {requests : ℕ → Redemption} {exp : ℤ} {i : ℕ} (n : ℕ) {s : Race}
    (hothers : ∀ j, j ≠ i → (s.phase j).Apart exp env.now) :
    Each (advance p token requests) (ChecksApart exp) s (List.replicate n (env, i)) := by
  induction n generalizing s with
  | zero => trivial
  | succ n ih =>
      refine ⟨fun hi j => ?_, ih fun j hj => ?_⟩
      · by_cases hj : j = i
        · rw [hj, hi]
          trivial
        · exact hothers j hj
      · simp only [advance, ne_eq, hj, not_false_eq_true, Function.update_of_ne]
        exact hothers j hj

theorem usedOnce_run {claims : Claims} {requests : ℕ → Redemption} {s : Race} (h : Single claims s)
    (hjti : claims.jti ≠ "") (hexp : claims.exp ≠ 0) {events : List (Env × ℕ)}
    (hredis : ∀ event ∈ events, event.1.redisUp = true)
    (hevents : Each (advance p (.jwt claims) requests) (ChecksApart claims.exp) s events) :
    Always (advance p (.jwt claims) requests) UsedOnce s events := by
  induction events generalizing s with
  | nil => exact h.usedOnce
  | cons event events ih =>
      obtain ⟨hup, hredis⟩ := List.forall_mem_cons.mp hredis
      exact ⟨h.usedOnce, ih (single_advance h hjti hexp hup hevents.1) hredis hevents.2⟩

end NeuralSoc.Tokens
