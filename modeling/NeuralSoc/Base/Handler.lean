import Mathlib.Order.Defs.Unbundled

/-!
# Handlers

A handler changes a state and answers or fails; a failure keeps what was changed before it. `Keeps R m`
says that the states before and after `m` are related by `R`, whatever the outcome.
-/

namespace NeuralSoc

def Handler (σ ε α : Type) := σ → Except ε α × σ

namespace Handler

variable {σ ε α β : Type}

protected def bind (m : Handler σ ε α) (f : α → Handler σ ε β) : Handler σ ε β := fun s =>
  match m s with
  | (.ok a, s) => f a s
  | (.error e, s) => (.error e, s)

instance : Monad (Handler σ ε) where
  pure a := fun s => (.ok a, s)
  bind := Handler.bind

def get : Handler σ ε σ := fun s => (.ok s, s)

def modify (f : σ → σ) : Handler σ ε Unit := fun s => (.ok (), f s)

def throw (e : ε) : Handler σ ε α := fun s => (.error e, s)

def ensure (b : Bool) (e : ε) : Handler σ ε Unit := if b then pure () else throw e

def expect (e : ε) : Option α → Handler σ ε α
  | some a => pure a
  | none => throw e

def lift (r : Except ε α) : Handler σ ε α := fun s => (r, s)

/-- What it changed before an exception stays, the exception is dropped. -/
def attempt (m : Handler σ ε Unit) : Handler σ ε Unit := fun s => (.ok (), (m s).2)

/-- What `m` changed before an exception stays, the exception goes to `h`. -/
def recover (m : Handler σ ε α) (h : ε → Handler σ ε α) : Handler σ ε α := fun s =>
  match m s with
  | (.ok a, s) => (.ok a, s)
  | (.error e, s) => h e s

/-- One handler after the other, until one fails. -/
def forEach {ι : Type} (f : ι → Handler σ ε Unit) : List ι → Handler σ ε Unit
  | [] => pure ()
  | i :: is => f i >>= fun _ => forEach f is

/-! ## Running -/

theorem get_bind_run (f : σ → Handler σ ε α) (s : σ) : (get >>= f) s = f s s := rfl

theorem bind_run_ok {m : Handler σ ε α} {s s' : σ} {a : α} (h : m s = (.ok a, s'))
    (f : α → Handler σ ε β) : (m >>= f) s = f a s' := by
  change Handler.bind m f s = _
  simp only [Handler.bind, h]

theorem bind_run_error {m : Handler σ ε α} {s s' : σ} {e : ε} (h : m s = (.error e, s'))
    (f : α → Handler σ ε β) : (m >>= f) s = (.error e, s') := by
  change Handler.bind m f s = _
  simp only [Handler.bind, h]

theorem modify_bind_run (f : σ → σ) (k : Unit → Handler σ ε α) (s : σ) :
    (modify f >>= k) s = k () (f s) := rfl

theorem lift_ok_bind_run (a : α) (f : α → Handler σ ε β) (s : σ) : (lift (.ok a) >>= f) s = f a s := rfl

theorem lift_error_bind_run (e : ε) (f : α → Handler σ ε β) (s : σ) :
    (lift (.error e) >>= f) s = (.error e, s) := rfl

theorem bind_assoc {γ : Type} (m : Handler σ ε α) (f : α → Handler σ ε β) (g : β → Handler σ ε γ) :
    (m >>= f) >>= g = m >>= fun a => f a >>= g := by
  funext s
  cases h : m s with
  | mk r s' =>
      cases r with
      | ok a =>
          rw [bind_run_ok h]
          cases hf : f a s' with
          | mk r' s'' =>
              cases r' with
              | ok b => rw [bind_run_ok ((bind_run_ok h f).trans hf), bind_run_ok hf]
              | error e => rw [bind_run_error ((bind_run_ok h f).trans hf), bind_run_error hf]
      | error e => rw [bind_run_error h, bind_run_error (bind_run_error h f)]

theorem ensure_bind_run (b : Bool) (e : ε) (f : Unit → Handler σ ε α) (s : σ) :
    (ensure b e >>= f) s = if b then f () s else (.error e, s) := by
  cases b <;> rfl

theorem expect_bind_run (o : Option α) (e : ε) (f : α → Handler σ ε β) (s : σ) :
    (expect e o >>= f) s =
      match o with
      | some a => f a s
      | none => (.error e, s) := by
  cases o <;> rfl

/-! ## Runs that succeed -/

theorem bind_eq_ok {m : Handler σ ε α} {f : α → Handler σ ε β} {s s' : σ} {b : β} :
    (m >>= f) s = (.ok b, s') ↔ ∃ a s₁, m s = (.ok a, s₁) ∧ f a s₁ = (.ok b, s') := by
  cases h : m s with
  | mk r s₁ =>
      cases r with
      | ok a =>
          rw [bind_run_ok h]
          constructor
          · exact fun hf => ⟨a, s₁, rfl, hf⟩
          · rintro ⟨_, _, heq, hf⟩
            cases heq
            exact hf
      | error e =>
          rw [bind_run_error h]
          exact iff_of_false nofun (by rintro ⟨_, _, heq, -⟩; cases heq)

theorem get_eq_ok {s s' a : σ} : (get : Handler σ ε σ) s = (.ok a, s') ↔ a = s ∧ s' = s := by
  constructor
  · intro h
    cases h
    exact ⟨rfl, rfl⟩
  · rintro ⟨rfl, rfl⟩
    rfl

theorem ensure_eq_ok {b : Bool} {e : ε} {s s' : σ} {u : Unit} :
    ensure b e s = (.ok u, s') ↔ b = true ∧ s' = s := by
  cases b with
  | true => exact ⟨fun h => by cases h; exact ⟨rfl, rfl⟩, fun h => by cases h.2; rfl⟩
  | false => exact iff_of_false nofun nofun

theorem expect_eq_ok {o : Option α} {e : ε} {s s' : σ} {a : α} :
    expect e o s = (.ok a, s') ↔ o = some a ∧ s' = s := by
  cases o with
  | some x => exact ⟨fun h => by cases h; exact ⟨rfl, rfl⟩, fun h => by cases h.1; cases h.2; rfl⟩
  | none => exact iff_of_false nofun nofun

theorem pure_eq_ok {a b : α} {s s' : σ} :
    (pure a : Handler σ ε α) s = (.ok b, s') ↔ b = a ∧ s' = s := by
  constructor
  · intro h
    cases h
    exact ⟨rfl, rfl⟩
  · rintro ⟨rfl, rfl⟩
    rfl

/-! ## Handlers that always answer -/

def Total (m : Handler σ ε α) : Prop := ∀ s, ∃ a, (m s).1 = .ok a

theorem Total.pure (a : α) : Total (pure a : Handler σ ε α) := fun _ => ⟨a, rfl⟩

theorem Total.modify (f : σ → σ) : Total (modify f : Handler σ ε Unit) := fun _ => ⟨(), rfl⟩

theorem Total.attempt (m : Handler σ ε Unit) : Total (attempt m) := fun _ => ⟨(), rfl⟩

theorem Total.bind {m : Handler σ ε α} {f : α → Handler σ ε β} (hm : Total m) (hf : ∀ a, Total (f a)) :
    Total (m >>= f) := by
  intro s
  obtain ⟨a, ha⟩ := hm s
  rw [bind_run_ok (Prod.ext ha rfl)]
  exact hf a _

/-! ## One after the other -/

section forEach

variable {ι : Type} {f : ι → Handler σ ε Unit}

/-- Handlers whose outcome does not depend on the state all answer or one of them fails. -/
theorem forEach_ok_iff {P : ι → Prop} (hf : ∀ i s, (f i s).1 = .ok () ↔ P i) (is : List ι) (s : σ) :
    (forEach f is s).1 = .ok () ↔ ∀ i ∈ is, P i := by
  induction is generalizing s with
  | nil => exact iff_of_true rfl nofun
  | cons i is ih =>
      rw [List.forall_mem_cons, ← hf i s, forEach]
      cases h : f i s with
      | mk r s' =>
          cases r with
          | ok u =>
              rw [bind_run_ok h, ih]
              exact (and_iff_right rfl).symm
          | error e =>
              rw [bind_run_error h]
              exact iff_of_false nofun fun h => nomatch h.1

/-- A count that every handler that answers keeps. -/
theorem forEach_count {m : σ → Nat} {p : ι → Bool}
    (hf : ∀ i s, (f i s).1 = .ok () → m (f i s).2 = m s + if p i then 1 else 0) {is : List ι} {s : σ}
    (h : (forEach f is s).1 = .ok ()) : m (forEach f is s).2 = m s + is.countP p := by
  induction is generalizing s with
  | nil => rfl
  | cons i is ih =>
      rw [forEach] at h ⊢
      cases hrun : f i s with
      | mk r s' =>
          cases r with
          | ok u =>
              have hi := hf i s (by rw [hrun])
              rw [hrun] at hi
              rw [bind_run_ok hrun] at h ⊢
              rw [ih h, hi, List.countP_cons, Nat.add_assoc, Nat.add_comm (List.countP p is)]
          | error e =>
              rw [bind_run_error hrun] at h
              cases h

end forEach

/-! ## Equal answers in two states -/

theorem bind_answer {m : Handler σ ε α} {f : α → Handler σ ε β} {s s' : σ} {r : Except ε α}
    (h : m s = (r, s)) (h' : m s' = (r, s')) (hf : ∀ a, r = .ok a → (f a s).1 = (f a s').1) :
    ((m >>= f) s).1 = ((m >>= f) s').1 := by
  cases r with
  | ok a =>
      rw [bind_run_ok h, bind_run_ok h']
      exact hf a rfl
  | error e => rw [bind_run_error h, bind_run_error h']

theorem ensure_answer {b : Bool} {e : ε} {f : Unit → Handler σ ε α} {s s' : σ}
    (hf : b = true → (f () s).1 = (f () s').1) : ((ensure b e >>= f) s).1 = ((ensure b e >>= f) s').1 := by
  cases b with
  | true => exact hf rfl
  | false => rfl

/-! ## Relating the states before and after -/

def Keeps (R : σ → σ → Prop) (m : Handler σ ε α) : Prop := ∀ s, R s (m s).2

theorem Keeps.modify {R : σ → σ → Prop} {f : σ → σ} (h : ∀ s, R s (f s)) :
    Keeps R (modify f : Handler σ ε Unit) := h

theorem Keeps.mono {R R' : σ → σ → Prop} {m : Handler σ ε α} (himp : ∀ {a b}, R a b → R' a b)
    (h : Keeps R m) : Keeps R' m := fun s => himp (h s)

theorem Keeps.attempt {R : σ → σ → Prop} {m : Handler σ ε Unit} (h : Keeps R m) : Keeps R (attempt m) := h

theorem related_get {R : σ → σ → Prop} {f : σ → Handler σ ε α} {s : σ} (h : R s (f s s).2) :
    R s ((get >>= f) s).2 := h

section Keeps

variable {R : σ → σ → Prop} [IsPreorder σ R]

theorem Keeps.pure (a : α) : Keeps R (pure a : Handler σ ε α) := fun s => refl s

theorem Keeps.get : Keeps R (get : Handler σ ε σ) := fun s => refl s

theorem Keeps.throw (e : ε) : Keeps R (throw e : Handler σ ε α) := fun s => refl s

theorem Keeps.lift (r : Except ε α) : Keeps R (lift r : Handler σ ε α) := fun s => refl s

theorem Keeps.ensure (b : Bool) (e : ε) : Keeps R (ensure b e : Handler σ ε Unit) := by
  intro s
  cases b <;> exact refl s

theorem Keeps.expect (e : ε) (o : Option α) : Keeps R (expect e o : Handler σ ε α) := by
  intro s
  cases o <;> exact refl s

theorem related_bind {m : Handler σ ε α} {f : α → Handler σ ε β} {s : σ} (hs : R s (m s).2)
    (h : ∀ a s', R s s' → R s' (f a s').2) : R s ((m >>= f) s).2 := by
  cases hrun : m s with
  | mk r s' =>
      rw [hrun] at hs
      cases r with
      | ok a =>
          rw [bind_run_ok hrun]
          exact IsTrans.trans _ _ _ hs (h a s' hs)
      | error e =>
          rw [bind_run_error hrun]
          exact hs

theorem Keeps.bind {m : Handler σ ε α} {f : α → Handler σ ε β} (hm : Keeps R m)
    (hf : ∀ a, Keeps R (f a)) : Keeps R (m >>= f) :=
  fun s => related_bind (hm s) fun a s' _ => hf a s'

/-! The same at one state, where the rest may use what has been read or checked. -/

theorem related_ensure {b : Bool} {e : ε} {f : Unit → Handler σ ε α} {s : σ}
    (h : b = true → R s (f () s).2) : R s ((ensure b e >>= f) s).2 := by
  rw [ensure_bind_run]
  split
  · rename_i hb
    exact h hb
  · exact refl s

theorem related_expect {o : Option α} {e : ε} {f : α → Handler σ ε β} {s : σ}
    (h : ∀ a, o = some a → R s (f a s).2) : R s ((expect e o >>= f) s).2 := by
  rw [expect_bind_run]
  cases o with
  | some a => exact h a rfl
  | none => exact refl s

theorem related_modify {f : σ → σ} {k : Unit → Handler σ ε α} {s : σ} (hf : R s (f s))
    (h : R (f s) (k () (f s)).2) : R s ((modify f >>= k) s).2 := IsTrans.trans _ _ _ hf h

theorem related_read {m : Handler σ ε α} {f : α → Handler σ ε β} {s : σ} (hread : ∃ r, m s = (r, s))
    (h : ∀ a, m s = (.ok a, s) → R s (f a s).2) : R s ((m >>= f) s).2 := by
  obtain ⟨r, hr⟩ := hread
  cases r with
  | ok a =>
      rw [bind_run_ok hr]
      exact h a hr
  | error e =>
      rw [bind_run_error hr]
      exact refl s

end Keeps

end Handler

end NeuralSoc
