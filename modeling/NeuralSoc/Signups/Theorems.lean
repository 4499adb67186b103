import NeuralSoc.Signups.Lemmas.Stages
import NeuralSoc.Api.Theorems

/-!
# Tenants and their first administrators
-/

namespace NeuralSoc.Signups

open Api

/-- Signups that all commit their users once they have committed their tenants are atomic; when one of them
does not, its tenant is left without an administrator whatever follows. -/
theorem signups_atomic_iff (p : Platform) (bodies : ℕ → Body) (w : World) (events : List Event)
    (hw : Administered w)
    (hreferences : ∀ id u, w.users.get? id = some u → (w.tenants.get? u.tenantId).isSome = true) :
    (Each (advance p bodies) CommitsUser (.start w) events →
        Always (advance p bodies) Atomic (.start w) events) ∧
      (¬ Each (advance p bodies) CommitsUser (.start w) events →
        ¬ Administered (events.foldl (advance p bodies) (.start w)).world) := by
  constructor
  · intro hcommits
    have hbacked := Each.always (P := Backed) (fun _ _ => backed_advance) (backed_start hw) hcommits
    exact hbacked.mono fun _ => Backed.atomic
  · intro hnot
    simp only [each_iff_split, not_forall] at hnot
    obtain ⟨pre, event, post, rfl, hfails⟩ := hnot
    have hordered : Ordered (pre.foldl (advance p bodies) (.start w)) :=
      ordered_run (ordered_start hreferences) pre
    have horphan : ∃ tenantId,
        Orphan tenantId (advance p bodies (pre.foldl (advance p bodies) (.start w)) event) :=
      orphan_of_not_commitsUser hordered hfails
    obtain ⟨tenantId, horphan⟩ := horphan
    rw [List.foldl_append, List.foldl_cons]
    exact (orphan_run horphan post).not_administered

def twoBodies (i : ℕ) : Body :=
  if i = 0 then ⟨"Acme", "al@b.io", "12345678"⟩ else ⟨"Globex", "al@b.io", "abcdefgh"⟩

def stageOf (i : ℕ) : Event := ⟨plainEnvAt 0 "jti-1", true, i⟩

def alone : List Event := List.replicate 5 (stageOf 0)

/-- Both have asked for the e-mail before either commits. -/
def racing : List Event := (List.replicate 5 [stageOf 0, stageOf 1]).flatten

theorem alone_atomic : Always (advance asciiPlatform twoBodies) Atomic (.start emptyWorld) alone := by
  refine (signups_atomic_iff asciiPlatform twoBodies emptyWorld alone nofun nofun).1 ?_
  refine ⟨?_, ?_, ?_, ?_, ?_, trivial⟩ <;> exact commitsUser_iff.mpr (by decide +kernel)

/-- The second commit of the second signup fails on the e-mail, and its tenant stays. -/
theorem racing_leaves_tenant :
    ¬ Always (advance asciiPlatform twoBodies) Atomic (.start emptyWorld) racing := by
  intro h
  have hsettled : ∀ i, ((racing.foldl (advance asciiPlatform twoBodies) (.start emptyWorld)).phase i).Settled := by
    intro i
    by_cases h0 : i = 0
    · subst h0
      decide +kernel
    by_cases h1 : i = 1
    · subst h1
      decide +kernel
    · rw [phase_run]
      · trivial
      · intro event hevent
        simp only [racing, List.mem_flatten, List.mem_replicate] at hevent
        obtain ⟨pair, ⟨-, rfl⟩, hevent⟩ := hevent
        simp only [List.mem_cons, List.not_mem_nil, or_false] at hevent
        rcases hevent with rfl | rfl
        · exact Ne.symm h0
        · exact Ne.symm h1
  have hglobex : (racing.foldl (advance asciiPlatform twoBodies) (.start emptyWorld)).world.tenants.get? 2 =
      some ⟨"Globex", "globex"⟩ := by decide +kernel
  have hnobody : ∀ e ∈ (racing.foldl (advance asciiPlatform twoBodies)
      (.start emptyWorld)).world.users.entries, e.2.tenantId ≠ 2 := by decide +kernel
  obtain ⟨id, u, hu, htenant, -⟩ := h.last hsettled 2 _ hglobex
  exact hnobody _ (Dict.get?_eq_some.mp hu) htenant

end NeuralSoc.Signups
