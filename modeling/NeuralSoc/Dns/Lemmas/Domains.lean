import NeuralSoc.Base.Runs
import NeuralSoc.Dns.Workers

/-!
# How many domains are tracked

`Capped S s`: the set `s` holds domains of `S`, all of them while there is room. A call that is not interleaved
keeps this, whichever member SPOP takes.
-/

namespace NeuralSoc.Dns

variable {choice : Choice} {domain : String} {s S : Finset String}

theorem card_spop (choice : Choice) (h : s.Nonempty) : (spop choice s).card = s.card - 1 :=
  Finset.card_erase_of_mem (choice.pick_mem s h)

theorem card_spop_le (choice : Choice) (s : Finset String) : (spop choice s).card ≤ s.card - 1 := by
  obtain rfl | h := s.eq_empty_or_nonempty
  · exact (Finset.card_le_card (Finset.erase_subset _ _)).trans (by simp)
  · exact (card_spop choice h).le

theorem spop_subset (choice : Choice) (s : Finset String) : spop choice s ⊆ s := Finset.erase_subset _ _

/-! ## One call -/

structure Capped (S s : Finset String) : Prop where
  subset : s ⊆ S
  card : s.card = min S.card maxTrackedDomains

theorem capped_empty : Capped ∅ ∅ := ⟨subset_rfl, rfl⟩

/-- After SADD the set may hold one domain too many. -/
structure Added (S s : Finset String) : Prop where
  subset : s ⊆ S
  lower : min S.card maxTrackedDomains ≤ s.card
  upper : s.card ≤ maxTrackedDomains + 1

theorem Capped.added (h : Capped S s) (domain : String) : Added (insert domain S) (insert domain s) := by
  have hle := Finset.card_insert_le domain s
  refine ⟨Finset.insert_subset_insert domain h.subset, ?_, by rw [h.card] at hle; omega⟩
  obtain hroom | hfull := le_total S.card maxTrackedDomains
  · -- nothing has been left out so far
    have hall : s = S := Finset.eq_of_subset_of_card_le h.subset (by rw [h.card, min_eq_left hroom])
    rw [hall]
    exact min_le_left _ _
  · have hs : s.card = maxTrackedDomains := h.card.trans (min_eq_right hfull)
    exact (min_le_right _ _).trans (hs ▸ Finset.card_le_card (Finset.subset_insert domain s))

theorem Added.capped (h : Added S s) (hroom : s.card ≤ maxTrackedDomains) : Capped S s where
  subset := h.subset
  card := by
    have hsub := Finset.card_le_card h.subset
    have := h.lower
    omega

theorem Added.popped (h : Added S s) (hfull : maxTrackedDomains < s.card) (choice : Choice) :
    Capped S (spop choice s) where
  subset := (spop_subset choice s).trans h.subset
  card := by
    have hsub := Finset.card_le_card h.subset
    have hpop := card_spop choice (Finset.card_pos.mp (Nat.zero_lt_of_lt hfull))
    have := h.upper
    omega

def track (choice : Choice) (domain : String) (s : Finset String) : Finset String :=
  if (insert domain s).card > maxTrackedDomains then spop choice (insert domain s) else insert domain s

theorem Capped.tracked (h : Capped S s) (choice : Choice) (domain : String) :
    Capped (insert domain S) (track choice domain s) := by
  unfold track
  split
  · next hfull => exact (h.added domain).popped hfull choice
  · next hroom => exact (h.added domain).capped (not_lt.mp hroom)

/-! ## Interleaved calls -/

variable {n : ℕ} {w : Fin n} {t : Workers n}

theorem mem_busy {w : Fin n} : w ∈ t.busy ↔ (t.stage w).isSome := by simp [Workers.busy]

theorem busy_setStage_some (w : Fin n) (stage : Stage) (t : Workers n) :
    (t.setStage w (some stage)).busy = insert w t.busy := by
  ext v
  rw [Finset.mem_insert, mem_busy, mem_busy, Workers.setStage]
  by_cases hv : v = w
  · subst hv
    simp
  · simp [hv]

theorem busy_setStage_none (w : Fin n) (t : Workers n) : (t.setStage w none).busy = t.busy.erase w := by
  ext v
  rw [Finset.mem_erase, mem_busy, mem_busy, Workers.setStage]
  by_cases hv : v = w
  · subst hv
    simp
  · simp [hv]

/-- The set exceeds the limit by no more than the workers that have still to look at its size. -/
def Bounded (t : Workers n) : Prop := t.domains.card ≤ maxTrackedDomains + t.busy.card

theorem bounded_record (h : Bounded t) (w : Fin n) (domain : String) : Bounded (recordStep w domain t) := by
  unfold recordStep
  cases hw : t.stage w with
  | some stage => exact h
  | none =>
      dsimp only
      split
      · exact h
      · have hfresh : w ∉ t.busy := by simp [mem_busy, hw]
        have hbusy : (t.setStage w (some .expire)).busy.card = t.busy.card + 1 := by
          rw [busy_setStage_some, Finset.card_insert_of_notMem hfresh]
        have hle := Finset.card_insert_le domain t.domains
        change (insert domain t.domains).card ≤ maxTrackedDomains + (t.setStage w (some .expire)).busy.card
        have h : t.domains.card ≤ maxTrackedDomains + t.busy.card := h
        omega

theorem bounded_advance (h : Bounded t) (w : Fin n) (choice : Choice) :
    Bounded (advanceStep w choice t) := by
  have h : t.domains.card ≤ maxTrackedDomains + t.busy.card := h
  have hstay : ∀ stage, w ∈ t.busy → (t.setStage w (some stage)).busy = t.busy := fun stage hw => by
    rw [busy_setStage_some, Finset.insert_eq_of_mem hw]
  have hleave : w ∈ t.busy → (t.setStage w none).busy.card = t.busy.card - 1 := fun hw => by
    rw [busy_setStage_none, Finset.card_erase_of_mem hw]
  unfold advanceStep
  cases hw : t.stage w with
  | none => exact h
  | some stage =>
      have hmem : w ∈ t.busy := by simp [mem_busy, hw]
      have hpos := Finset.card_pos.mpr ⟨w, hmem⟩
      cases stage with
      | expire =>
          change t.domains.card ≤ maxTrackedDomains + (t.setStage w (some .scard)).busy.card
          rw [hstay .scard hmem]
          exact h
      | scard =>
          dsimp only
          split
          · change t.domains.card ≤ maxTrackedDomains + (t.setStage w (some .spop)).busy.card
            rw [hstay .spop hmem]
            exact h
          · next hroom =>
              change t.domains.card ≤ maxTrackedDomains + (t.setStage w none).busy.card
              omega
      | spop =>
          have hpop := card_spop_le choice t.domains
          have hbusy := hleave hmem
          change (spop choice t.domains).card ≤ maxTrackedDomains + (t.setStage w none).busy.card
          omega

theorem bounded_step (t : Workers n) (h : Bounded t) (e : WorkerEvent n) : Bounded (workerStep t e) := by
  cases e with
  | record w domain => exact bounded_record h w domain
  | advance w choice => exact bounded_advance h w choice
  | expiry => exact Nat.zero_le _

/-! ## Calls one after the other -/

/-- What holds while one worker at most is busy, by the command it sends next. -/
def Sequential (t : Workers n) : Prop :=
  (∀ w, t.stage w = none) ∧ Capped t.since t.domains ∨
    ∃ w stage, t.stage = Function.update (fun _ => none) w (some stage) ∧ Added t.since t.domains ∧
      (stage = .spop → maxTrackedDomains < t.domains.card ∨ t.since = ∅)

theorem sequential_rest (hstage : ∀ w, t.stage w = none) (h : Capped t.since t.domains) : Sequential t :=
  Or.inl ⟨hstage, h⟩

theorem sequential_record (h : Sequential t) (halone : t.busy = ∅) (w : Fin n) (domain : String) :
    Sequential (recordStep w domain t) := by
  have hidle : ∀ w, t.stage w = none := fun w => by
    have hw : w ∉ t.busy := halone ▸ Finset.notMem_empty w
    rwa [mem_busy, Option.not_isSome_iff_eq_none] at hw
  rcases id h with ⟨-, hcapped⟩ | ⟨v, stage, hstage, -⟩
  · unfold recordStep
    rw [hidle w]
    dsimp only
    split
    · exact h
    · refine Or.inr ⟨w, .expire, ?_, hcapped.added domain, nofun⟩
      rw [← funext hidle]
      rfl
  · have hv := hidle v
    rw [hstage, Function.update_self] at hv
    cases hv

theorem sequential_advance (h : Sequential t) (w : Fin n) (choice : Choice) :
    Sequential (advanceStep w choice t) := by
  rcases id h with ⟨hidle, -⟩ | ⟨v, stage, hstage, hadded, hspop⟩
  · unfold advanceStep
    rw [hidle w]
    exact h
  · by_cases hv : w = v
    · subst hv
      have hset : ∀ next, Function.update t.stage w next = Function.update (fun _ => none) w next := by
        intro next
        rw [hstage, Function.update_idem]
      have hidle : ∀ v, Function.update t.stage w none v = none := by
        intro v
        rw [hset, Function.update_eq_self]
      unfold advanceStep
      rw [hstage, Function.update_self]
      cases stage with
      | expire => exact Or.inr ⟨w, .scard, hset _, hadded, nofun⟩
      | scard =>
          dsimp only
          split
          · next hfull => exact Or.inr ⟨w, .spop, hset _, hadded, fun _ => Or.inl hfull⟩
          · next hroom => exact sequential_rest hidle (hadded.capped (not_lt.mp hroom))
      | spop =>
          refine sequential_rest hidle ?_
          rcases hspop rfl with hfull | hsince
          · exact hadded.popped hfull choice
          · -- the key has expired since SCARD
            have hempty : t.domains = ∅ := Finset.subset_empty.mp (hsince ▸ hadded.subset)
            change Capped t.since (spop choice t.domains)
            rw [hsince, hempty]
            exact capped_empty
    · have hw : t.stage w = none := by rw [hstage, Function.update_of_ne hv]
      unfold advanceStep
      rw [hw]
      exact h

theorem sequential_step (t : Workers n) (h : Sequential t) (e : WorkerEvent n) (halone : Alone t e) :
    Sequential (workerStep t e) := by
  cases e with
  | record w domain => exact sequential_record h halone w domain
  | advance w choice => exact sequential_advance h w choice
  | expiry =>
      rcases h with ⟨hidle, -⟩ | ⟨v, stage, hstage, -, -⟩
      · exact Or.inl ⟨hidle, capped_empty⟩
      · exact Or.inr ⟨v, stage, hstage, ⟨subset_rfl, Nat.zero_le _, Nat.zero_le _⟩, fun _ => Or.inr rfl⟩

theorem Sequential.card (h : Sequential t) (hidle : t.busy = ∅) :
    t.domains.card = min t.since.card maxTrackedDomains := by
  rcases h with ⟨-, hcapped⟩ | ⟨v, stage, hstage, -, -⟩
  · exact hcapped.card
  · have hv : v ∈ t.busy := by rw [mem_busy, hstage, Function.update_self]; rfl
    rw [hidle] at hv
    cases hv

end NeuralSoc.Dns
