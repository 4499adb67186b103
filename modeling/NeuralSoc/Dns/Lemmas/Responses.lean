import Mathlib.Tactic.Linarith
import NeuralSoc.Dns.Tracker

/-!
# The two counters of a host

The counter of failed responses never outlives the one of all responses: a response that renews the former
renews the latter at the same instant.
-/

namespace NeuralSoc.Dns

variable {rt : Runtime} {tracker : DnsBehaviorTracker} {now t : ℚ} {keys : HostKeys}

theorem count_read (key : Expiring ℕ) (now t : ℚ) : (count tracker now key).read t =
    if 0 < (tracker.windowSeconds : ℚ) ∧ t ≤ now + tracker.windowSeconds then key.read now + 1 else 0 := by
  have hincr : (key.modify now (· + 1)).read now = key.read now + 1 := Expiring.read_modify now _ key
  rw [count, Expiring.read_expire (by rw [hincr]; exact Nat.succ_ne_zero _), hincr]
  rfl

theorem read_later_le (key : Expiring ℕ) (h : now ≤ t) : key.read t ≤ key.read now := by
  rcases Expiring.read_later h key with hsame | hgone
  · exact hsame.le
  · exact hgone.le.trans (Nat.zero_le _)

/-- From `now` on the failed responses are at most the responses, and they are forgotten within a window. -/
structure Balanced (tracker : DnsBehaviorTracker) (now : ℚ) (keys : HostKeys) : Prop where
  le : ∀ t, now ≤ t → keys.nxdomain.read t ≤ keys.responses.read t
  forgotten : ∀ t, now ≤ t → ¬ (0 < (tracker.windowSeconds : ℚ) ∧ t ≤ now + tracker.windowSeconds) →
    keys.nxdomain.read t = 0

theorem balanced_absent (tracker : DnsBehaviorTracker) (now : ℚ) : Balanced tracker now .absent where
  le _ _ := le_rfl
  forgotten t _ _ := Expiring.read_absent t

theorem Balanced.later {now' : ℚ} (h : Balanced tracker now keys) (hle : now ≤ now') :
    Balanced tracker now' keys where
  le t ht := h.le t (hle.trans ht)
  forgotten t ht hwindow := h.forgotten t (hle.trans ht) fun hlive => hwindow ⟨hlive.1, by linarith⟩

theorem Balanced.recordAnswer (h : Balanced tracker now keys) (isNxdomain : Bool) :
    Balanced tracker now (recordAnswer tracker now isNxdomain keys) where
  le t ht := by
    have hle := (read_later_le keys.nxdomain ht).trans (h.le now le_rfl)
    cases isNxdomain with
    | true =>
        change (count tracker now keys.nxdomain).read t ≤ (count tracker now keys.responses).read t
        rw [count_read, count_read]
        split
        · exact Nat.succ_le_succ (h.le now le_rfl)
        · exact le_rfl
    | false =>
        change keys.nxdomain.read t ≤ (count tracker now keys.responses).read t
        rw [count_read]
        split
        · exact hle.trans (Nat.le_succ _)
        · next hwindow => exact (h.forgotten t ht hwindow).le
  forgotten t ht hwindow := by
    cases isNxdomain with
    | true =>
        change (count tracker now keys.nxdomain).read t = 0
        rw [count_read, if_neg hwindow]
    | false => exact h.forgotten t ht hwindow

theorem Balanced.of_read {keys' : HostKeys} (h : Balanced tracker now keys)
    (hresponses : ∀ t, now ≤ t → keys'.responses.read t = keys.responses.read t)
    (hnxdomain : ∀ t, now ≤ t → keys'.nxdomain.read t = keys.nxdomain.read t) :
    Balanced tracker now keys' where
  le t ht := by
    rw [hresponses t ht, hnxdomain t ht]
    exact h.le t ht
  forgotten t ht hwindow := by
    rw [hnxdomain t ht]
    exact h.forgotten t ht hwindow

theorem balanced_update {redis : Redis} {ip : String} (h : ∀ ip, Balanced tracker now (redis ip))
    (hkeys : Balanced tracker now keys) : ∀ ip', Balanced tracker now (Function.update redis ip keys ip') := by
  intro ip'
  by_cases hip : ip' = ip
  · subst hip
    rwa [Function.update_self]
  · rw [Function.update_of_ne hip]
    exact h ip'

theorem balanced_recordResponse {redis : Redis} (h : ∀ ip, Balanced tracker now (redis ip))
    (sourceIp : String) (isNxdomain : Bool) (ip : String) :
    Balanced tracker now (recordResponse rt tracker now sourceIp isNxdomain redis ip) := by
  unfold recordResponse
  cases validateSourceIp rt sourceIp with
  | none => exact h ip
  | some safeIp =>
      dsimp only
      split
      · exact h ip
      · exact balanced_update h ((h safeIp).recordAnswer isNxdomain) ip

theorem balanced_serveEvent {redis : Redis} (e : ℚ × Event)
    (h : ∀ ip, Balanced tracker e.1 (redis ip)) (ip : String) :
    Balanced tracker e.1 (serveEvent rt tracker redis e ip) := by
  obtain ⟨now, event⟩ := e
  cases event with
  | response sourceIp isNxdomain => exact balanced_recordResponse h sourceIp isNxdomain ip
  | dropResponses safeIp =>
      have hkeys : Balanced tracker now
          { redis safeIp with responses := (redis safeIp).responses.purge now } :=
        (h safeIp).of_read (fun _ ht => Expiring.read_purge_later ht _) fun _ _ => rfl
      exact balanced_update h hkeys ip
  | dropNxdomain safeIp =>
      have hkeys : Balanced tracker now
          { redis safeIp with nxdomain := (redis safeIp).nxdomain.purge now } :=
        (h safeIp).of_read (fun _ _ => rfl) fun _ ht => Expiring.read_purge_later ht _
      exact balanced_update h hkeys ip

theorem balanced_run {redis : Redis} (events : List (ℚ × Event))
    (htimes : (now :: events.map Prod.fst ++ [t]).Pairwise (· ≤ ·))
    (h : ∀ ip, Balanced tracker now (redis ip)) (ip : String) :
    Balanced tracker t (events.foldl (serveEvent rt tracker) redis ip) := by
  induction events generalizing now redis with
  | nil => exact (h ip).later (by simpa using htimes)
  | cons e events ih =>
      obtain ⟨hfirst, hrest⟩ := List.pairwise_cons.mp htimes
      have hle : now ≤ e.1 := hfirst e.1 (List.mem_cons_self ..)
      exact ih hrest (balanced_serveEvent e fun ip => (h ip).later hle)

end NeuralSoc.Dns
