import Mathlib.Tactic.Linarith
import NeuralSoc.Dns.Lemmas.Domains

/-!
# What the set of domains holds at an instant

Every query renews the time to live, so the set goes back to the last pause that was longer than the window,
however far back that is.
-/

namespace NeuralSoc.Dns

variable {rt : Runtime} {tracker : DnsBehaviorTracker} {now t w : ℚ} {q : Query}

/-! ## One call -/

theorem recordDomain_read (choice : Choice) (domain : String) (key : Expiring (Finset String)) :
    (recordDomain tracker now choice domain key).read t =
      if 0 < (tracker.windowSeconds : ℚ) ∧ t ≤ now + tracker.windowSeconds then
        track choice domain (key.read now)
      else ∅ := by
  have hadd : (key.modify now (insert domain)).read now = insert domain (key.read now) :=
    Expiring.read_modify now _ key
  have hne : (key.modify now (insert domain)).read now ≠ default := by
    rw [hadd]
    exact Finset.insert_ne_empty domain _
  have hread : ∀ t, ((key.modify now (insert domain)).expire now tracker.windowSeconds).read t =
      if 0 < (tracker.windowSeconds : ℚ) ∧ t ≤ now + tracker.windowSeconds then insert domain (key.read now)
      else default := fun t => by
    rw [Expiring.read_expire hne, hadd]
  unfold recordDomain track
  dsimp only
  rw [hread now]
  by_cases hwindow : 0 < (tracker.windowSeconds : ℚ)
  · have hnow : 0 < (tracker.windowSeconds : ℚ) ∧ now ≤ now + tracker.windowSeconds := ⟨hwindow, by linarith⟩
    rw [if_pos hnow]
    split
    · exact (Expiring.read_modify_expire hne hwindow _ t).trans (by rw [hadd]; rfl)
    · exact hread t
  · -- a window that is not positive keeps nothing
    have hgone : ∀ t, ¬ (0 < (tracker.windowSeconds : ℚ) ∧ t ≤ now + tracker.windowSeconds) := fun _ h => hwindow h.1
    rw [if_neg (hgone now), if_neg (fun h => nomatch h), hread t, if_neg (hgone t), if_neg (hgone t)]
    rfl

/-! ## The queries of one host -/

def fromHost (rt : Runtime) (ip : String) (q : Query) : Bool :=
  validateSourceIp rt q.sourceIp = some ip && q.domain ≠ ""

def hostQueries (rt : Runtime) (sourceIp : String) (queries : List Query) : List Query :=
  match validateSourceIp rt sourceIp with
  | none => []
  | some ip => if ip = "" then [] else queries.filter (fromHost rt ip)

def recordDomains (tracker : DnsBehaviorTracker) (key : Expiring (Finset String)) (queries : List Query) :
    Expiring (Finset String) :=
  queries.foldl (fun key q => recordDomain tracker q.now q.choice q.domain key) key

theorem domains_serveQuery {ip : String} (hip : ip ≠ "") (redis : Redis) (q : Query) :
    (serveQuery rt tracker redis q ip).domains =
      if fromHost rt ip q then recordDomain tracker q.now q.choice q.domain (redis ip).domains
      else (redis ip).domains := by
  unfold serveQuery recordQuery fromHost
  cases hvalid : validateSourceIp rt q.sourceIp with
  | none => rfl
  | some safeIp =>
      by_cases hsame : safeIp = ip
      · subst hsame
        by_cases hdomain : q.domain = ""
        · simp [hdomain]
        · simp [hip, hdomain]
      · by_cases hskip : (safeIp = "" || q.domain = "") = true
        · simp [hskip, hsame]
        · simp [hskip, hsame, Function.update_of_ne (Ne.symm hsame)]

theorem domains_run {ip : String} (hip : ip ≠ "") (queries : List Query) (redis : Redis) :
    (queries.foldl (serveQuery rt tracker) redis ip).domains =
      recordDomains tracker (redis ip).domains (queries.filter (fromHost rt ip)) := by
  induction queries generalizing redis with
  | nil => rfl
  | cons q queries ih =>
      rw [List.foldl_cons, ih, domains_serveQuery hip]
      cases hq : fromHost rt ip q with
      | true => rw [List.filter_cons_of_pos hq]; rfl
      | false => rw [List.filter_cons_of_neg (by simp [hq])]; rfl

/-! ## Back to the last pause -/

/-- The latest of the queries, up to a pause longer than the window; they are listed latest first. -/
def unbroken (w : ℚ) : ℚ → List Query → List Query
  | _, [] => []
  | t, q :: queries => if 0 < w ∧ t ≤ q.now + w then q :: unbroken w q.now queries else []

def domainsOf (queries : List Query) : Finset String := (queries.map Query.domain).toFinset

/-- Instants in order, none of them after `t`. -/
def Timed (t : ℚ) (times : List ℚ) : Prop := (times ++ [t]).Pairwise (· ≤ ·)

theorem Timed.concat {times : List ℚ} {u : ℚ} (h : Timed t (times ++ [u])) : Timed u times ∧ u ≤ t := by
  obtain ⟨hfirst, -, hlast⟩ := List.pairwise_append.mp h
  exact ⟨hfirst, hlast u (List.mem_append_right _ (List.mem_singleton_self u)) t (List.mem_singleton_self t)⟩

theorem recordDomains_capped (queries : List Query) (t : ℚ) (htimes : Timed t (queries.map Query.now)) :
    Capped (domainsOf (unbroken tracker.windowSeconds t queries.reverse))
      ((recordDomains tracker .absent queries).read t) := by
  induction queries using List.reverseRecOn generalizing t with
  | nil =>
      rw [recordDomains, List.foldl_nil, Expiring.read_absent]
      exact capped_empty
  | append_singleton queries q ih =>
      rw [List.map_append, List.map_singleton] at htimes
      obtain ⟨hbefore, hle⟩ := htimes.concat
      have hrun : recordDomains tracker .absent (queries ++ [q]) =
          recordDomain tracker q.now q.choice q.domain (recordDomains tracker .absent queries) := by
        rw [recordDomains, List.foldl_append]
        rfl
      rw [hrun, recordDomain_read q.choice q.domain, List.reverse_append, List.reverse_singleton,
        List.singleton_append, unbroken]
      split
      · have hcapped := (ih q.now hbefore).tracked q.choice q.domain
        rwa [domainsOf, List.map_cons, List.toFinset_cons]
      · exact capped_empty

end NeuralSoc.Dns
