import Mathlib.Data.List.Induction
import Mathlib.Data.List.TakeWhile
import NeuralSoc.Dga.Slices

/-! # Labels of a domain, and the variants they give. -/

namespace NeuralSoc.Dga

open Shell

/-- `label` stands in `pre ++ label ++ post` between dots or ends. -/
structure IsLabel (pre label post : Text) : Prop where
  nonempty : label ≠ []
  no_dot : dot ∉ label
  before : ∀ c ∈ pre.getLast?, c = dot
  after : ∀ c ∈ post.head?, c = dot

/-- Where a label begins within the last two labels joined by a dot, from what stands around it. -/
def lastTwoOffset (pre post : Text) : Option ℕ :=
  match labels post, (labels pre).getLast? with
  | [], some previous => some (previous.length + 1)
  | [_], _ => some 0
  | _, _ => none

theorem labels_append_dot (xs ys : Text) : labels (xs ++ dot :: ys) = labels xs ++ labels ys := by
  rw [labels, List.splitOn_append_cons_self, List.filter_append]
  rfl

theorem labels_nil : labels [] = [] := rfl

theorem labels_label {label : Text} (hne : label ≠ []) (hdot : dot ∉ label) : labels label = [label] := by
  rw [labels, List.splitOn_eq_singleton hdot, List.filter_cons_of_pos (by simpa using hne), List.filter_nil]

variable {pre label post : Text}

/-- Nothing stands before the label, or a dot ends it. -/
theorem IsLabel.labels_before (h : IsLabel pre label post) (rest : Text) :
    labels (pre ++ rest) = labels pre ++ labels rest := by
  rcases List.eq_nil_or_concat pre with rfl | ⟨front, c, rfl⟩
  · rfl
  · obtain rfl : c = dot := h.before c (by simp)
    have hfront : labels (front ++ [dot]) = labels front := by
      rw [labels_append_dot, labels_nil, List.append_nil]
    rw [List.concat_eq_append, hfront, List.append_assoc, List.singleton_append, labels_append_dot]

theorem IsLabel.labels_eq (h : IsLabel pre label post) :
    labels (pre ++ label ++ post) = labels pre ++ label :: labels post := by
  have hrest : labels (label ++ post) = label :: labels post := by
    cases hpost : post with
    | nil => rw [List.append_nil, labels_label h.nonempty h.no_dot, labels_nil]
    | cons c rest =>
        obtain rfl : c = dot := h.after c (by rw [hpost]; rfl)
        have htail : labels (dot :: rest) = labels rest := labels_append_dot [] rest
        rw [labels_append_dot, labels_label h.nonempty h.no_dot, htail, List.singleton_append]
  rw [List.append_assoc, h.labels_before, hrest]

theorem exists_lastTwo {parts : List Text} (h : 2 ≤ parts.length) : ∃ front a b, parts = front ++ [a, b] := by
  obtain ⟨front, b, rfl⟩ := (List.eq_nil_or_concat' parts).resolve_left (List.ne_nil_of_length_pos (by omega))
  rw [List.length_append, List.length_singleton] at h
  obtain ⟨front, a, rfl⟩ := (List.eq_nil_or_concat' front).resolve_left (List.ne_nil_of_length_pos (by omega))
  exact ⟨front, a, b, by simp⟩

theorem lastTwo_append (parts : List Text) (a b : Text) : lastTwo (parts ++ [a, b]) = a ++ dot :: b := by
  have hdrop : (parts ++ [a, b]).drop ((parts ++ [a, b]).length - 2) = [a, b] := by
    simp
  rw [lastTwo, hdrop]
  simp [List.intercalate]

/-- A label with an offset is one of the last two, and the offset is its place among them. -/
theorem IsLabel.lastTwo_eq (h : IsLabel pre label post) {offset : ℕ}
    (hoffset : lastTwoOffset pre post = some offset) :
    2 ≤ (labels (pre ++ label ++ post)).length ∧
      ∃ before after, lastTwo (labels (pre ++ label ++ post)) = before ++ label ++ after ∧
        before.length = offset := by
  rw [h.labels_eq]
  unfold lastTwoOffset at hoffset
  split at hoffset
  · next previous hpost hpre =>
      cases hoffset
      obtain ⟨front, hfront⟩ := List.getLast?_eq_some_iff.mp hpre
      refine ⟨by simp [hfront, hpost], previous ++ [dot], [], ?_, by simp⟩
      rw [hfront, hpost, List.append_assoc, List.singleton_append, lastTwo_append]
      simp
  · next next hpost =>
      cases hoffset
      refine ⟨by simp [hpost], [], dot :: next, ?_, rfl⟩
      rw [hpost, lastTwo_append, List.nil_append]
  · cases hoffset

/-! ## Different texts -/

def candidates (sanitized clean : Text) : List Text :=
  [sanitized] ++ (if clean = [] then [] else [clean]) ++
    if 2 ≤ (labels sanitized).length then
      lastTwo (labels sanitized) :: (labels sanitized).filter (4 ≤ ·.length)
    else []

theorem eraseDups_singleton (d : Text) : [d].eraseDups = [d] := rfl

theorem addNew_eraseDups (ds : List Text) (d : Text) : addNew ds.eraseDups d = (ds ++ [d]).eraseDups := by
  rw [List.eraseDups_append, addNew]
  by_cases h : d ∈ ds
  · rw [if_pos (List.mem_eraseDups.mpr h)]
    simp [List.removeAll, h]
  · rw [if_neg fun hd => h (List.mem_eraseDups.mp hd)]
    simp [List.removeAll, h, eraseDups_singleton]

theorem length_eraseDups_le (ds : List Text) : ds.eraseDups.length ≤ ds.length := by
  induction ds using List.reverseRecOn with
  | nil => exact le_rfl
  | append_singleton ds d ih =>
      rw [← addNew_eraseDups, addNew, List.length_append]
      split
      · exact ih.trans (Nat.le_add_right _ _)
      · rw [List.length_append]
        exact Nat.add_le_add_right ih _

theorem foldl_addNew (keep : Text → Bool) (parts ds : List Text) :
    parts.foldl (fun ds part => if keep part then addNew ds part else ds) ds.eraseDups =
      (ds ++ parts.filter keep).eraseDups := by
  induction parts generalizing ds with
  | nil => simp
  | cons part parts ih =>
      rw [List.foldl_cons, List.filter_cons]
      by_cases h : keep part
      · rw [if_pos h, if_pos h, addNew_eraseDups, ih, List.append_assoc, List.singleton_append]
      · rw [if_neg h, if_neg h, ih]

/-- Equal forms of a domain before and after IDNA give the same text twice. -/
theorem domainsToCheck_eq (ascii clean : Text) :
    domainsToCheck ascii clean =
      (candidates (sanitizeDomainChars ascii) (sanitizeDomainChars clean)).eraseDups := by
  have hforms : (if ascii ≠ clean ∧ sanitizeDomainChars clean ≠ [] then
        addNew [sanitizeDomainChars ascii] (sanitizeDomainChars clean)
      else [sanitizeDomainChars ascii]) =
      ([sanitizeDomainChars ascii] ++
        if sanitizeDomainChars clean = [] then [] else [sanitizeDomainChars clean]).eraseDups := by
    by_cases hempty : sanitizeDomainChars clean = []
    · simp [hempty, eraseDups_singleton]
    · rw [if_neg hempty, ← addNew_eraseDups, eraseDups_singleton]
      by_cases hsame : ascii = clean
      · rw [if_neg fun hne => hne.1 hsame, addNew, if_pos (by simp [hsame])]
      · rw [if_pos ⟨hsame, hempty⟩]
  unfold domainsToCheck candidates
  dsimp only
  rw [hforms]
  split
  · have hparts := foldl_addNew (4 ≤ ·.length) (labels (sanitizeDomainChars ascii))
    simp only [decide_eq_true_eq] at hparts
    rw [addNew_eraseDups, hparts, List.append_assoc]
    rfl
  · rw [List.append_nil]

theorem lastTwo_ne_nil {parts : List Text} (h : 2 ≤ parts.length) : lastTwo parts ≠ [] := by
  obtain ⟨front, a, b, rfl⟩ := exists_lastTwo h
  rw [lastTwo_append]
  exact fun hnil => by simpa using congrArg List.length hnil

theorem ne_nil_of_mem_domainsToCheck {ascii clean d : Text} (h : sanitizeDomainChars ascii ≠ [])
    (hd : d ∈ domainsToCheck ascii clean) : d ≠ [] := by
  rw [domainsToCheck_eq, List.mem_eraseDups, candidates, List.mem_append, List.mem_append,
    List.mem_singleton] at hd
  rcases hd with (rfl | hclean) | hparts
  · exact h
  · split at hclean
    · cases hclean
    · next hne => exact List.mem_singleton.mp hclean ▸ hne
  · split at hparts
    · next htwo =>
        rcases List.mem_cons.mp hparts with rfl | hlong
        · exact lastTwo_ne_nil htwo
        · have hlength : 4 ≤ d.length := by simpa using (List.mem_filter.mp hlong).2
          exact List.ne_nil_of_length_pos (by omega)
    · cases hparts

end NeuralSoc.Dga
