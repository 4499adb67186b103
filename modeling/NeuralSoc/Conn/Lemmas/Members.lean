import NeuralSoc.Conn.Tracker

/-!
# The texts of keys and members

A member names one call and gives back its bytes; a key names one pair.
-/

namespace NeuralSoc.Conn

variable {rt : ConnRuntime}

/-! ## Members -/

theorem cut_inj {α : Type*} {sep : α} {a a' b b' : List α} (ha : sep ∉ a) (ha' : sep ∉ a')
    (h : a ++ sep :: b = a' ++ sep :: b') : a = a' ∧ b = b' := by
  rcases List.append_eq_append_iff.mp h with ⟨m, rfl, hm⟩ | ⟨m, rfl, hm⟩
  · cases m with
    | nil => simpa using hm
    | cons x m =>
        rw [List.cons_append, List.cons.injEq] at hm
        exact absurd (by simp [hm.1]) ha'
  · cases m with
    | nil => simpa [eq_comm] using hm
    | cons x m =>
        rw [List.cons_append, List.cons.injEq] at hm
        exact absurd (by simp [hm.1]) ha

theorem colon_not_mem_toString (n : ℕ) : ':' ∉ (toString n).toList := by
  intro h
  have hdigit : ':' ∈ Nat.toDigits 10 n := by rwa [← Nat.toList_repr]
  exact absurd (Nat.isDigit_of_mem_toDigits (by decide) (by decide) hdigit) (by decide)

theorem toList_member (rt : Runtime) (t : ℚ) (n : ℕ) (x : PyFloat) :
    (member rt t n x).toList = (rt.str (.float (.fin t))).toList ++
      ':' :: ((toString n).toList ++ ':' :: (rt.str (.float x)).toList) := by
  simp [member, String.toList_append]

theorem member_count {t t' : ℚ} {n n' : ℕ} {x x' : PyFloat}
    (h : member rt.toRuntime t n x = member rt.toRuntime t' n' x') : n = n' := by
  have hlist := congrArg String.toList h
  rw [toList_member, toList_member] at hlist
  obtain ⟨-, hrest⟩ := cut_inj (rt.no_colon _) (rt.no_colon _) hlist
  obtain ⟨hcount, -⟩ := cut_inj (colon_not_mem_toString n) (colon_not_mem_toString n') hrest
  exact toString_inj (String.toList_inj.mp hcount)

theorem memberBytes_member (t : ℚ) (n : ℕ) (x : PyFloat) :
    memberBytes rt.toRuntime (member rt.toRuntime t n x) = some x := by
  have hcolon : ':' ∈ (member rt.toRuntime t n x).toList := by
    rw [toList_member]
    simp
  have hlast : ((member rt.toRuntime t n x).toList.reverse.takeWhile (· ≠ ':')).reverse =
      (rt.str (.float x)).toList := by
    rw [toList_member, List.reverse_append, List.reverse_cons, List.reverse_append, List.reverse_cons,
      List.append_assoc, List.append_assoc, List.append_assoc, List.takeWhile_append_of_pos]
    · simp
    · intro c hc
      have hne : c ≠ ':' := by
        rintro rfl
        exact rt.no_colon x (List.mem_reverse.mp hc)
      simpa using hne
  rw [memberBytes, afterLastColon, if_pos hcolon, hlast, String.ofList_toList]
  exact rt.floatOfStr_str x

/-! ## Keys -/

/-- What is known of an address that the key of a pair is built from. -/
structure IsAddress (a : List Char) : Prop where
  one_scope : a.count '%' ≤ 1
  brace_in_scope : ∀ before after, a = before ++ '}' :: after → '%' ∈ before

theorem isAddress_of_validateIp {rawIp a : String} (h : validateIp rt.toRuntime rawIp = some a) :
    IsAddress a.toList := by
  unfold validateIp normalizeIp at h
  cases haddr : rt.ipAddress (strip rawIp) with
  | none =>
      rw [haddr] at h
      cases h
  | some normalized =>
      rw [haddr] at h
      have hsame : normalized = a := by
        dsimp only at h
        split at h
        · cases h
        · exact Option.some.inj h
      subst hsame
      exact ⟨rt.one_scope _ _ haddr, fun before after => rt.brace_in_scope _ _ before after haddr⟩

theorem safePair_eq_some {sourceIp destIp : String} {pair : String × String}
    (h : safePair rt.toRuntime sourceIp destIp = some pair) :
    IsAddress pair.1.toList ∧ IsAddress pair.2.toList := by
  unfold safePair at h
  cases hsrc : validateIp rt.toRuntime sourceIp with
  | none =>
      rw [hsrc] at h
      cases h
  | some safeSrc =>
      cases hdst : validateIp rt.toRuntime destIp with
      | none =>
          rw [hsrc, hdst] at h
          cases h
      | some safeDst =>
          rw [hsrc, hdst] at h
          dsimp only at h
          split at h
          · cases h
          · cases h
            exact ⟨isAddress_of_validateIp hsrc, isAddress_of_validateIp hdst⟩

/-- The source address of a key ends at the first brace that no scope precedes: a longer one would have a
second scope. -/
theorem not_longer_source {s m d rest after : List Char} (hs : IsAddress (s ++ '}' :: m)) (hd : IsAddress d)
    (hrest : '}' ∉ rest) : rest ++ d ≠ m ++ '}' :: after := by
  intro h
  have hscope : '%' ∈ s := hs.brace_in_scope s m rfl
  rcases List.append_eq_append_iff.mp h with ⟨e, rfl, hde⟩ | ⟨e, rfl, hde⟩
  · have hsecond : '%' ∈ e := hd.brace_in_scope e after hde
    have hcount := hs.one_scope
    have hfirst := List.count_pos_iff.mpr hscope
    have hlast := List.count_pos_iff.mpr hsecond
    simp only [List.count_append, List.count_cons] at hcount
    omega
  · cases e with
    | nil =>
        have hnone := hd.brace_in_scope [] after (by simpa using hde.symm)
        cases hnone
    | cons x e =>
        rw [List.cons_append, List.cons.injEq] at hde
        exact hrest (by simp [← hde.1])

/-- A key gives back the address in its braces, and what follows them, when that is a text without a brace
before an address. -/
theorem hashTag_inj {s s' rest rest' d d' : List Char} (hs : IsAddress s) (hs' : IsAddress s')
    (hd : IsAddress d) (hd' : IsAddress d') (hrest : '}' ∉ rest) (hrest' : '}' ∉ rest')
    (h : s ++ '}' :: (rest ++ d) = s' ++ '}' :: (rest' ++ d')) : s = s' ∧ rest ++ d = rest' ++ d' := by
  rcases List.append_eq_append_iff.mp h with ⟨m, hm, htail⟩ | ⟨m, hm, htail⟩
  · cases m with
    | nil =>
        rw [List.append_nil] at hm
        rw [List.nil_append, List.cons.injEq] at htail
        exact ⟨hm.symm, htail.2⟩
    | cons x m =>
        rw [List.cons_append, List.cons.injEq] at htail
        obtain ⟨rfl, htail⟩ := htail
        exact absurd htail (not_longer_source (hm ▸ hs') hd hrest)
  · cases m with
    | nil =>
        rw [List.append_nil] at hm
        rw [List.nil_append, List.cons.injEq] at htail
        exact ⟨hm, htail.2.symm⟩
    | cons x m =>
        rw [List.cons_append, List.cons.injEq] at htail
        obtain ⟨rfl, htail⟩ := htail
        exact absurd htail (not_longer_source (hm ▸ hs) hd' hrest')

theorem pairKey_toList (pair : String × String) :
    (pairKey pair).toList =
      '{' :: (pair.1.toList ++ '}' :: (":conn_pair:".toList ++ pair.2.toList)) := by
  simp [pairKey, String.toList_append]

theorem pairKey_inj {pair pair' : String × String} (h₁ : IsAddress pair.1.toList)
    (h₂ : IsAddress pair.2.toList) (h₁' : IsAddress pair'.1.toList) (h₂' : IsAddress pair'.2.toList)
    (h : pairKey pair = pairKey pair') : pair = pair' := by
  have hlist := congrArg String.toList h
  rw [pairKey_toList, pairKey_toList, List.cons.injEq] at hlist
  obtain ⟨hsrc, hdst⟩ := hashTag_inj h₁ h₁' h₂ h₂' (by decide) (by decide) hlist.2
  rw [List.append_cancel_left_eq] at hdst
  exact Prod.ext (String.toList_inj.mp hsrc) (String.toList_inj.mp hdst)

end NeuralSoc.Conn
