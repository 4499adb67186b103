import Mathlib.Data.List.Infix

/-!
# Paths as texts and as names

The text of an absolute path has a separator before each of its names. A text that begins with the text of a
directory need not name something below it: the last name of the directory may go on.
-/

namespace NeuralSoc

variable {α : Type*} {sep : α}

def spelled (sep : α) (names : List (List α)) : List α := names.flatMap fun name => sep :: name

/-- `path` is the directory `base`, or at or below a sibling whose name goes on where the name of `base` ends. -/
def Beside (base path : List (List α)) : Prop :=
  path = base ∨ ∃ parents name more rest,
    base = parents ++ [name] ∧ more ≠ [] ∧ path = parents ++ (name ++ more) :: rest

@[simp] theorem spelled_nil : spelled sep [] = [] := rfl

@[simp] theorem spelled_cons (name : List α) (names : List (List α)) :
    spelled sep (name :: names) = sep :: (name ++ spelled sep names) := rfl

theorem spelled_append_singleton (names : List (List α)) (name : List α) :
    spelled sep (names ++ [name]) = spelled sep names ++ sep :: name := by
  simp [spelled]

/-! ## A name and what follows it -/

section

variable {a b : List α} (ha : sep ∉ a) (hb : sep ∉ b)
include ha hb

/-- A separator ends a name, so two names agree or the text ends within the second one. -/
theorem name_append_prefix_iff (names others : List (List α)) :
    a ++ spelled sep names <+: b ++ spelled sep others ↔
      (a = b ∧ spelled sep names <+: spelled sep others) ∨ (names = [] ∧ a <+: b) := by
  constructor
  · intro h
    have hname : a <+: b := by
      rcases List.prefix_or_prefix_of_prefix ((List.prefix_append _ _).trans h) (List.prefix_append b _)
        with hab | ⟨more, rfl⟩
      · exact hab
      · have hmore : more <+: spelled sep others :=
          (List.prefix_append_right_inj b).mp ((List.prefix_append _ _).trans h)
        cases more with
        | nil => rw [List.append_nil]
        | cons c more =>
            obtain rfl : c = sep := by
              cases others with
              | nil => simp at hmore
              | cons other others => exact (List.cons_prefix_cons.mp hmore).1
            simp at ha
    obtain ⟨more, rfl⟩ := hname
    rw [List.append_assoc, List.prefix_append_right_inj] at h
    cases more with
    | nil => exact .inl ⟨(List.append_nil a).symm, h⟩
    | cons c more =>
        cases names with
        | nil => exact .inr ⟨rfl, List.prefix_append _ _⟩
        | cons name names =>
            obtain rfl : sep = c := (List.cons_prefix_cons.mp h).1
            simp at hb
  · rintro (⟨rfl, h⟩ | ⟨rfl, h⟩)
    · exact (List.prefix_append_right_inj a).mpr h
    · rw [spelled_nil, List.append_nil]
      exact h.trans (List.prefix_append _ _)

end

/-- The parts between separators hold none. -/
theorem not_mem_of_mem_splitOn [BEq α] [LawfulBEq α] {text part : List α} (h : part ∈ text.splitOn sep) :
    sep ∉ part := by
  induction text generalizing part with
  | nil =>
      rw [List.splitOn_nil, List.mem_singleton] at h
      simp [h]
  | cons c text ih =>
      rw [List.splitOn_cons_eq_if_modifyHead] at h
      split at h
      · rcases List.mem_cons.mp h with rfl | h
        · exact List.not_mem_nil
        · exact ih h
      · next hc =>
          obtain ⟨first, parts, hparts⟩ := List.exists_cons_of_ne_nil (List.splitOn_ne_nil sep text)
          rw [hparts, List.modifyHead_cons] at h
          rcases List.mem_cons.mp h with rfl | h
          · have hfirst := ih (hparts ▸ List.mem_cons_self ..)
            rw [List.mem_cons, not_or]
            exact ⟨fun heq => hc (by simp [heq]), hfirst⟩
          · exact ih (hparts ▸ List.mem_cons_of_mem _ h)

/-! ## Texts of paths -/

variable {base path : List (List α)}

/-- Names from the directory on, or a name that goes on. -/
theorem prefix_or_beside_cons {a b : List α} :
    (a :: base <+: b :: path ∨ Beside (a :: base) (b :: path)) ↔
      (a = b ∧ (base <+: path ∨ Beside base path)) ∨ (base = [] ∧ a <+: b) := by
  constructor
  · rintro (h | h | ⟨parents, name, more, rest, hbase, hmore, hpath⟩)
    · exact .inl ⟨(List.cons_prefix_cons.mp h).1, .inl (List.cons_prefix_cons.mp h).2⟩
    · cases h
      exact .inl ⟨rfl, .inr (.inl rfl)⟩
    · cases parents with
      | nil =>
          cases hbase
          cases hpath
          exact .inr ⟨rfl, List.prefix_append _ _⟩
      | cons parent parents =>
          cases hbase
          cases hpath
          exact .inl ⟨rfl, .inr (.inr ⟨parents, name, more, rest, rfl, hmore, rfl⟩)⟩
  · rintro (⟨rfl, h | rfl | ⟨parents, name, more, rest, rfl, hmore, rfl⟩⟩ | ⟨rfl, more, rfl⟩)
    · exact .inl (List.cons_prefix_cons.mpr ⟨rfl, h⟩)
    · exact .inr (.inl rfl)
    · exact .inr (.inr ⟨a :: parents, name, more, rest, rfl, hmore, rfl⟩)
    · by_cases hmore : more = []
      · exact .inl ⟨path, by simp [hmore]⟩
      · exact .inr (.inr ⟨[], a, more, path, rfl, hmore, rfl⟩)

section

variable (hbase : ∀ name ∈ base, sep ∉ name) (hpath : ∀ name ∈ path, sep ∉ name)
include hbase hpath

theorem spelled_prefix_iff : spelled sep base <+: spelled sep path ↔ base <+: path ∨ Beside base path := by
  induction base generalizing path with
  | nil => simp
  | cons a base ih =>
      cases path with
      | nil => simp [Beside]
      | cons b path =>
          rw [spelled_cons, spelled_cons, List.cons_prefix_cons, eq_self, true_and,
            name_append_prefix_iff (hbase a (List.mem_cons_self ..)) (hpath b (List.mem_cons_self ..)),
            prefix_or_beside_cons, ih (fun n hn => hbase n (List.mem_cons_of_mem _ hn))
              fun n hn => hpath n (List.mem_cons_of_mem _ hn)]

/-- With a separator after it the text of a directory is what everything below it begins with. -/
theorem spelled_append_sep_prefix_iff :
    spelled sep base ++ [sep] <+: spelled sep path ↔ ∃ name rest, path = base ++ name :: rest := by
  have hnames : ∀ name ∈ base ++ [[]], sep ∉ name := by
    intro name hname
    rcases List.mem_append.mp hname with hname | hname
    · exact hbase name hname
    · simp [List.mem_singleton.mp hname]
  rw [← spelled_append_singleton base [], spelled_prefix_iff hnames hpath]
  constructor
  · rintro (⟨rest, rfl⟩ | rfl | ⟨parents, name, more, rest, hbase, -, rfl⟩)
    · exact ⟨[], rest, by simp⟩
    · exact ⟨[], [], rfl⟩
    · obtain ⟨rfl, -⟩ := List.append_inj' hbase rfl
      exact ⟨_, rest, rfl⟩
  · rintro ⟨name, rest, rfl⟩
    by_cases hname : name = []
    · exact .inl ⟨rest, by simp [hname]⟩
    · exact .inr (.inr ⟨base, [], name, rest, rfl, hname, rfl⟩)

/-- What passes the test on the text and is not below the directory. -/
theorem spelled_prefix_not_below_iff :
    spelled sep base <+: spelled sep path ∧ ¬ spelled sep base ++ [sep] <+: spelled sep path ↔
      Beside base path := by
  rw [spelled_prefix_iff hbase hpath, spelled_append_sep_prefix_iff hbase hpath]
  constructor
  · rintro ⟨⟨rest, rfl⟩ | h, hbelow⟩
    · cases rest with
      | nil => exact .inl (List.append_nil base)
      | cons name rest => exact absurd ⟨name, rest, rfl⟩ hbelow
    · exact h
  · intro h
    refine ⟨.inr h, ?_⟩
    rintro ⟨name, rest, hbelow⟩
    obtain rfl | ⟨parents, last, more, tail, rfl, hmore, rfl⟩ := h
    · simp at hbelow
    · rw [List.append_assoc, List.append_cancel_left_eq] at hbelow
      simp [hmore] at hbelow

end

end NeuralSoc
