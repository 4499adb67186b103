import NeuralSoc.Base.Replace

/-!
# Words of the shell

How a POSIX shell cuts a line into words and operators, and `shlex.quote`, which writes any text as one word.
A text is a list of code points. Substitutions and here-documents are not followed: the characters that begin
a substitution are marked as active and what comes after them is cut like the rest.
-/

namespace NeuralSoc.Shell

/-- A Python `str`: its code points, lone surrogates among them. -/
abbrev Text := List ℕ

def points (s : String) : Text := s.toList.map Char.toNat

def newline : ℕ := 10

def doubleQuote : ℕ := 34

def hash : ℕ := 35

def singleQuote : ℕ := 39

def backslash : ℕ := 92

def isBlank (c : ℕ) : Bool := c == 32 || c == 9

def operators : List Text :=
  ["&", ";", "<", ">", "|", "(", ")", "&&", "||", ";;", "<<", ">>", "<&", ">&", "<>", "<<-", ">|"].map points

/-- The characters that an unquoted word expands at. -/
def active : Text := points "$`*?[~"

/-- Those that keep their meaning between double quotes. -/
def activeInDouble : Text := points "$`"

/-- A character of a word: as it stands, or one that the shell expands. -/
inductive Piece where
  | literal (c : ℕ)
  | expand (c : ℕ)
  deriving DecidableEq, Repr

inductive Token where
  | word (pieces : List Piece)
  | op (text : Text)
  deriving DecidableEq, Repr

def Token.literal (text : Text) : Token := .word (text.map .literal)

inductive Mode where
  | plain
  | single
  | double
  | escaped
  | escapedInDouble
  | comment
  deriving DecidableEq, Repr

inductive Open where
  | gap
  | word (pieces : List Piece)
  | op (text : Text)
  deriving DecidableEq, Repr

namespace Open

def close : Open → List Token
  | .gap => []
  | .word pieces => [.word pieces]
  | .op text => [.op text]

/-- The tokens that end where a word goes on, and the word so far. -/
def wordSoFar : Open → List Token × List Piece
  | .gap => ([], [])
  | .word pieces => ([], pieces)
  | .op text => ([.op text], [])

def isWord : Open → Bool
  | .word _ => true
  | _ => false

def add (o : Open) (pieces : List Piece) : List Token × Open := (o.wordSoFar.1, .word (o.wordSoFar.2 ++ pieces))

def addOperator (o : Open) (c : ℕ) : List Token × Open :=
  match o with
  | .op text => if text ++ [c] ∈ operators then ([], .op (text ++ [c])) else ([.op text], .op [c])
  | o => (o.close, .op [c])

end Open

/-- One character: the tokens that it ends, the token that is being read and the mode after it. -/
def step (m : Mode) (o : Open) (c : ℕ) : List Token × Open × Mode :=
  let go (m : Mode) (r : List Token × Open) : List Token × Open × Mode := (r.1, r.2, m)
  match m with
  | .plain =>
      if c = singleQuote then go .single (o.add [])
      else if c = doubleQuote then go .double (o.add [])
      else if c = backslash then go .escaped ([], o)
      else if isBlank c then go .plain (o.close, .gap)
      else if c = newline then go .plain (o.close ++ [.op [newline]], .gap)
      else if [c] ∈ operators then go .plain (o.addOperator c)
      else if c = hash && !o.isWord then go .comment (o.close, .gap)
      else if c ∈ active then go .plain (o.add [.expand c])
      else go .plain (o.add [.literal c])
  | .single => if c = singleQuote then go .plain (o.add []) else go .single (o.add [.literal c])
  | .double =>
      if c = doubleQuote then go .plain (o.add [])
      else if c = backslash then go .escapedInDouble ([], o)
      else if c ∈ activeInDouble then go .double (o.add [.expand c])
      else go .double (o.add [.literal c])
  | .escaped => if c = newline then go .plain ([], o) else go .plain (o.add [.literal c])
  | .escapedInDouble =>
      if c = newline then go .double ([], o)
      else if c ∈ activeInDouble || c = doubleQuote || c = backslash then go .double (o.add [.literal c])
      else go .double (o.add [.literal backslash, .literal c])
  | .comment => if c = newline then go .plain ([.op [newline]], .gap) else go .comment ([], o)

/-- `none` when a quotation has no end. -/
def scan (m : Mode) (o : Open) : Text → Option (List Token)
  | [] =>
      match m with
      | .plain | .comment => some o.close
      | _ => none
  | c :: cs => (scan (step m o c).2.2 (step m o c).2.1 cs).map ((step m o c).1 ++ ·)

def tokenise (text : Text) : Option (List Token) := scan .plain .gap text

/-! ## Quoting -/

/-- What `shlex.quote` finds safe: the ASCII word characters and some signs. -/
def isSafe (c : ℕ) : Bool :=
  (48 ≤ c && c ≤ 57) || (65 ≤ c && c ≤ 90) || (97 ≤ c && c ≤ 122) || c ∈ points "-_@%+=:,./"

/-- A single quote, written between double quotes outside the single ones. -/
def quotedQuote : Text := [singleQuote, doubleQuote, singleQuote, doubleQuote, singleQuote]

/-- `shlex.quote`. -/
def quote (text : Text) : Text :=
  if text = [] then [singleQuote, singleQuote]
  else if text.all isSafe then text
  else singleQuote :: (replaceAll [singleQuote] quotedQuote text ++ [singleQuote])

/-- After a gap the text is read as one word that is still open. -/
def Reads (text : Text) (pieces : List Piece) : Prop :=
  ∀ rest, scan .plain .gap (text ++ rest) = scan .plain (.word pieces) rest

/-- A character that is read as it stands. -/
def isOrdinary (c : ℕ) : Bool :=
  c ≠ singleQuote && c ≠ doubleQuote && c ≠ backslash && !isBlank c && c ≠ newline && !([c] ∈ operators) &&
    c ≠ hash && !(c ∈ active)

variable {c : ℕ} {text rest : Text} {pieces : List Piece} {o : Open} {m : Mode}

theorem map_nil_append (r : Option (List Token)) : r.map (([] : List Token) ++ ·) = r := by
  cases r with
  | none => rfl
  | some ts => rfl

theorem step_ordinary (hc : isOrdinary c = true) (o : Open) :
    step .plain o c = ((o.add [.literal c]).1, (o.add [.literal c]).2, .plain) := by
  simp only [isOrdinary, Bool.and_eq_true, decide_eq_true_eq, Bool.not_eq_true', decide_eq_false_iff_not]
    at hc
  obtain ⟨⟨⟨⟨⟨⟨⟨hsingle, hdouble⟩, hback⟩, hblank⟩, hnewline⟩, hop⟩, hhash⟩, hactive⟩ := hc
  simp [step, hsingle, hdouble, hback, hblank, hnewline, hop, hhash, hactive]

theorem scan_ordinary (htext : ∀ c ∈ text, isOrdinary c = true) (pieces : List Piece) (rest : Text) :
    scan .plain (.word pieces) (text ++ rest) = scan .plain (.word (pieces ++ text.map .literal)) rest := by
  induction text generalizing pieces with
  | nil => simp
  | cons c text ih =>
      rw [List.cons_append, scan, step_ordinary (htext c (List.mem_cons_self ..))]
      simp only [Open.add, Open.wordSoFar, map_nil_append]
      rw [ih (fun c hc => htext c (List.mem_cons_of_mem _ hc)), List.append_assoc]
      rfl

theorem reads_ordinary (hne : text ≠ []) (htext : ∀ c ∈ text, isOrdinary c = true) :
    Reads text (text.map .literal) := by
  intro rest
  cases text with
  | nil => exact absurd rfl hne
  | cons c text =>
      rw [List.cons_append, scan, step_ordinary (htext c (List.mem_cons_self ..))]
      simp only [Open.add, Open.wordSoFar, map_nil_append]
      rw [scan_ordinary (fun c hc => htext c (List.mem_cons_of_mem _ hc))]
      rfl

theorem scan_single (hc : c ≠ singleQuote) (pieces : List Piece) (rest : Text) :
    scan .single (.word pieces) (c :: rest) = scan .single (.word (pieces ++ [.literal c])) rest := by
  simp [scan, step, hc, Open.add, Open.wordSoFar]

theorem scan_quotedQuote (pieces : List Piece) (rest : Text) :
    scan .single (.word pieces) (quotedQuote ++ rest) =
      scan .single (.word (pieces ++ [.literal singleQuote])) rest := by
  have hquote : singleQuote ∉ activeInDouble := by decide
  have hcases : singleQuote ≠ doubleQuote ∧ doubleQuote ≠ singleQuote ∧ singleQuote ≠ backslash := by decide
  simp [scan, step, quotedQuote, Open.add, Open.wordSoFar, hquote, hcases.1, hcases.2.1, hcases.2.2]

theorem scan_escaped (text : Text) (pieces : List Piece) (rest : Text) :
    scan .single (.word pieces) (replaceAll [singleQuote] quotedQuote text ++ rest) =
      scan .single (.word (pieces ++ text.map .literal)) rest := by
  rw [replaceAll_singleton]
  induction text generalizing pieces with
  | nil => simp
  | cons c text ih =>
      rw [List.flatMap_cons, List.append_assoc]
      split
      · next hc =>
          rw [scan_quotedQuote, ih, List.append_assoc, hc]
          rfl
      · next hc =>
          rw [List.singleton_append, scan_single hc, ih, List.append_assoc]
          rfl

theorem isOrdinary_of_isSafe (hc : isSafe c = true) : isOrdinary c = true := by
  have hsmall : c < 128 := by
    simp only [isSafe, Bool.or_eq_true, Bool.and_eq_true, decide_eq_true_eq] at hc
    rcases hc with ((hc | hc) | hc) | hc
    · omega
    · omega
    · omega
    · revert c
      decide
  have hall : ∀ c < 128, isSafe c = true → isOrdinary c = true := by decide
  exact hall c hsmall hc

/-- `shlex.quote` writes a text as one word that stands for it. -/
theorem reads_quote (text : Text) : Reads (quote text) (text.map .literal) := by
  unfold quote
  split
  · next hempty =>
      intro rest
      rw [hempty]
      simp [scan, step, Open.add, Open.wordSoFar]
  · next hne =>
      split
      · next hsafe =>
          exact reads_ordinary hne fun c hc => isOrdinary_of_isSafe (List.all_eq_true.mp hsafe c hc)
      · intro rest
        rw [List.cons_append, List.append_assoc]
        have hbegin : scan .plain .gap
            (singleQuote :: (replaceAll [singleQuote] quotedQuote text ++ ([singleQuote] ++ rest))) =
              scan .single (.word []) (replaceAll [singleQuote] quotedQuote text ++ ([singleQuote] ++ rest)) := by
          simp [scan, step, Open.add, Open.wordSoFar]
        rw [hbegin, scan_escaped]
        simp [scan, step, Open.add, Open.wordSoFar]

/-- A text with neither of the quotes occurs in what `shlex.quote` writes where it occurs in the value. -/
theorem infix_quote_iff {old : Text} (hold : old ≠ []) (hsingle : singleQuote ∉ old)
    (hdouble : doubleQuote ∉ old) : old <:+: quote text ↔ old <:+: text := by
  have hskip : ∀ {c : ℕ} {b : Text}, c ∉ old → (old <:+: c :: b ↔ old <:+: b) := fun {c b} hc => by
    rw [← List.nil_append (c :: b), infix_append_cons_iff hold hc, List.infix_nil, or_iff_right hold]
  have hquotedQuote : ∀ before rest : Text,
      old <:+: before ++ (quotedQuote ++ rest) ↔ old <:+: before ∨ old <:+: rest := fun before rest => by
    rw [quotedQuote, List.cons_append, infix_append_cons_iff hold hsingle, List.cons_append, hskip hdouble,
      List.cons_append, hskip hsingle, List.cons_append, hskip hdouble, List.cons_append, hskip hsingle,
      List.nil_append]
  -- the text goes on from the part that has no quote
  have hescaped : ∀ before : Text,
      old <:+: before ++ replaceAll [singleQuote] quotedQuote text ↔ old <:+: before ++ text := by
    rw [replaceAll_singleton]
    induction text with
    | nil => simp
    | cons c text ih =>
        intro before
        rw [List.flatMap_cons]
        split
        · next hc =>
            have hrest := ih []
            rw [List.nil_append, List.nil_append] at hrest
            rw [hquotedQuote, hrest, hc, infix_append_cons_iff hold hsingle]
        · rw [List.singleton_append, List.append_cons, ih, ← List.append_cons]
  unfold quote
  split
  · next hempty => rw [hempty, hskip hsingle, hskip hsingle]
  · split
    · exact Iff.rfl
    · have htext := hescaped []
      rw [List.nil_append, List.nil_append] at htext
      rw [hskip hsingle, infix_append_cons_iff hold hsingle, List.infix_nil, or_iff_left hold, htext]

theorem count_quote (hsingle : c ≠ singleQuote) (hdouble : c ≠ doubleQuote) :
    (quote text).count c = text.count c := by
  have hnone : quotedQuote.count c = 0 := by
    simp [quotedQuote, hsingle.symm, hdouble.symm]
  have hescaped : (replaceAll [singleQuote] quotedQuote text).count c = text.count c := by
    obtain ⟨n, -, hcount⟩ := replaceAll_count (List.cons_ne_nil singleQuote []) quotedQuote text
    simpa [List.count_cons, hnone, hsingle.symm] using hcount c
  unfold quote
  split
  · next hempty => simp [hempty, hsingle.symm]
  · split
    · rfl
    · simp [List.count_append, hescaped, hsingle.symm]

/-- A value that holds a character outside the safe ones stands between quotes. -/
theorem singleQuote_mem_quote (hc : c ∈ text) (hchar : isSafe c = false) : singleQuote ∈ quote text := by
  have hne : text ≠ [] := List.ne_nil_of_mem hc
  have hall : ¬ text.all isSafe = true := fun h => by
    simpa [hchar] using List.all_eq_true.mp h c hc
  rw [quote, if_neg hne, if_neg hall]
  exact List.mem_cons_self ..

/-! ## What a reader sees -/

def Piece.char : Piece → ℕ
  | .literal c => c
  | .expand c => c

def Token.chars : Token → Text
  | .word pieces => pieces.map Piece.char
  | .op text => text

def Open.chars (o : Open) : Text := o.close.flatMap Token.chars

theorem chars_add (o : Open) (pieces : List Piece) :
    (o.add pieces).1.flatMap Token.chars ++ (o.add pieces).2.chars = o.chars ++ pieces.map Piece.char := by
  cases o <;> simp [Open.add, Open.wordSoFar, Open.chars, Open.close, Token.chars]

theorem chars_addOperator (o : Open) (c : ℕ) :
    (o.addOperator c).1.flatMap Token.chars ++ (o.addOperator c).2.chars = o.chars ++ [c] := by
  cases o with
  | gap => simp [Open.addOperator, Open.chars, Open.close, Token.chars]
  | word pieces => simp [Open.addOperator, Open.chars, Open.close, Token.chars]
  | op text =>
      rw [Open.addOperator]
      split <;> simp [Open.chars, Open.close, Token.chars]

/-- A step adds no character but the one that it reads, or a backslash. -/
theorem count_step {x : ℕ} (hx : x ≠ backslash) (m : Mode) (o : Open) (c : ℕ) :
    ((step m o c).1.flatMap Token.chars).count x + (step m o c).2.1.chars.count x ≤
      o.chars.count x + [c].count x := by
  have hof : ∀ {tokens : List Token} {o' : Open} {new : Text},
      tokens.flatMap Token.chars ++ o'.chars = o.chars ++ new → new.count x ≤ [c].count x →
        (tokens.flatMap Token.chars).count x + o'.chars.count x ≤ o.chars.count x + [c].count x := by
    intro tokens o' new hchars hnew
    have hcount := congrArg (List.count x) hchars
    rw [List.count_append, List.count_append] at hcount
    omega
  have hnone : ([] : Text).count x ≤ [c].count x := Nat.zero_le _
  have hboth : [backslash, c].count x ≤ [c].count x := by simp [List.count_cons, hx.symm]
  have hadd := fun pieces => hof (chars_add o pieces)
  cases m with
  | plain =>
      simp only [step]
      split_ifs with _ _ _ _ hnewline
      · exact hadd [] hnone
      · exact hadd [] hnone
      · simp
      · simp [Open.chars, Open.close]
      · simp [hnewline, Open.chars, Open.close, Token.chars]
      · exact hof (chars_addOperator o c) le_rfl
      · simp [Open.chars, Open.close]
      · exact hadd [.expand c] le_rfl
      · exact hadd [.literal c] le_rfl
  | single =>
      simp only [step]
      split_ifs
      · exact hadd [] hnone
      · exact hadd [.literal c] le_rfl
  | double =>
      simp only [step]
      split_ifs
      · exact hadd [] hnone
      · simp
      · exact hadd [.expand c] le_rfl
      · exact hadd [.literal c] le_rfl
  | escaped =>
      simp only [step]
      split_ifs
      · simp
      · exact hadd [.literal c] le_rfl
  | escapedInDouble =>
      simp only [step]
      split_ifs
      · simp
      · exact hadd [.literal c] le_rfl
      · exact hadd [.literal backslash, .literal c] hboth
  | comment =>
      simp only [step]
      split_ifs with hnewline
      · simp [hnewline, Open.chars, Open.close, Token.chars]
      · simp

theorem count_scan {ts : List Token} {x : ℕ} (hx : x ≠ backslash) (h : scan m o text = some ts) :
    (ts.flatMap Token.chars).count x ≤ o.chars.count x + text.count x := by
  induction text generalizing m o ts with
  | nil =>
      have hts : ts = o.close := by
        cases m <;> simp_all [scan]
      rw [hts]
      exact Nat.le_add_right ..
  | cons c text ih =>
      rw [scan] at h
      obtain ⟨rest, hrest, rfl⟩ := Option.map_eq_some_iff.mp h
      have hread := count_step hx m o c
      have htail := ih hrest
      rw [List.flatMap_append, List.count_append, ← List.singleton_append, List.count_append]
      omega

/-! ## Lines of words -/

def isSeparator (c : ℕ) : Bool := isBlank c || c == newline

/-- The first word of a text, and each separator with the word after it. -/
def cut : Text → Text × List (ℕ × Text)
  | [] => ([], [])
  | c :: cs => if isSeparator c then ([], (c, (cut cs).1) :: (cut cs).2) else (c :: (cut cs).1, (cut cs).2)

def glue (first : Text) (others : List (ℕ × Text)) : Text := first ++ others.flatMap fun w => w.1 :: w.2

theorem glue_cons (first : Text) (w : ℕ × Text) (others : List (ℕ × Text)) :
    glue first (w :: others) = first ++ w.1 :: glue w.2 others := by
  simp [glue]

theorem glue_cut (text : Text) : glue (cut text).1 (cut text).2 = text := by
  induction text with
  | nil => rfl
  | cons c cs ih =>
      rw [cut]
      split
      · rw [glue_cons, ih, List.nil_append]
      · exact congrArg (c :: ·) ih

theorem separator_of_cut (text : Text) : ∀ w ∈ (cut text).2, isSeparator w.1 = true := by
  induction text with
  | nil => exact nofun
  | cons c cs ih =>
      intro w hw
      rw [cut] at hw
      split at hw
      · next hc =>
          rcases List.mem_cons.mp hw with rfl | hw
          · exact hc
          · exact ih w hw
      · exact ih w hw

theorem replaceAll_glue {old : Text} (hold : old ≠ []) (hsep : ∀ c ∈ old, isSeparator c = false)
    (new first : Text) {others : List (ℕ × Text)} (hothers : ∀ w ∈ others, isSeparator w.1 = true) :
    replaceAll old new (glue first others) =
      glue (replaceAll old new first) (others.map fun w => (w.1, replaceAll old new w.2)) := by
  induction others generalizing first with
  | nil => simp [glue]
  | cons w others ih =>
      have hw : w.1 ∉ old := fun hmem => by
        simpa [hsep w.1 hmem] using hothers w (List.mem_cons_self ..)
      rw [glue_cons, replaceAll_append_cons hold hw, ih w.2 fun w hw => hothers w (List.mem_cons_of_mem _ hw),
        List.map_cons, glue_cons]

def separatorTokens (c : ℕ) : List Token := if c = newline then [.op [newline]] else []

theorem scan_separator (hc : isSeparator c = true) (pieces : List Piece) (rest : Text) :
    scan .plain (.word pieces) (c :: rest) =
      (scan .plain .gap rest).map ((.word pieces :: separatorTokens c) ++ ·) := by
  have hcases : c = 32 ∨ c = 9 ∨ c = newline := by
    simpa [isSeparator, isBlank, or_assoc] using hc
  rcases hcases with rfl | rfl | rfl
  · rfl
  · rfl
  · rfl

/-! ## Word by word -/

def words (text : Text) : List Text := (cut text).1 :: (cut text).2.map Prod.snd

/-- The text with every word changed. -/
def mapWords (F : Text → Text) (text : Text) : Text :=
  glue (F (cut text).1) ((cut text).2.map fun w => (w.1, F w.2))

/-- A word token for every word. -/
def wordTokens (pieces : Text → List Piece) (text : Text) : List Token :=
  .word (pieces (cut text).1) ::
    (cut text).2.flatMap fun w => separatorTokens w.1 ++ [.word (pieces w.2)]

variable {F G : Text → Text}

theorem mapWords_congr (h : ∀ w ∈ words text, F w = G w) : mapWords F text = mapWords G text := by
  rw [mapWords, mapWords, h _ (List.mem_cons_self ..)]
  congr 1
  apply List.map_congr_left
  intro w hw
  rw [h w.2 (List.mem_cons_of_mem _ (List.mem_map_of_mem hw))]

theorem mapWords_id (text : Text) : mapWords id text = text := by
  simpa [mapWords] using glue_cut text

theorem infix_of_mem_words {word : Text} (h : word ∈ words text) : word <:+: text := by
  rcases List.mem_cons.mp h with rfl | h
  · have hbegins : (cut text).1 <+: glue (cut text).1 (cut text).2 := List.prefix_append ..
    rw [glue_cut] at hbegins
    exact hbegins.isInfix
  · obtain ⟨w, hw, rfl⟩ := List.mem_map.mp h
    have hflat : w.1 :: w.2 <:+: (cut text).2.flatMap fun w => w.1 :: w.2 := by
      rw [List.flatMap_def]
      exact List.infix_of_mem_flatten (List.mem_map_of_mem hw)
    have htext := (List.suffix_cons w.1 w.2).isInfix.trans
      (hflat.trans (List.suffix_append (cut text).1 _).isInfix)
    rwa [← glue, glue_cut] at htext

theorem infix_words {old : Text} (hold : old ≠ []) (hsep : ∀ c ∈ old, isSeparator c = false)
    (h : old <:+: text) : ∃ w ∈ words text, old <:+: w := by
  have hglue : ∀ (others : List (ℕ × Text)) (first : Text), (∀ w ∈ others, isSeparator w.1 = true) →
      old <:+: glue first others → ∃ w ∈ first :: others.map Prod.snd, old <:+: w := by
    intro others
    induction others with
    | nil =>
        intro first _ hin
        exact ⟨first, List.mem_cons_self .., by simpa [glue] using hin⟩
    | cons w others ih =>
        intro first hothers hin
        have hw : w.1 ∉ old := fun hmem => by
          simpa [hsep w.1 hmem] using hothers w (List.mem_cons_self ..)
        rw [glue_cons, infix_append_cons_iff hold hw] at hin
        rcases hin with hin | hin
        · exact ⟨first, List.mem_cons_self .., hin⟩
        · obtain ⟨v, hv, hoccurs⟩ := ih w.2 (fun w hw => hothers w (List.mem_cons_of_mem _ hw)) hin
          exact ⟨v, List.mem_cons_of_mem _ hv, hoccurs⟩
  exact hglue _ _ (separator_of_cut text) (by rwa [glue_cut])

theorem tokenise_mapWords {pieces : Text → List Piece} (h : ∀ w ∈ words text, Reads (F w) (pieces w)) :
    tokenise (mapWords F text) = some (wordTokens pieces text) := by
  have hrest : ∀ (others : List (ℕ × Text)) (ps : List Piece),
      (∀ w ∈ others, isSeparator w.1 = true ∧ Reads (F w.2) (pieces w.2)) →
        scan .plain (.word ps) ((others.map fun w => (w.1, F w.2)).flatMap fun w => w.1 :: w.2) =
          some (.word ps :: others.flatMap fun w => separatorTokens w.1 ++ [.word (pieces w.2)]) := by
    intro others
    induction others with
    | nil => exact fun ps _ => rfl
    | cons w others ih =>
        intro ps hothers
        obtain ⟨hsep, hreads⟩ := hothers w (List.mem_cons_self ..)
        rw [List.map_cons, List.flatMap_cons, List.cons_append, scan_separator hsep, hreads,
          ih _ fun w hw => hothers w (List.mem_cons_of_mem _ hw)]
        simp
  rw [tokenise, mapWords, glue, h _ (List.mem_cons_self ..)]
  exact hrest _ _ fun w hw =>
    ⟨separator_of_cut text w hw, h w.2 (List.mem_cons_of_mem _ (List.mem_map_of_mem hw))⟩

theorem count_wordTokens {pieces : Text → List Piece} {x : ℕ} (hx : isSeparator x = false)
    (h : ∀ w ∈ words text, ((pieces w).map Piece.char).count x = (F w).count x) :
    ((wordTokens pieces text).flatMap Token.chars).count x = (mapWords F text).count x := by
  have hnone : ∀ c, isSeparator c = true → c ≠ x := fun c hc heq => by simp [heq, hx] at hc
  have hrest : ∀ others : List (ℕ × Text),
      (∀ w ∈ others, isSeparator w.1 = true ∧ ((pieces w.2).map Piece.char).count x = (F w.2).count x) →
        ((others.flatMap fun w => separatorTokens w.1 ++ [.word (pieces w.2)]).flatMap Token.chars).count x =
          ((others.map fun w => (w.1, F w.2)).flatMap fun w => w.1 :: w.2).count x := by
    intro others hothers
    induction others with
    | nil => rfl
    | cons w others ih =>
        obtain ⟨hsep, hcount⟩ := hothers w (List.mem_cons_self ..)
        have hw : ((separatorTokens w.1).flatMap Token.chars).count x = 0 := by
          rw [separatorTokens]
          split
          · next hnewline => simp [Token.chars, ← hnewline, hnone w.1 hsep]
          · rfl
        have htail := ih fun w hw => hothers w (List.mem_cons_of_mem _ hw)
        simp only [List.flatMap_cons, List.map_cons, List.flatMap_append, List.count_append, List.count_cons,
          hw, hcount, htail, List.flatMap_nil, List.append_nil, Token.chars]
        simp [hnone w.1 hsep]
  rw [wordTokens, mapWords, glue, List.flatMap_cons, List.count_append, List.count_append,
    hrest _ fun w hw => ⟨separator_of_cut text w hw, h w.2 (List.mem_cons_of_mem _ (List.mem_map_of_mem hw))⟩]
  exact congrArg (· + _) (h _ (List.mem_cons_self ..))

end NeuralSoc.Shell
