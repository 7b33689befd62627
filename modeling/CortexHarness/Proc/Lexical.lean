import CortexHarness.Proc.Masking

/-!
# The lexical structure of an embedded source

What a Pro*C source is made of, said apart from the scanner of `Masking.lean`: C comments, literals
and raw strings, and `EXEC SQL` statements. A judgment about a piece keeps the characters that
remain after it, so that the first of two markers is the one that ends it.

A statement is read in a `Dialect`: SQL has comments to the end of the line and no escapes in its
quotes (`Dialect.sql`); the scanner skips quotes with the escapes of C, and no such comment
(`Dialect.scanner`).

Results:
* `findText_iff`, `literal_closes`, `execSql_iff`: what the scanner finds is what the judgments say;
* `Ends.unique`: a statement ends once.

Model notes: a raw string starts at `R"`, whatever stands before it, and no line is continued by a
backslash; the scanner's comments and `terminator` know neither.
-/

namespace CortexHarness.Proc

/-! ## Judgments -/

/-- The first `marker` in the text is at `n`. -/
def FirstAt (marker text : List Char) (n : Nat) : Prop :=
  marker <+: text.drop n ∧ ∀ k < n, ¬ marker <+: text.drop k

/-- The quotes of a literal. -/
def IsQuote (q : Char) : Prop := q = '"' ∨ q = '\''

instance (q : Char) : Decidable (IsQuote q) := inferInstanceAs (Decidable (_ ∨ _))

/-- After the opening quote: the literal ends, and `rest` follows. -/
inductive Closes (escapes : Bool) (q : Char) : List Char → List Char → Prop
  | quote (rest : List Char) : Closes escapes q (q :: rest) rest
  | escape {text rest : List Char} (c : Char) : escapes = true → Closes escapes q text rest →
      Closes escapes q ('\\' :: c :: text) rest
  | char {text rest : List Char} {c : Char} : c ≠ q → (escapes = true → c ≠ '\\') →
      Closes escapes q text rest → Closes escapes q (c :: text) rest

/-- How statements are read. -/
structure Dialect where
  /-- `--` starts a comment -/
  lineComments : Bool
  /-- a backslash escapes the next character of a quoted text -/
  escapes : Bool

/-- SQL. -/
def Dialect.sql : Dialect := { lineComments := true, escapes := false }

/-- What the scanner knows of a statement. -/
def Dialect.scanner : Dialect := { lineComments := false, escapes := true }

variable (cd : Codecs) (d : Dialect)

/-- One piece of a statement, that is not the `;` that ends it: it takes the parentheses from one
depth to another. -/
inductive Item : Nat → List Char → Nat → List Char → Prop
  | comment {depth n : Nat} {text : List Char} : FirstAt ['*', '/'] text n →
      Item depth ('/' :: '*' :: text) depth (text.drop (n + 2))
  | lineComment {depth : Nat} (text : List Char) : d.lineComments = true →
      Item depth ('-' :: '-' :: text) depth (text.dropWhile (· ≠ '\n'))
  | quoted {depth : Nat} {q : Char} {text rest : List Char} : IsQuote q →
      Closes d.escapes q text rest → Item depth (q :: text) depth rest
  | opening (depth : Nat) (text : List Char) : Item depth ('(' :: text) (depth + 1) text
  | closing (depth : Nat) (text : List Char) : Item depth (')' :: text) (depth - 1) text
  | other {depth : Nat} {c : Char} {text : List Char} : ¬ IsQuote c → c ≠ '(' → c ≠ ')' →
      ¬ ['/', '*'] <+: c :: text → (d.lineComments = true → ¬ ['-', '-'] <+: c :: text) →
      (c = ';' → 0 < depth) → Item depth (c :: text) depth text

/-- The pieces that follow each other. -/
inductive Reads : Nat → List Char → Nat → List Char → Prop
  | refl (depth : Nat) (text : List Char) : Reads depth text depth text
  | step {depth depth' depth'' : Nat} {text text' rest : List Char} :
      Item d depth text depth' text' → Reads depth' text' depth'' rest →
      Reads depth text depth'' rest

/-- The statement ends: its first `;` outside parentheses, quotes and comments stands before
`rest`. -/
def Ends (text rest : List Char) : Prop := Reads d 0 text 0 (';' :: rest)

/-- The text spells the letters, in any case. -/
def Spells (letters text : List Char) : Prop :=
  List.Forall₂ (fun letter c => sameLetter letter c = true) letters text

/-- An `EXEC SQL` token, after the character `before`: `rest` follows. -/
inductive ExecToken (before : Option Char) : List Char → List Char → Prop
  | intro {exec spaces sql rest : List Char} : Spells ['E', 'X', 'E', 'C'] exec →
      spaces ≠ [] → (∀ c ∈ spaces, isSpace c = true) → Spells ['S', 'Q', 'L'] sql →
      boundary cd before exec.head? = true → boundary cd sql.getLast? rest.head? = true →
      ExecToken before (exec ++ (spaces ++ (sql ++ rest))) rest

/-- The comments of C, by their delimiters. -/
def commentDelimiters : List (List Char × List Char) :=
  [(['/', '*'], ['*', '/']), (['/', '/'], ['\n'])]

/-- The text starts with a comment, a literal or a raw string. -/
inductive Opens : List Char → Prop
  | comment {delimiters : List Char × List Char} (text : List Char) :
      delimiters ∈ commentDelimiters → Opens (delimiters.1 ++ text)
  | literal {q : Char} (text : List Char) : IsQuote q → Opens (q :: text)
  | raw {text : List Char} {n : Nat} : FirstAt ['('] text n → Opens ('R' :: '"' :: text)

/-- One piece of a source, after the character `before`: `rest` follows. -/
inductive Piece (before : Option Char) : List Char → List Char → Prop
  | comment {delimiters : List Char × List Char} {text : List Char} {n : Nat} :
      delimiters ∈ commentDelimiters → FirstAt delimiters.2 text n →
      Piece before (delimiters.1 ++ text) (text.drop (n + delimiters.2.length))
  | openComment {delimiters : List Char × List Char} {text : List Char} :
      delimiters ∈ commentDelimiters → (∀ n, ¬ FirstAt delimiters.2 text n) →
      Piece before (delimiters.1 ++ text) []
  | literal {q : Char} {text rest : List Char} : IsQuote q → Closes true q text rest →
      Piece before (q :: text) rest
  | openLiteral {q : Char} {text : List Char} : IsQuote q → (∀ rest, ¬ Closes true q text rest) →
      Piece before (q :: text) []
  | raw {text : List Char} {n m : Nat} : FirstAt ['('] text n →
      FirstAt (')' :: text.take n ++ ['"']) (text.drop (n + 1)) m →
      Piece before ('R' :: '"' :: text) (text.drop (n + 1 + (m + (n + 2))))
  | openRaw {text : List Char} {n : Nat} : FirstAt ['('] text n →
      (∀ m, ¬ FirstAt (')' :: text.take n ++ ['"']) (text.drop (n + 1)) m) →
      Piece before ('R' :: '"' :: text) []
  | statement {text body rest : List Char} : ExecToken cd before text body → Ends d body rest →
      Piece before text rest
  | openStatement {text body : List Char} : ExecToken cd before text body →
      (∀ rest, ¬ Ends d body rest) → Piece before text []
  | other {c : Char} {text : List Char} : ¬ Opens (c :: text) →
      (∀ body, ¬ ExecToken cd before (c :: text) body) → Piece before (c :: text) text

/-- What follows `before` in the source is outside comments, literals, raw strings and
statements. -/
inductive Outside (source : List Char) : List Char → List Char → Prop
  | start : Outside source [] source
  | piece {before text rest : List Char} : Outside source before (text ++ rest) →
      Piece cd d before.getLast? (text ++ rest) rest → Outside source (before ++ text) rest

/-! ## Finding the first marker -/

theorem findText_iff {marker text : List Char} {n : Nat} :
    findText marker text = some n ↔ FirstAt marker text n := by
  induction text generalizing n with
  | nil =>
    unfold findText FirstAt
    cases marker with
    | nil =>
      simp only [List.isEmpty_nil, if_true, Option.some.injEq, List.drop_nil, List.prefix_refl,
        true_and, not_true_eq_false]
      constructor
      · rintro rfl k hk
        omega
      · intro h
        by_contra hn
        exact h 0 (by omega)
    | cons c marker => simp
  | cons c text ih =>
    unfold findText
    by_cases hhead : marker <+: c :: text
    · rw [if_pos (List.isPrefixOf_iff_prefix.mpr hhead)]
      constructor
      · rintro h
        cases h
        exact ⟨hhead, fun k hk => absurd hk (Nat.not_lt_zero k)⟩
      · rintro ⟨-, hfirst⟩
        by_contra hn
        have hpos : 0 < n := Nat.pos_of_ne_zero fun h => hn (by rw [h])
        exact hfirst 0 hpos hhead
    · rw [if_neg fun h => hhead (List.isPrefixOf_iff_prefix.mp h)]
      cases n with
      | zero =>
        refine iff_of_false ?_ fun h => hhead h.1
        simp
      | succ n =>
        rw [Option.map_eq_some_iff]
        constructor
        · rintro ⟨m, hm, hmn⟩
          obtain rfl : m = n := by omega
          obtain ⟨hat, hfirst⟩ := ih.mp hm
          refine ⟨hat, fun k hk => ?_⟩
          cases k with
          | zero => exact hhead
          | succ k => exact hfirst k (by omega)
        · rintro ⟨hat, hfirst⟩
          exact ⟨n, ih.mpr ⟨hat, fun k hk => hfirst (k + 1) (by omega)⟩, rfl⟩

theorem findText_none {marker text : List Char} :
    findText marker text = none ↔ ∀ n, ¬ FirstAt marker text n := by
  rw [Option.eq_none_iff_forall_ne_some]
  exact forall_congr' fun n => not_congr findText_iff

theorem FirstAt.length_le {marker text : List Char} {n : Nat} (hmarker : marker ≠ [])
    (h : FirstAt marker text n) : n + marker.length ≤ text.length := by
  have hlength := h.1.length_le
  rw [List.length_drop] at hlength
  have hpos := List.length_pos_of_ne_nil hmarker
  omega

/-! ## Literals -/

variable {escapes : Bool} {q : Char} {text rest : List Char}

theorem Closes.mem (h : Closes escapes q text rest) : q ∈ text := by
  induction h with
  | quote rest => exact List.mem_cons_self
  | escape c _ _ ih => exact List.mem_cons_of_mem _ (List.mem_cons_of_mem _ ih)
  | char _ _ _ ih => exact List.mem_cons_of_mem _ ih

/-- Without escapes, the first quote ends the literal. -/
theorem closes_of_mem (h : q ∈ text) : ∃ rest, Closes false q text rest := by
  induction text with
  | nil => cases h
  | cons c text ih =>
    by_cases hq : c = q
    · subst hq
      exact ⟨text, .quote text⟩
    · obtain ⟨rest, hrest⟩ := ih ((List.mem_cons.mp h).resolve_left (Ne.symm hq))
      exact ⟨rest, .char hq (fun he => by cases he) hrest⟩

theorem literal_char {c : Char} (h : c ≠ '\\') :
    literal q (c :: text) = if c = q then 1 else literal q text + 1 := by
  rw [literal]
  rintro _ _ rfl
  exact absurd rfl h

theorem IsQuote.ne_backslash (hq : IsQuote q) : q ≠ '\\' := by
  rcases hq with rfl | rfl <;> decide

/-- **The end of a literal** is where the scanner finds it. -/
theorem literal_closes (hq : IsQuote q) (h : Closes true q text rest) :
    literal q text ≤ text.length ∧ rest = text.drop (literal q text) := by
  induction h with
  | quote rest =>
    rw [literal_char hq.ne_backslash, if_pos rfl]
    exact ⟨Nat.succ_pos _, rfl⟩
  | escape c _ _ ih => exact ⟨Nat.add_le_add_right ih.1 2, ih.2⟩
  | char hne hslash _ ih =>
    rw [literal_char (hslash rfl), if_neg hne]
    exact ⟨Nat.add_le_add_right ih.1 1, ih.2⟩

theorem literal_open (h : ∀ rest, ¬ Closes true q text rest) : text.length ≤ literal q text := by
  fun_induction literal q text with
  | case1 => exact Nat.le_refl _
  | case2 c text ih =>
    exact Nat.add_le_add_right (ih fun rest hrest => h rest (.escape c rfl hrest)) 2
  | case3 text =>
    exact absurd (.quote text) (h text)
  | case4 c text hescape hne ih =>
    refine Nat.add_le_add_right ?_ 1
    by_cases hslash : c = '\\'
    · cases text with
      | nil => exact Nat.zero_le _
      | cons c' text => exact (hescape c' text hslash rfl).elim
    · exact ih fun rest hrest => h rest (.char hne (fun _ => hslash) hrest)

/-! ## Tokens -/

theorem matchLetters_iff {letters text rest : List Char} :
    matchLetters letters text = some rest ↔ ∃ word, Spells letters word ∧ text = word ++ rest := by
  induction letters generalizing text with
  | nil =>
    constructor
    · rintro h
      cases h
      exact ⟨[], .nil, rfl⟩
    · rintro ⟨word, hword, rfl⟩
      cases hword
      rfl
  | cons letter letters ih =>
    cases text with
    | nil =>
      refine iff_of_false (fun h => by cases h) ?_
      rintro ⟨word, hword, htext⟩
      cases hword
      cases htext
    | cons c text =>
      unfold matchLetters
      constructor
      · intro h
        split at h
        · next hsame =>
          obtain ⟨word, hword, rfl⟩ := ih.mp h
          exact ⟨c :: word, .cons hsame hword, rfl⟩
        · cases h
      · rintro ⟨word, hword, htext⟩
        cases hword with
        | cons hsame hword =>
          obtain ⟨rfl, rfl⟩ := List.cons.inj htext
          rw [if_pos hsame]
          exact ih.mpr ⟨_, hword, rfl⟩

variable {cd d} {before : Option Char}

/-- A letter of `SQL` is no space. -/
theorem head_spells {sql : List Char} (h : Spells ['S', 'Q', 'L'] sql) (rest : List Char) :
    (sql ++ rest).dropWhile isSpace = sql ++ rest ∧ (sql ++ rest).takeWhile isSpace = [] := by
  cases h with
  | @cons _ c _ sql hc hsql =>
    have hspace : isSpace c = false := by
      unfold sameLetter at hc
      simp only [Bool.or_eq_true, Bool.and_eq_true, decide_eq_true_iff] at hc
      rcases hc with (rfl | rfl) | ⟨-, rfl⟩ <;> decide
    simp [hspace]

theorem getElem?_last {a word b : List Char} (hword : word ≠ []) :
    (a ++ (word ++ b))[(a ++ (word ++ b)).length - b.length - 1]? = word.getLast? := by
  have hpos := List.length_pos_of_ne_nil hword
  have hindex : (a ++ (word ++ b)).length - b.length - 1 = a.length + (word.length - 1) := by
    simp only [List.length_append]
    omega
  rw [hindex, List.getElem?_append_right (Nat.le_add_right _ _), Nat.add_sub_cancel_left,
    List.getElem?_append_left (by omega), List.getLast?_eq_getElem?]

theorem head?_spells {letter : Char} {letters word : List Char}
    (h : Spells (letter :: letters) word) (rest : List Char) :
    (word ++ rest).head? = word.head? := by
  cases h
  rfl

/-- **An `EXEC SQL` token** is what the scanner matches. -/
theorem execSql_token {n : Nat} (h : execSql cd before text = some n) :
    n ≤ text.length ∧ ExecToken cd before text (text.drop n) := by
  unfold execSql at h
  split at h
  · next hbefore =>
    obtain ⟨spaces, hspaces, h⟩ := Option.bind_eq_some_iff.mp h
    split at h
    · cases h
    · next hempty =>
      obtain ⟨after, hafter, h⟩ := Option.bind_eq_some_iff.mp h
      dsimp only at h
      split at h
      · next hboundary =>
        cases h
        obtain ⟨exec, hexec, rfl⟩ := matchLetters_iff.mp hspaces
        obtain ⟨sql, hsql, hrest⟩ := matchLetters_iff.mp hafter
        have hsplit : spaces = spaces.takeWhile isSpace ++ (sql ++ after) := by
          rw [← hrest, List.takeWhile_append_dropWhile]
        have hword : sql ≠ [] := by
          rintro rfl
          cases hsql
        have hassoc : exec ++ spaces = exec ++ spaces.takeWhile isSpace ++ (sql ++ after) := by
          rw [List.append_assoc, ← hsplit]
        rw [hassoc, getElem?_last hword] at hboundary
        have hdrop : (exec ++ spaces).drop ((exec ++ spaces).length - after.length) = after := by
          rw [hassoc, ← List.append_assoc, List.length_append, Nat.add_sub_cancel, List.drop_left]
        refine ⟨Nat.sub_le _ _, ?_⟩
        rw [hdrop]
        have htoken : ExecToken cd before
            (exec ++ (spaces.takeWhile isSpace ++ (sql ++ after))) after :=
          .intro hexec (fun hnil => hempty (by rw [hnil]; rfl))
            (fun c hc => List.mem_takeWhile_imp hc) hsql (by rwa [head?_spells hexec] at hbefore)
            hboundary
        rwa [← hsplit] at htoken
      · cases h
  · cases h

theorem token_execSql (h : ExecToken cd before text rest) :
    execSql cd before text = some (text.length - rest.length) := by
  obtain ⟨hexec, hne, hspace, hsql, hbefore, hafter⟩ := h
  rename_i exec spaces sql
  have hword : sql ≠ [] := by
    rintro rfl
    cases hsql
  have htake : (spaces ++ (sql ++ rest)).takeWhile isSpace = spaces := by
    rw [List.takeWhile_append_of_pos hspace, (head_spells hsql rest).2, List.append_nil]
  have hdrop : (spaces ++ (sql ++ rest)).dropWhile isSpace = sql ++ rest := by
    rw [List.dropWhile_append_of_pos hspace, (head_spells hsql rest).1]
  have hlast := @getElem?_last (exec ++ spaces) sql rest hword
  rw [List.append_assoc] at hlast
  unfold execSql
  rw [head?_spells hexec, if_pos hbefore]
  refine Option.bind_eq_some_iff.mpr ⟨_, matchLetters_iff.mpr ⟨exec, hexec, rfl⟩, ?_⟩
  rw [htake, if_neg (by simpa using hne), hdrop]
  refine Option.bind_eq_some_iff.mpr ⟨_, matchLetters_iff.mpr ⟨sql, hsql, rfl⟩, ?_⟩
  dsimp only
  rw [hlast, if_pos hafter]

theorem execSql_eq_none (h : ∀ body, ¬ ExecToken cd before text body) :
    execSql cd before text = none := by
  rw [Option.eq_none_iff_forall_ne_some]
  exact fun n hn => h _ (execSql_token hn).2

/-! ## What is read -/

theorem Closes.suffix (h : Closes escapes q text rest) :
    rest <:+ text ∧ rest.length < text.length := by
  induction h with
  | quote rest => exact ⟨List.suffix_cons q rest, Nat.lt_succ_self _⟩
  | escape c _ _ ih =>
    exact ⟨(ih.1.trans (List.suffix_cons c _)).trans (List.suffix_cons _ _),
      Nat.lt_succ_of_lt (Nat.lt_succ_of_lt ih.2)⟩
  | char _ _ _ ih => exact ⟨ih.1.trans (List.suffix_cons _ _), Nat.lt_succ_of_lt ih.2⟩

theorem Item.suffix {depth depth' : Nat} (h : Item d depth text depth' rest) :
    rest <:+ text ∧ rest.length < text.length := by
  cases h with
  | @comment n text hat =>
    refine ⟨(List.drop_suffix _ _).trans ((List.suffix_cons _ _).trans (List.suffix_cons _ _)), ?_⟩
    simp only [List.length_drop, List.length_cons]
    omega
  | lineComment text hline =>
    refine ⟨(List.dropWhile_suffix _).trans
      ((List.suffix_cons _ _).trans (List.suffix_cons _ _)), ?_⟩
    have hle := (List.dropWhile_suffix (l := text) fun c => decide (c ≠ '\n')).length_le
    simp only [List.length_cons]
    omega
  | quoted hq hcloses =>
    exact ⟨hcloses.suffix.1.trans (List.suffix_cons _ _), Nat.lt_succ_of_lt hcloses.suffix.2⟩
  | opening | closing | other => exact ⟨List.suffix_cons _ _, Nat.lt_succ_self _⟩

/-- **What is read is a part of the text.** -/
theorem Reads.suffix {depth depth' : Nat} (h : Reads d depth text depth' rest) : rest <:+ text := by
  induction h with
  | refl depth text => exact List.suffix_refl text
  | step hitem _ ih => exact ih.trans hitem.suffix.1

/-! ## One reading -/

variable {depth depth' depth'' : Nat} {rest' : List Char}

theorem FirstAt.unique {marker : List Char} {n m : Nat} (h : FirstAt marker text n)
    (h' : FirstAt marker text m) : n = m :=
  Option.some.inj ((findText_iff.mpr h).symm.trans (findText_iff.mpr h'))

theorem Closes.unique (hq : IsQuote q) (h : Closes escapes q text rest)
    (h' : Closes escapes q text rest') : rest = rest' := by
  induction h with
  | quote rest =>
    cases h' with
    | quote => rfl
    | escape => exact absurd rfl hq.ne_backslash
    | char hne => exact absurd rfl hne
  | escape c he _ ih =>
    cases h' with
    | quote => exact absurd rfl hq.ne_backslash
    | escape _ _ h' => exact ih h'
    | char _ hslash => exact absurd rfl (hslash he)
  | char hne hslash _ ih =>
    cases h' with
    | quote => exact absurd rfl hne
    | escape _ he => exact absurd rfl (hslash he)
    | char _ _ h' => exact ih h'

theorem Item.unique (h : Item d depth text depth' rest) (h' : Item d depth text depth'' rest') :
    depth' = depth'' ∧ rest = rest' := by
  cases h with
  | comment hat =>
    cases h' with
    | comment hat' => exact ⟨rfl, by rw [hat.unique hat']⟩
    | quoted hq => exact absurd hq (by decide)
    | other _ _ _ hcomment => exact absurd ⟨_, rfl⟩ hcomment
  | lineComment _ hd =>
    cases h' with
    | lineComment => exact ⟨rfl, rfl⟩
    | quoted hq => exact absurd hq (by decide)
    | other _ _ _ _ hline => exact absurd ⟨_, rfl⟩ (hline hd)
  | quoted hq hcloses =>
    cases h' with
    | quoted _ hcloses' => exact ⟨rfl, hcloses.unique hq hcloses'⟩
    | comment | lineComment | opening | closing => exact absurd hq (by decide)
    | other hquote => exact absurd hq hquote
  | opening =>
    cases h' with
    | opening => exact ⟨rfl, rfl⟩
    | quoted hq => exact absurd hq (by decide)
    | other _ hopen => exact absurd rfl hopen
  | closing =>
    cases h' with
    | closing => exact ⟨rfl, rfl⟩
    | quoted hq => exact absurd hq (by decide)
    | other _ _ hclose => exact absurd rfl hclose
  | other hquote hopen hclose hcomment hline =>
    cases h' with
    | comment => exact absurd ⟨_, rfl⟩ hcomment
    | lineComment _ hd => exact absurd ⟨_, rfl⟩ (hline hd)
    | quoted hq => exact absurd hq hquote
    | opening => exact absurd rfl hopen
    | closing => exact absurd rfl hclose
    | other => exact ⟨rfl, rfl⟩

/-- The `;` of a statement is no piece of it. -/
theorem Item.not_semicolon : ¬ Item d 0 (';' :: text) depth' rest := by
  intro h
  cases h with
  | quoted hq => exact absurd hq (by decide)
  | other _ _ _ _ _ hsemi => exact absurd (hsemi rfl) (Nat.lt_irrefl 0)

theorem Reads.unique {ending : List Char} (h : Reads d depth text depth' ending)
    (hending : depth' = 0 ∧ ending = ';' :: rest) (h' : Reads d depth text 0 (';' :: rest')) :
    rest = rest' := by
  induction h with
  | refl depth text =>
    obtain ⟨rfl, rfl⟩ := hending
    cases h' with
    | refl => rfl
    | step hitem => exact absurd hitem Item.not_semicolon
  | step hitem _ ih =>
    cases h' with
    | refl => exact absurd hitem Item.not_semicolon
    | step hitem' hreads' =>
      obtain ⟨rfl, rfl⟩ := hitem.unique hitem'
      exact ih hending hreads'

/-- **A statement ends once.** -/
theorem Ends.unique (h : Ends d text rest) (h' : Ends d text rest') : rest = rest' :=
  Reads.unique h ⟨rfl, rfl⟩ h'

theorem ExecToken.suffix (h : ExecToken cd before text rest) : rest <:+ text := by
  obtain ⟨-, -, -, -, -, -⟩ := h
  rename_i exec spaces sql
  exact ⟨exec ++ (spaces ++ sql), by simp only [List.append_assoc]⟩

theorem ExecToken.ne_nil (h : ExecToken cd before text rest) : text ≠ [] := by
  obtain ⟨hexec, -, -, -, -, -⟩ := h
  cases hexec
  exact List.cons_ne_nil _ _

theorem Piece.ne_nil (h : Piece cd d before text rest) : text ≠ [] := by
  cases h with
  | comment hmem | openComment hmem =>
    unfold commentDelimiters at hmem
    rcases List.mem_pair.mp hmem with rfl | rfl <;> exact List.cons_ne_nil _ _
  | literal | openLiteral | raw | openRaw | other => exact List.cons_ne_nil _ _
  | statement htoken | openStatement htoken => exact htoken.ne_nil

/-- **A token ends once.** -/
theorem ExecToken.unique (h : ExecToken cd before text rest) (h' : ExecToken cd before text rest') :
    rest = rest' := by
  obtain ⟨front, hfront⟩ := h.suffix
  obtain ⟨front', hfront'⟩ := h'.suffix
  have hlength := Option.some.inj ((token_execSql h).symm.trans (token_execSql h'))
  have hle := h.suffix.length_le
  have hle' := h'.suffix.length_le
  have hsame : front ++ rest = front' ++ rest' := hfront.trans hfront'.symm
  exact (List.append_inj' hsame (by omega)).2

end CortexHarness.Proc
