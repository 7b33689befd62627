import CortexHarness.Proc.Alignment
import CortexHarness.Proc.Lexical

/-!
# The scanner and the lexical structure

What the scanner of `Masking.lean` takes from a source, against the judgments of `Lexical.lean`. The
scanner ends a statement of SQL where SQL does when it misreads nothing (`Follows`): no `--` comment
holds a `;`, a quote, a comment or parentheses out of balance, and no backslash hides the end of a
quote.

Results:
* `terminator_ends`, `terminator_none`: the terminator of a statement, in the scanner's dialect;
* `Follows.sameEnd`: a statement that the scanner follows ends where the dialect ends it;
* `lexemeAt_piece`, `piece_lexeme`: a lexeme is a piece of the source;
* `lexemeAt_block`: and a block is a statement.
-/

namespace CortexHarness.Proc

/-! ## Statements that the scanner follows -/

/-- The depth after the parentheses of a text, unless one closes that is not open. -/
def nesting (depth : Nat) : List Char → Option Nat
  | [] => some depth
  | c :: text =>
    if c = '(' then nesting (depth + 1) text
    else if c = ')' then (if depth = 0 then none else nesting (depth - 1) text)
    else nesting depth text

/-- A comment that reads as nothing. -/
structure Quiet (comment : List Char) : Prop where
  chars : ∀ c ∈ comment, c ≠ ';' ∧ ¬ IsQuote c
  comments : ¬ ['/', '*'] <:+: comment
  balanced : nesting 0 comment = some 0

/-- The scanner reads the piece that starts here as the dialect does. -/
structure Followed (d : Dialect) (text : List Char) : Prop where
  line : d.lineComments = true → ∀ rest, text = '-' :: '-' :: rest →
    Quiet (rest.takeWhile (· ≠ '\n'))
  quotes : ∀ q rest body, IsQuote q → text = q :: body → Closes d.escapes q body rest →
    Closes true q body rest

variable {cd : Codecs} {d : Dialect} {depth depth' : Nat} {text rest : List Char}

theorem terminator_skip (depth skip : Nat) (text : List Char) :
    terminator depth skip text = (terminator depth 0 (text.drop skip)).map (· + skip) := by
  induction text generalizing skip with
  | nil => simp [terminator]
  | cons c text ih =>
    cases skip with
    | zero => simp
    | succ skip =>
      rw [terminator]
      simp only [Nat.succ_pos, if_true, Nat.add_sub_cancel]
      rw [ih skip, Option.map_map]
      rfl

/-- What the scanner does at a character of a statement. -/
theorem terminator_cons (depth : Nat) (c : Char) (text : List Char) :
    terminator depth 0 (c :: text) =
      if ['/', '*'] <+: c :: text then
        (findText ['*', '/'] (text.drop 1)).bind fun stop =>
          (terminator depth 0 (text.drop (stop + 3))).map (· + (stop + 3 + 1))
      else if IsQuote c then
        (terminator depth 0 (text.drop (literal c text))).map (· + (literal c text + 1))
      else if c = '(' then (terminator (depth + 1) 0 text).map (· + 1)
      else if c = ')' then (terminator (depth - 1) 0 text).map (· + 1)
      else if c = ';' ∧ depth = 0 then some 0
      else (terminator depth 0 text).map (· + 1) := by
  rw [terminator]
  simp only [Nat.lt_irrefl, if_false, List.isPrefixOf_iff_prefix, Bool.or_eq_true,
    Bool.and_eq_true, decide_eq_true_iff]
  by_cases hcomment : ['/', '*'] <+: c :: text
  · rw [if_pos hcomment, if_pos hcomment]
    cases findText ['*', '/'] (text.drop 1) with
    | none => rfl
    | some stop =>
      dsimp only [Option.bind_some]
      rw [terminator_skip, Option.map_map]
      rfl
  rw [if_neg hcomment, if_neg hcomment]
  by_cases hquote : IsQuote c
  · have hquotes : c = '"' ∨ c = '\'' := hquote
    rw [if_pos hquotes, if_pos hquote, terminator_skip, Option.map_map]
    rfl
  · have hquotes : ¬ (c = '"' ∨ c = '\'') := hquote
    rw [if_neg hquotes, if_neg hquote]

theorem quote_no_comment {q : Char} (hq : IsQuote q) (text : List Char) :
    ¬ ['/', '*'] <+: q :: text := by
  rintro ⟨rest, hrest⟩
  rcases hq with rfl | rfl <;> cases hrest

theorem map_add_add (o : Option Nat) (a b : Nat) :
    (o.map (· + a)).map (· + b) = o.map (· + (a + b)) := by
  rw [Option.map_map]
  congr 1
  funext n
  exact Nat.add_assoc n a b

/-- A text of characters that the scanner passes, and that leaves the parentheses at one depth. -/
theorem terminator_quiet {comment : List Char} {shift : Nat}
    (hchars : ∀ c ∈ comment, c ≠ ';' ∧ ¬ IsQuote c)
    (hcomments : ¬ ['/', '*'] <:+: comment) (hrest : rest.head? ≠ some '*')
    (hnesting : nesting depth comment = some depth') :
    terminator (shift + depth) 0 (comment ++ rest) =
      (terminator (shift + depth') 0 rest).map (· + comment.length) := by
  induction comment generalizing depth with
  | nil =>
    cases hnesting
    simp
  | cons c comment ih =>
    have htail : ∀ {depth₁ : Nat}, nesting depth₁ comment = some depth' →
        terminator (shift + depth₁) 0 (comment ++ rest) =
          (terminator (shift + depth') 0 rest).map (· + comment.length) := fun h =>
      ih (fun c' hc' => hchars c' (List.mem_cons_of_mem _ hc'))
        (fun hin => hcomments (hin.trans (List.infix_cons_iff.mpr (.inr (List.infix_refl _))))) h
    obtain ⟨hsemi, hquote⟩ := hchars c List.mem_cons_self
    have hstart : ¬ ['/', '*'] <+: c :: (comment ++ rest) := by
      intro hpre
      cases comment with
      | nil =>
        rw [List.nil_append, List.cons_prefix_cons] at hpre
        obtain ⟨-, t, ht⟩ := hpre
        rw [← ht] at hrest
        exact hrest rfl
      | cons c' comment =>
        rw [List.cons_append, List.cons_prefix_cons, List.cons_prefix_cons] at hpre
        obtain ⟨rfl, rfl, -⟩ := hpre
        exact hcomments ⟨[], comment, rfl⟩
    rw [List.cons_append, terminator_cons, if_neg hstart, if_neg hquote]
    unfold nesting at hnesting
    by_cases hopen : c = '('
    · rw [if_pos hopen] at hnesting ⊢
      rw [Nat.add_assoc, htail hnesting, map_add_add]
      rfl
    rw [if_neg hopen] at hnesting ⊢
    by_cases hclose : c = ')'
    · rw [if_pos hclose] at hnesting ⊢
      by_cases hzero : depth = 0
      · rw [if_pos hzero] at hnesting
        cases hnesting
      rw [if_neg hzero] at hnesting
      rw [Nat.add_sub_assoc (by omega), htail hnesting, map_add_add]
      rfl
    rw [if_neg hclose] at hnesting ⊢
    rw [if_neg fun h => hsemi h.1, htail hnesting, map_add_add]
    rfl

/-- **One piece of a statement**, when the scanner follows it. -/
theorem terminator_item (h : Item d depth text depth' rest) (hfollowed : Followed d text) :
    terminator depth 0 text =
      (terminator depth' 0 rest).map (· + (text.length - rest.length)) := by
  cases h with
  | @comment n text hat =>
    have hle := hat.length_le (by decide)
    rw [terminator_cons, if_pos ⟨text, rfl⟩]
    have hfind : findText ['*', '/'] (('*' :: text).drop 1) = some n := findText_iff.mpr hat
    rw [hfind]
    dsimp only [Option.bind_some]
    have hdrop : ('*' :: text).drop (n + 3) = text.drop (n + 2) := rfl
    rw [hdrop]
    congr 2
    simp only [List.length_cons, List.length_drop, List.length_nil] at hle ⊢
    funext m
    omega
  | lineComment text hline =>
    have hquiet := hfollowed.line hline text rfl
    have hrest : (text.dropWhile (· ≠ '\n')).head? ≠ some '*' := by
      intro hstar
      have hstop := List.head?_dropWhile_not (fun c => decide (c ≠ '\n')) text
      rw [hstar] at hstop
      exact absurd hstop (by decide)
    have hscan : terminator (depth + 0) 0 (text.takeWhile (· ≠ '\n') ++ text.dropWhile (· ≠ '\n')) =
        (terminator (depth + 0) 0 (text.dropWhile (· ≠ '\n'))).map
          (· + (text.takeWhile (· ≠ '\n')).length) :=
      terminator_quiet hquiet.chars hquiet.comments hrest hquiet.balanced
    rw [List.takeWhile_append_dropWhile, Nat.add_zero] at hscan
    have hlength := congrArg List.length
      (List.takeWhile_append_dropWhile (p := fun c => decide (c ≠ '\n')) (l := text))
    rw [List.length_append] at hlength
    have hdash : ∀ text : List Char,
        terminator depth 0 ('-' :: text) = (terminator depth 0 text).map (· + 1) := fun text => by
      rw [terminator_cons, if_neg (fun h => by cases (List.cons_prefix_cons.mp h).1),
        if_neg (by decide), if_neg (by decide), if_neg (by decide), if_neg fun h => by cases h.1]
    rw [hdash, hdash, hscan, map_add_add, map_add_add]
    congr 2
    simp only [List.length_cons]
    funext m
    omega
  | quoted hq hcloses =>
    have hcloses := hfollowed.quotes _ _ _ hq rfl hcloses
    obtain ⟨hle, rfl⟩ := literal_closes hq hcloses
    rw [terminator_cons, if_neg (quote_no_comment hq _), if_pos hq]
    congr 2
    simp only [List.length_cons, List.length_drop]
    funext m
    omega
  | opening =>
    rw [terminator_cons, if_neg (fun h => by cases (List.cons_prefix_cons.mp h).1),
      if_neg (by decide), if_pos rfl, List.length_cons, Nat.add_sub_cancel_left]
  | closing =>
    rw [terminator_cons, if_neg (fun h => by cases (List.cons_prefix_cons.mp h).1),
      if_neg (by decide), if_neg (by decide), if_pos rfl, List.length_cons,
      Nat.add_sub_cancel_left]
  | other hquote hopen hclose hcomment _ hsemi =>
    rw [terminator_cons, if_neg hcomment, if_neg hquote, if_neg hopen, if_neg hclose, if_neg,
      List.length_cons, Nat.add_sub_cancel_left]
    rintro ⟨hc, rfl⟩
    exact absurd (hsemi hc) (Nat.lt_irrefl 0)

/-- Where no piece starts, the statement does not end. -/
theorem terminator_stuck (hfollowed : Followed d text)
    (hend : ¬ (depth = 0 ∧ text.head? = some ';'))
    (hstuck : ∀ depth' rest, ¬ Item d depth text depth' rest) : terminator depth 0 text = none := by
  cases text with
  | nil => rfl
  | cons c text =>
    by_cases hcomment : ['/', '*'] <+: c :: text
    · obtain ⟨body, hbody⟩ := hcomment
      obtain ⟨rfl, rfl⟩ := List.cons.inj hbody
      rw [terminator_cons, if_pos ⟨body, rfl⟩]
      cases hfind : findText ['*', '/'] ((['*'] ++ body).drop 1) with
      | none => rfl
      | some stop => exact absurd (.comment (findText_iff.mp hfind)) (hstuck depth _)
    by_cases hquote : IsQuote c
    · rw [terminator_cons, if_neg hcomment, if_pos hquote]
      have hopen : ∀ rest, ¬ Closes true c text rest := by
        intro rest hrest
        cases hescapes : d.escapes with
        | true => exact hstuck depth rest (.quoted hquote (by rwa [hescapes]))
        | false =>
          obtain ⟨rest', hrest'⟩ := closes_of_mem hrest.mem
          exact hstuck depth rest' (.quoted hquote (by rwa [hescapes]))
      rw [List.drop_eq_nil_of_le (literal_open hopen)]
      rfl
    by_cases hopen : c = '('
    · subst hopen
      exact absurd (.opening depth text) (hstuck _ _)
    by_cases hclose : c = ')'
    · subst hclose
      exact absurd (.closing depth text) (hstuck _ _)
    by_cases hline : d.lineComments = true ∧ ['-', '-'] <+: c :: text
    · obtain ⟨hd, body, hbody⟩ := hline
      obtain ⟨rfl, rfl⟩ := List.cons.inj hbody
      exact absurd (.lineComment body hd) (hstuck _ _)
    · refine absurd (.other hquote hopen hclose hcomment (fun hd h => hline ⟨hd, h⟩) fun hc => ?_)
        (hstuck depth text)
      by_contra hdepth
      exact hend ⟨by omega, by rw [List.head?_cons, hc]⟩

/-- The scanner follows what is read from here. -/
def Follows (d : Dialect) (depth : Nat) (text : List Char) : Prop :=
  ∀ depth' rest, Reads d depth text depth' rest → Followed d rest

theorem Follows.item (hfollows : Follows d depth text) (h : Item d depth text depth' rest) :
    Follows d depth' rest :=
  fun depth'' rest' hreads => hfollows depth'' rest' (.step h hreads)

/-- What is read, the scanner passes. -/
theorem terminator_reads (h : Reads d depth text depth' rest) (hfollows : Follows d depth text) :
    terminator depth 0 text =
      (terminator depth' 0 rest).map (· + (text.length - rest.length)) := by
  induction h with
  | refl depth text => simp
  | @step depth depth' depth'' text text' rest hitem hreads ih =>
    have hshorter := hitem.suffix.2
    have hle := hreads.suffix.length_le
    rw [terminator_item hitem (hfollows _ _ (.refl _ _)), ih (hfollows.item hitem), map_add_add]
    congr 2
    funext n
    omega

theorem terminator_semicolon : terminator 0 0 (';' :: text) = some 0 := by
  rw [terminator_cons, if_neg (fun h => by cases (List.cons_prefix_cons.mp h).1),
    if_neg (by decide), if_neg (by decide), if_neg (by decide), if_pos ⟨rfl, rfl⟩]

/-- A terminator ends the statement. -/
theorem reads_terminator {n : Nat} (h : terminator depth 0 text = some n)
    (hfollows : Follows d depth text) :
    ∃ rest, Reads d depth text 0 (';' :: rest) ∧ n + 1 + rest.length = text.length := by
  induction hlength : text.length using Nat.strongRecOn generalizing depth text n with
  | ind length ih =>
    subst hlength
    by_cases hend : depth = 0 ∧ text.head? = some ';'
    · obtain ⟨rfl, hhead⟩ := hend
      obtain ⟨rest, rfl⟩ := List.head?_eq_some_iff.mp hhead
      rw [terminator_semicolon] at h
      cases h
      exact ⟨rest, .refl _ _, by rw [List.length_cons]; omega⟩
    · by_cases hstuck : ∀ depth' rest, ¬ Item d depth text depth' rest
      · rw [terminator_stuck (hfollows _ _ (.refl _ _)) hend hstuck] at h
        cases h
      push Not at hstuck
      obtain ⟨depth', text', hitem⟩ := hstuck
      have hshorter := hitem.suffix.2
      rw [terminator_item hitem (hfollows _ _ (.refl _ _))] at h
      obtain ⟨m, hm, rfl⟩ := Option.map_eq_some_iff.mp h
      obtain ⟨rest, hreads, hrest⟩ := ih _ hshorter hm (hfollows.item hitem) rfl
      exact ⟨rest, .step hitem hreads, by omega⟩

/-- Everything is followed in the scanner's own dialect. -/
theorem follows_scanner (depth : Nat) (text : List Char) : Follows .scanner depth text :=
  fun _ _ _ => ⟨fun hline => (by cases hline), fun _ _ _ _ _ hcloses => hcloses⟩

/-- **The terminator of a statement** is the `;` that ends it, as the scanner reads. -/
theorem terminator_ends {body : List Char} {n : Nat} (h : terminator 0 0 body = some n) :
    Ends .scanner body (body.drop (n + 1)) := by
  obtain ⟨rest, hreads, hlength⟩ := reads_terminator h (follows_scanner 0 body)
  obtain ⟨front, hfront⟩ := (List.suffix_cons ';' rest).trans hreads.suffix
  have hdrop : body.drop (n + 1) = rest := by
    rw [← hfront, List.length_append] at hlength
    have hn : front.length = n + 1 := by omega
    rw [← hfront, ← hn, List.drop_left]
  rwa [hdrop]

theorem terminator_none {body : List Char} (h : terminator 0 0 body = none) (rest : List Char) :
    ¬ Ends .scanner body rest := by
  intro hends
  rw [terminator_reads hends (follows_scanner 0 body), terminator_semicolon] at h
  cases h

/-- The scanner ends the statement where the dialect does; at the end of the source, it may find no
end at all. -/
structure SameEnd (d : Dialect) (body : List Char) : Prop where
  ends : ∀ rest, Ends .scanner body rest → Ends d body rest
  only : ∀ rest, rest ≠ [] → Ends d body rest → Ends .scanner body rest

/-- **A statement that the scanner follows** ends where the dialect ends it. -/
theorem Follows.sameEnd {body : List Char} (hfollows : Follows d 0 body) : SameEnd d body := by
  have hterminator : ∀ {d' : Dialect} {rest : List Char}, Follows d' 0 body → Ends d' body rest →
      terminator 0 0 body = some (body.length - (rest.length + 1)) := by
    intro d' rest hfollows hends
    rw [terminator_reads hends hfollows, terminator_semicolon]
    simp
  have hsame : ∀ {d' d'' : Dialect} {rest : List Char}, Follows d' 0 body → Follows d'' 0 body →
      Ends d' body rest → Ends d'' body rest := by
    intro d' d'' rest hfollows hfollows' hends
    obtain ⟨rest', hends', -⟩ := reads_terminator (hterminator hfollows hends) hfollows'
    have hlength := (hterminator hfollows hends).symm.trans (hterminator hfollows' hends')
    obtain ⟨front, hfront⟩ := hends.suffix
    obtain ⟨front', hfront'⟩ := hends'.suffix
    have hboth := hfront.trans hfront'.symm
    have hle := hends.suffix.length_le
    have hle' := hends'.suffix.length_le
    simp only [List.length_cons, Option.some.injEq] at hle hle' hlength
    have htail := (List.append_inj' hboth (by simp only [List.length_cons]; omega)).2
    rw [(List.cons.inj htail).2]
    exact hends'
  exact ⟨fun rest => hsame (follows_scanner 0 body) hfollows,
    fun rest _ => hsame hfollows (follows_scanner 0 body)⟩

/-! ## Pieces of the source -/

theorem drop_length_take (text : List Char) (n : Nat) :
    text.drop (text.take n).length = text.drop n := by
  rw [List.length_take]
  rcases Nat.le_total n text.length with hle | hle
  · rw [Nat.min_eq_left hle]
  · rw [Nat.min_eq_right hle, List.drop_length, List.drop_eq_nil_of_le hle]

variable {before : Option Char}

theorem length_delimiter {delimiters : List Char × List Char} (h : delimiters ∈ commentDelimiters) :
    delimiters.1.length = 2 := by
  unfold commentDelimiters at h
  rcases List.mem_pair.mp h with rfl | rfl <;> rfl

/-! What the scanner takes from each start. -/

theorem lexemeAt_comment {delimiters : List Char × List Char} (h : delimiters ∈ commentDelimiters)
    (text : List Char) : lexemeAt cd before (delimiters.1 ++ text) =
      .verbatim ((delimiters.1 ++ text).take (comment delimiters.2 (delimiters.1 ++ text))) := by
  unfold commentDelimiters at h
  rcases List.mem_pair.mp h with rfl | rfl <;> rfl

theorem lexemeAt_literal {q : Char} (hq : IsQuote q) (text : List Char) :
    lexemeAt cd before (q :: text) = .verbatim ((q :: text).take (literal q text + 1)) := by
  rcases hq with rfl | rfl <;> rfl

theorem rawString_eq {body : List Char} {paren : Nat} (h : FirstAt ['('] body paren) :
    rawString ('R' :: '"' :: body) =
      some (match findText (')' :: body.take paren ++ ['"']) (body.drop (paren + 1)) with
        | some stop => 3 + paren + stop + (')' :: body.take paren ++ ['"']).length
        | none => ('R' :: '"' :: body).length) :=
  Option.map_eq_some_iff.mpr ⟨paren, findText_iff.mpr h, rfl⟩

theorem length_raw {body : List Char} {paren stop : Nat} (h : FirstAt ['('] body paren) :
    3 + paren + stop + (')' :: body.take paren ++ ['"']).length =
      paren + 1 + (stop + (paren + 2)) + 2 := by
  have hle := h.length_le (by decide)
  simp only [List.cons_append, List.length_cons, List.length_append, List.length_take,
    List.length_nil] at hle ⊢
  omega

theorem lexemeAt_raw {body : List Char} {length : Nat}
    (h : rawString ('R' :: '"' :: body) = some length) :
    lexemeAt cd before ('R' :: '"' :: body) = .verbatim (('R' :: '"' :: body).take length) := by
  unfold lexemeAt
  rw [if_neg (by simp), if_neg (by simp), if_neg (by simp), if_neg (by simp), h]

theorem lexemeAt_unopened {source : List Char} (h : ¬ Opens source) :
    lexemeAt cd before source =
      match execSql cd before source with
      | none => .verbatim (source.take 1)
      | some length =>
        match terminator 0 0 (source.drop length) with
        | some stop => .block (source.take (length + stop + 1)) true
        | none => .block source false := by
  have hquote : ∀ q, IsQuote q → source.head? ≠ some q := by
    intro q hq hhead
    obtain ⟨text, rfl⟩ := List.head?_eq_some_iff.mp hhead
    exact h (.literal text hq)
  have hraw : rawString source = none := by
    unfold rawString
    split
    · next body =>
      rw [Option.map_eq_none_iff, findText_none]
      exact fun n hat => h (.raw hat)
    · rfl
  have hcomment : ¬ ['/', '*'].isPrefixOf source = true := by
    intro hcomment
    obtain ⟨text, rfl⟩ := List.isPrefixOf_iff_prefix.mp hcomment
    exact h (@Opens.comment (['/', '*'], ['*', '/']) text (.head _))
  have hline : ¬ ['/', '/'].isPrefixOf source = true := by
    intro hline
    obtain ⟨text, rfl⟩ := List.isPrefixOf_iff_prefix.mp hline
    exact h (@Opens.comment (['/', '/'], ['\n']) text (.tail _ (.head _)))
  unfold lexemeAt
  simp only [if_neg hcomment, if_neg hline, if_neg (hquote _ (.inl rfl)),
    if_neg (hquote _ (.inr rfl)), hraw] <;> rfl

theorem Opens.head {source : List Char} (h : Opens source) :
    source.head? = some '/' ∨ source.head? = some 'R' ∨ ∃ q, IsQuote q ∧ source.head? = some q := by
  cases h with
  | comment text hmem =>
    unfold commentDelimiters at hmem
    rcases List.mem_pair.mp hmem with rfl | rfl <;> exact .inl rfl
  | literal text hq => exact .inr (.inr ⟨_, hq, rfl⟩)
  | raw => exact .inr (.inl rfl)

/-- A token is no part of a comment, a literal or a raw string that starts with it. -/
theorem ExecToken.not_opens {source body : List Char} (h : ExecToken cd before source body) :
    ¬ Opens source := by
  obtain ⟨hexec, -, -, -, -, -⟩ := h
  cases hexec with
  | @cons _ c _ _ hc _ =>
    have hletter : c = 'E' ∨ c = 'e' := by
      unfold sameLetter at hc
      simpa using hc
    intro hopens
    rcases hopens.head with hhead | hhead | ⟨q, hq, hhead⟩
    all_goals
      obtain rfl := Option.some.inj hhead
      first
        | exact absurd hletter (by decide)
        | rcases hq with rfl | rfl <;> exact absurd hletter (by decide)

/-- What the scanner takes where a token stands. -/
theorem lexemeAt_token {source body : List Char} (h : ExecToken cd before source body) :
    lexemeAt cd before source =
      match terminator 0 0 body with
      | some stop => .block (source.take (source.length - body.length + stop + 1)) true
      | none => .block source false := by
  obtain ⟨front, rfl⟩ := h.suffix
  have hbody : (front ++ body).drop ((front ++ body).length - body.length) = body := by
    rw [List.length_append, Nat.add_sub_cancel, List.drop_left]
  rw [lexemeAt_unopened h.not_opens, token_execSql h]
  dsimp only
  rw [hbody]

/-! The pieces that start there. -/

theorem comment_piece {delimiters : List Char × List Char} (h : delimiters ∈ commentDelimiters)
    (text : List Char) : Piece cd d before (delimiters.1 ++ text)
      ((delimiters.1 ++ text).drop (comment delimiters.2 (delimiters.1 ++ text))) := by
  have hbody : (delimiters.1 ++ text).drop 2 = text := by
    rw [← length_delimiter h, List.drop_left]
  unfold comment
  rw [hbody]
  cases hfind : findText delimiters.2 text with
  | none =>
    dsimp only
    rw [List.drop_length]
    exact .openComment h (findText_none.mp hfind)
  | some n =>
    dsimp only
    rw [Nat.add_assoc, ← List.drop_drop, hbody]
    exact .comment h (findText_iff.mp hfind)

theorem literal_piece {q : Char} (hq : IsQuote q) (text : List Char) :
    Piece cd d before (q :: text) ((q :: text).drop (literal q text + 1)) := by
  by_cases hopen : ∀ rest, ¬ Closes true q text rest
  · rw [List.drop_succ_cons, List.drop_eq_nil_of_le (literal_open hopen)]
    exact .openLiteral hq hopen
  · push Not at hopen
    obtain ⟨rest, hrest⟩ := hopen
    rw [List.drop_succ_cons, ← (literal_closes hq hrest).2]
    exact .literal hq hrest

theorem raw_piece {body : List Char} {paren : Nat} (hparen : FirstAt ['('] body paren) :
    Piece cd d before ('R' :: '"' :: body)
      (('R' :: '"' :: body).drop (lexemeAt cd before ('R' :: '"' :: body)).text.length) := by
  rw [lexemeAt_raw (rawString_eq hparen)]
  dsimp only [Lexeme.text]
  rw [drop_length_take]
  cases hfind : findText (')' :: body.take paren ++ ['"']) (body.drop (paren + 1)) with
  | none =>
    dsimp only
    rw [List.drop_length]
    exact .openRaw hparen (findText_none.mp hfind)
  | some stop =>
    dsimp only
    rw [length_raw hparen]
    exact .raw hparen (findText_iff.mp hfind)

/-- **A lexeme is a piece of the source**, when the statement that starts here has the same end. -/
theorem lexemeAt_piece {source : List Char} (hne : source ≠ [])
    (hsame : ∀ body, ExecToken cd before source body → SameEnd d body) :
    Piece cd d before source (source.drop (lexemeAt cd before source).text.length) := by
  by_cases hopens : Opens source
  · cases hopens with
    | comment text hmem =>
      rw [lexemeAt_comment hmem]
      dsimp only [Lexeme.text]
      rw [drop_length_take]
      exact comment_piece hmem text
    | literal text hq =>
      rw [lexemeAt_literal hq]
      dsimp only [Lexeme.text]
      rw [drop_length_take]
      exact literal_piece hq text
    | @raw body n hat =>
      exact raw_piece hat
  by_cases htoken : ∃ body, ExecToken cd before source body
  · obtain ⟨body, htoken⟩ := htoken
    have hend := hsame body htoken
    rw [lexemeAt_token htoken]
    cases hstop : terminator 0 0 body with
    | some stop =>
      obtain ⟨front, rfl⟩ := htoken.suffix
      have hrest : (front ++ body).drop ((front ++ body).length - body.length + stop + 1) =
          body.drop (stop + 1) := by
        rw [List.length_append, Nat.add_sub_cancel, Nat.add_assoc, ← List.drop_drop, List.drop_left]
      dsimp only [Lexeme.text]
      rw [drop_length_take, hrest]
      exact .statement htoken (hend.ends _ (terminator_ends hstop))
    | none =>
      dsimp only [Lexeme.text]
      rw [List.drop_length]
      by_cases hends : Ends d body []
      · exact .statement htoken hends
      · refine .openStatement htoken fun rest hrest => ?_
        by_cases hnil : rest = []
        · exact hends (hnil ▸ hrest)
        · exact terminator_none hstop rest (hend.only rest hnil hrest)
  · push Not at htoken
    have hnone := execSql_eq_none htoken
    cases source with
    | nil => exact absurd rfl hne
    | cons c source =>
      rw [lexemeAt_unopened hopens, hnone]
      exact .other hopens htoken

/-- **A piece of the source is a lexeme**, or a statement. -/
theorem piece_lexeme {source rest : List Char} (h : Piece cd d before source rest) :
    rest = source.drop (lexemeAt cd before source).text.length ∨
      ∃ body, ExecToken cd before source body ∧
        (Ends d body rest ∨ rest = [] ∧ ∀ rest', ¬ Ends d body rest') := by
  cases h with
  | @comment delimiters text n hmem hat =>
    left
    have hbody : (delimiters.1 ++ text).drop 2 = text := by
      rw [← length_delimiter hmem, List.drop_left]
    rw [lexemeAt_comment hmem]
    dsimp only [Lexeme.text]
    unfold comment
    rw [drop_length_take, hbody, findText_iff.mpr hat]
    dsimp only
    have hdrop : (delimiters.1 ++ text).drop (2 + n + delimiters.2.length) =
        text.drop (n + delimiters.2.length) := by
      rw [Nat.add_assoc, ← List.drop_drop, hbody]
    exact hdrop.symm
  | @openComment delimiters text hmem hnone =>
    left
    have hbody : (delimiters.1 ++ text).drop 2 = text := by
      rw [← length_delimiter hmem, List.drop_left]
    rw [lexemeAt_comment hmem]
    dsimp only [Lexeme.text]
    unfold comment
    rw [drop_length_take, hbody, findText_none.mpr hnone, List.drop_length]
  | literal hq hcloses =>
    left
    rw [lexemeAt_literal hq]
    dsimp only [Lexeme.text]
    rw [drop_length_take, List.drop_succ_cons]
    exact (literal_closes hq hcloses).2
  | openLiteral hq hopen =>
    left
    rw [lexemeAt_literal hq]
    dsimp only [Lexeme.text]
    rw [drop_length_take, List.drop_succ_cons, List.drop_eq_nil_of_le (literal_open hopen)]
  | @raw text n m hat hmarker =>
    left
    rw [lexemeAt_raw (rawString_eq hat), findText_iff.mpr hmarker]
    dsimp only [Lexeme.text]
    rw [drop_length_take, length_raw hat]
    rfl
  | openRaw hat hnone =>
    left
    rw [lexemeAt_raw (rawString_eq hat), findText_none.mpr hnone]
    dsimp only [Lexeme.text]
    rw [drop_length_take, List.drop_length]
  | statement htoken hends => exact .inr ⟨_, htoken, .inl hends⟩
  | openStatement htoken hnone => exact .inr ⟨_, htoken, .inr ⟨rfl, hnone⟩⟩
  | other hopens hnone =>
    left
    have hexec : execSql cd before _ = none := execSql_eq_none hnone
    rw [lexemeAt_unopened hopens, hexec]
    rfl

/-- **A block is a statement**, as the scanner reads it. -/
theorem lexemeAt_block {source text : List Char} {terminated : Bool}
    (h : lexemeAt cd before source = .block text terminated) :
    ∃ body, ExecToken cd before source body ∧
      ((terminated = true ∧ Ends .scanner body (source.drop text.length)) ∨
        (terminated = false ∧ text = source ∧ ∀ rest, ¬ Ends .scanner body rest)) := by
  unfold lexemeAt at h
  split_ifs at h
  split at h
  · cases h
  split at h
  · cases h
  · next length hexec =>
    obtain ⟨hle, htoken⟩ := execSql_token hexec
    refine ⟨_, htoken, ?_⟩
    split at h
    · next stop hstop =>
      cases h
      have hends := terminator_ends hstop
      rw [List.drop_drop, ← Nat.add_assoc] at hends
      rw [drop_length_take]
      exact .inl ⟨rfl, hends⟩
    · next hstop =>
      cases h
      exact .inr ⟨rfl, rfl, terminator_none hstop⟩

end CortexHarness.Proc
