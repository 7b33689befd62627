import CortexHarness.Proc.Scanner

/-!
# The regions of a scan

What `_mask_executable_sql` returns, said of the source: every region starts at an `EXEC SQL` token
outside comments, literals and raw strings, and ends just after the `;` of its statement, or at the
end of a source with an `unterminated_exec_sql` diagnostic (`ScanSound`).

Results:
* `lexemes_outside`, `outside_lexemes`: the scanner stops where a piece of the source ends;
* `output_at`: the masked text, character by character;
* **`scan_sound_iff`**: in any dialect, the regions are right exactly when the scanner ends every
  statement of the source where the dialect does (`SameEnds`);
* `scanner_regions`: which is always so in the scanner's dialect;
* `sameEnds_of_follows`: and in SQL if no `--` comment and no backslash in quotes misleads it.
-/

namespace CortexHarness.Proc

variable (cd : Codecs) (d : Dialect)

/-! ## Regions, diagnostics and lexemes -/

/-- The region of a block. -/
def regionOf (before text : List Char) : ProcRegion :=
  { startByte := (encode before).length
    endByte := (encode (before ++ text)).length
    startLine := lineAfter before
    endLine := lineAfter (before ++ text)
    rawText := text }

/-- The diagnostic of a block that has no terminator. -/
def unterminated (startLine : Nat) : ProcDiagnostic :=
  { code := "unterminated_exec_sql"
    message := "EXEC SQL block did not terminate before EOF"
    startLine }

/-- The text of lexemes. -/
def textOf (ls : List Lexeme) : List Char := ls.flatMap Lexeme.text

variable {cd d} {before text rest source : List Char} {ls : List Lexeme}

theorem mem_regionsAfter_cons {l : Lexeme} {r : ProcRegion} : r ∈ regionsAfter before (l :: ls) ↔
    (∃ text terminated, l = .block text terminated ∧ r = regionOf before text) ∨
      r ∈ regionsAfter (before ++ l.text) ls := by
  cases l with
  | verbatim text =>
    refine ⟨.inr, fun h => h.resolve_left ?_⟩
    rintro ⟨_, _, hl, -⟩
    cases hl
  | block text terminated =>
    refine List.mem_cons.trans (or_congr ⟨fun hr => ⟨text, terminated, rfl, hr⟩, ?_⟩ Iff.rfl)
    rintro ⟨_, _, hl, rfl⟩
    cases hl
    rfl

/-- **The regions are the blocks.** -/
theorem mem_regionsAfter {r : ProcRegion} : r ∈ regionsAfter before ls ↔
    ∃ ls₁ text terminated ls₂, ls = ls₁ ++ .block text terminated :: ls₂ ∧
      r = regionOf (before ++ textOf ls₁) text := by
  induction ls generalizing before with
  | nil => simp [regionsAfter]
  | cons l ls ih =>
    rw [mem_regionsAfter_cons, ih]
    constructor
    · rintro (⟨text, terminated, rfl, rfl⟩ | ⟨ls₁, text, terminated, ls₂, rfl, rfl⟩)
      · refine ⟨[], text, terminated, ls, rfl, ?_⟩
        rw [textOf, List.flatMap_nil, List.append_nil]
      · refine ⟨l :: ls₁, text, terminated, ls₂, rfl, ?_⟩
        rw [textOf, textOf, List.flatMap_cons, List.append_assoc]
    · rintro ⟨ls₁, text, terminated, ls₂, hls, rfl⟩
      cases ls₁ with
      | nil =>
        obtain ⟨rfl, rfl⟩ := List.cons.inj hls
        refine .inl ⟨text, terminated, rfl, ?_⟩
        rw [textOf, List.flatMap_nil, List.append_nil]
      | cons l' ls₁ =>
        obtain ⟨rfl, rfl⟩ := List.cons.inj hls
        refine .inr ⟨ls₁, text, terminated, ls₂, rfl, ?_⟩
        rw [textOf, textOf, List.flatMap_cons, List.append_assoc]

theorem mem_diagnosticsAfter (ls₁ ls₂ : List Lexeme) (text : List Char) :
    unterminated (lineAfter (before ++ textOf ls₁)) ∈
      diagnosticsAfter before (ls₁ ++ .block text false :: ls₂) := by
  induction ls₁ generalizing before with
  | nil =>
    rw [textOf, List.flatMap_nil, List.append_nil]
    exact List.mem_cons_self
  | cons l ls₁ ih =>
    have hrest := @ih (before ++ l.text)
    rw [List.append_assoc] at hrest
    cases l with
    | verbatim text' => exact hrest
    | block text' terminated =>
      cases terminated with
      | true => exact hrest
      | false => exact List.mem_cons_of_mem _ hrest

theorem of_mem_diagnosticsAfter {diagnostic : ProcDiagnostic}
    (h : diagnostic ∈ diagnosticsAfter before ls) : ∃ text, .block text false ∈ ls := by
  induction ls generalizing before with
  | nil => cases h
  | cons l ls ih =>
    have hrest : diagnostic ∈ diagnosticsAfter (before ++ l.text) ls →
        ∃ text, .block text false ∈ l :: ls := fun h =>
      (ih h).imp fun _ htext => List.mem_cons_of_mem _ htext
    cases l with
    | verbatim text => exact hrest h
    | block text terminated =>
      cases terminated with
      | true => exact hrest h
      | false => exact ⟨text, List.mem_cons_self⟩

/-! ## Where the scanner stops -/

/-- The scanner ends every statement of the source where the dialect does. -/
def SameEnds (cd : Codecs) (d : Dialect) (source : List Char) : Prop :=
  ∀ before text body, Outside cd d source before text →
    ExecToken cd before.getLast? text body → SameEnd d body

theorem getLast?_cons_or (c : Char) (text : List Char) (before : Option Char) :
    (c :: text).getLast?.or before = text.getLast?.or (some c) := by
  rw [List.getLast?_cons]
  cases text.getLast? <;> rfl

theorem lexemes_skip (text : List Char) (before : Option Char) (rest : List Char) :
    lexemes cd before text.length (text ++ rest) = lexemes cd (text.getLast?.or before) 0 rest := by
  induction text generalizing before with
  | nil => rfl
  | cons c text ih =>
    rw [List.length_cons, List.cons_append, lexemes, if_pos (Nat.succ_pos _), Nat.add_sub_cancel,
      ih, getLast?_cons_or]

/-- **One round of the loop**: a lexeme that is not empty, and those of the text after it. -/
theorem lexemes_round (before : Option Char) (hne : source ≠ []) :
    ∃ rest, source = (lexemeAt cd before source).text ++ rest ∧
      (lexemeAt cd before source).text ≠ [] ∧
      lexemes cd before 0 source = lexemeAt cd before source ::
        lexemes cd (lexemeAt cd before source).text.getLast? 0 rest := by
  cases source with
  | nil => exact absurd rfl hne
  | cons c source =>
    obtain ⟨n, hpos, htext⟩ := lexemeAt_text cd before c source
    obtain ⟨m, rfl⟩ := Nat.exists_eq_succ_of_ne_zero (Nat.ne_of_gt hpos)
    have hcons : (lexemeAt cd before (c :: source)).text = c :: source.take m := htext
    refine ⟨source.drop m, ?_, ?_, ?_⟩
    · rw [hcons, List.cons_append, List.take_append_drop]
    · rw [hcons]
      exact List.cons_ne_nil _ _
    · have hskip := @lexemes_skip cd (source.take m) (some c) (source.drop m)
      rw [List.take_append_drop, ← getLast?_cons_or c _ none, Option.or_none] at hskip
      rw [lexemes, if_neg (Nat.lt_irrefl 0), hcons]
      dsimp only
      rw [hcons, List.length_cons, Nat.add_sub_cancel, hskip]

theorem getLast?_append_ne {a b : List Char} (hb : b ≠ []) : (a ++ b).getLast? = b.getLast? := by
  rw [List.getLast?_append, List.getLast?_eq_some_getLast hb]
  rfl

/-- **The scanner stops outside** comments, literals, raw strings and statements, when it ends every
statement where the dialect does. -/
theorem lexemes_outside (hsame : SameEnds cd d source) {ls₁ ls₂ : List Lexeme} {l : Lexeme}
    (h : Outside cd d source before text)
    (hls : lexemes cd before.getLast? 0 text = ls₁ ++ l :: ls₂) :
    ∃ rest, Outside cd d source (before ++ textOf ls₁) (l.text ++ rest) ∧
      l = lexemeAt cd (before ++ textOf ls₁).getLast? (l.text ++ rest) ∧ l.text ≠ [] := by
  induction ls₁ generalizing before text with
  | nil =>
    have hne : text ≠ [] := by
      rintro rfl
      cases hls
    obtain ⟨rest, htext, hlexeme, hround⟩ := @lexemes_round cd text before.getLast? hne
    rw [hround] at hls
    obtain ⟨rfl, -⟩ := List.cons.inj hls
    refine ⟨rest, ?_, ?_, hlexeme⟩
    · rw [textOf, List.flatMap_nil, List.append_nil, ← htext]
      exact h
    · rw [textOf, List.flatMap_nil, List.append_nil, ← htext]
  | cons l' ls₁ ih =>
    have hne : text ≠ [] := by
      rintro rfl
      cases hls
    obtain ⟨rest, htext, hlexeme, hround⟩ := @lexemes_round cd text before.getLast? hne
    rw [hround] at hls
    obtain ⟨hl', htail⟩ := List.cons.inj hls
    rw [hl'] at htext htail hlexeme
    have hpiece := @lexemeAt_piece cd d before.getLast? text hne fun body =>
      hsame before text body h
    have hdrop : text.drop l'.text.length = rest := by rw [htext, List.drop_left]
    rw [hl', hdrop, htext] at hpiece
    rw [htext] at h
    obtain ⟨rest', houtside, hat, hne'⟩ := @ih (before ++ l'.text) rest (.piece h hpiece)
      (by rwa [getLast?_append_ne hlexeme])
    rw [List.append_assoc] at houtside hat
    exact ⟨rest', houtside, hat, hne'⟩

/-! ## Soundness -/

/-- The region `r` is a statement of the source, between `before` and `after`. -/
structure RegionSpan (cd : Codecs) (d : Dialect) (source : List Char) (r : ProcRegion)
    (before after : List Char) : Prop where
  source_eq : before ++ (r.rawText ++ after) = source
  start : r.startByte = (encode before).length
  stop : r.endByte = (encode (before ++ r.rawText)).length
  outside : Outside cd d source before (r.rawText ++ after)
  statement : ∃ body, ExecToken cd before.getLast? (r.rawText ++ after) body ∧
    (Ends d body after ∨ after = [] ∧ (∀ rest, ¬ Ends d body rest) ∧
      unterminated r.startLine ∈ (maskExecutableSql cd source).2.2)

/-- The character at `i` lies in the region. -/
def ProcRegion.Covers (r : ProcRegion) (source : List Char) (i : Nat) : Prop :=
  r.startByte ≤ (encode (source.take i)).length ∧ (encode (source.take i)).length < r.endByte

instance (r : ProcRegion) (source : List Char) (i : Nat) : Decidable (r.Covers source i) :=
  inferInstanceAs (Decidable (_ ∧ _))

/-- What the scanner returns is right: the loop ends; the regions do not overlap and increase; each
is a statement of the source; and they are masked, and nothing else is. -/
structure ScanSound (cd : Codecs) (d : Dialect) (source : List Char) : Prop where
  rounds : (lexemes cd none 0 source).length ≤ source.length
  ordered : (maskExecutableSql cd source).2.1.Pairwise fun r r' => r.endByte ≤ r'.startByte
  increasing : ∀ r ∈ (maskExecutableSql cd source).2.1, r.startByte < r.endByte
  spans : ∀ r ∈ (maskExecutableSql cd source).2.1, ∃ before after,
    RegionSpan cd d source r before after
  masked : ∀ i, (maskExecutableSql cd source).1[i]? = source[i]?.map fun c =>
    if (∃ r ∈ (maskExecutableSql cd source).2.1, r.Covers source i) ∧ c ≠ '\n' then ' ' else c

theorem lexemes_ne (before : Option Char) (source : List Char) :
    ∀ l ∈ lexemes cd before 0 source, l.text ≠ [] := by
  induction hlength : source.length using Nat.strongRecOn generalizing before source with
  | ind n ih =>
    subst hlength
    by_cases hne : source = []
    · subst hne
      intro l hl
      cases hl
    · obtain ⟨rest, htext, hlexeme, hround⟩ := @lexemes_round cd source before hne
      have hshorter : rest.length < source.length := by
        have hpos := List.length_pos_of_ne_nil hlexeme
        have hlength := congrArg List.length htext
        rw [List.length_append] at hlength
        omega
      rw [hround]
      intro l hl
      rcases List.mem_cons.mp hl with rfl | hl
      · exact hlexeme
      · exact ih _ hshorter _ rest rfl l hl

theorem textOf_lexemes (before : Option Char) (source : List Char) :
    textOf (lexemes cd before 0 source) = source := lexemes_text cd before 0 source

/-- No round of the loop is idle. -/
theorem length_lexemes (h : ∀ l ∈ ls, l.text ≠ []) : ls.length ≤ (textOf ls).length := by
  induction ls with
  | nil => exact Nat.le_refl _
  | cons l ls ih =>
    have hpos := List.length_pos_of_ne_nil (h l List.mem_cons_self)
    have hrest := ih fun l' hl' => h l' (List.mem_cons_of_mem _ hl')
    rw [textOf, List.flatMap_cons, List.length_append, List.length_cons]
    rw [textOf] at hrest
    omega

theorem encode_lt {text : List Char} (h : text ≠ []) (before : List Char) :
    (encode before).length < (encode (before ++ text)).length := by
  cases text with
  | nil => exact absurd rfl h
  | cons c text =>
    have hpos := c.utf8Size_pos
    rw [encode_append, List.length_append, length_encode (c :: text), List.map_cons, List.sum_cons]
    omega

/-- The regions lie after the text before them. -/
theorem regions_after {r : ProcRegion} (h : r ∈ regionsAfter before ls) :
    (encode before).length ≤ r.startByte := by
  obtain ⟨ls₁, text, terminated, ls₂, -, rfl⟩ := mem_regionsAfter.mp h
  have hstart : (regionOf (before ++ textOf ls₁) text).startByte =
      (encode (before ++ textOf ls₁)).length := rfl
  rw [hstart, encode_append, List.length_append]
  exact Nat.le_add_right _ _

theorem regions_ordered (before : List Char) (ls : List Lexeme) :
    (regionsAfter before ls).Pairwise fun r r' => r.endByte ≤ r'.startByte := by
  induction ls generalizing before with
  | nil => exact .nil
  | cons l ls ih =>
    cases l with
    | verbatim text => exact ih _
    | block text terminated => exact .cons (fun r' hr' => regions_after hr') (ih _)

theorem regions_increasing (h : ∀ l ∈ ls, l.text ≠ []) {r : ProcRegion}
    (hr : r ∈ regionsAfter before ls) : r.startByte < r.endByte := by
  obtain ⟨ls₁, text, terminated, ls₂, rfl, rfl⟩ := mem_regionsAfter.mp hr
  exact encode_lt (h (.block text terminated) (List.mem_append_right _ List.mem_cons_self)) _

/-! ## The masked text -/

/-- Where a character stands, in bytes. -/
theorem offset_append (before text : List Char) (i : Nat) :
    (encode ((before ++ text).take (before.length + i))).length =
      (encode before).length + (encode (text.take i)).length := by
  rw [List.take_length_add_append, encode_append, List.length_append]

/-- **The masked text**, character by character. -/
theorem output_at (before : List Char) (ls : List Lexeme) (i : Nat) :
    (ls.flatMap Lexeme.output)[i]? = (textOf ls)[i]?.map fun c =>
      if (∃ r ∈ regionsAfter before ls, r.Covers (before ++ textOf ls) (before.length + i)) ∧
        c ≠ '\n' then ' ' else c := by
  induction ls generalizing before i with
  | nil => rfl
  | cons l ls ih =>
    have hlength : l.output.length = l.text.length := by
      cases l with
      | verbatim text => rfl
      | block text terminated => exact List.length_map ..
    have htext : textOf (l :: ls) = l.text ++ textOf ls := List.flatMap_cons
    rw [List.flatMap_cons, htext]
    by_cases hi : i < l.text.length
    · -- in this lexeme
      have hoffset : (encode ((before ++ (l.text ++ textOf ls)).take (before.length + i))).length =
          (encode before).length + (encode (l.text.take i)).length := by
        rw [offset_append, List.take_append_of_le_length (Nat.le_of_lt hi)]
      have hlt : (encode (l.text.take i)).length < (encode l.text).length := by
        have hdrop : l.text.drop i ≠ [] := by
          rw [Ne, List.drop_eq_nil_iff]
          omega
        have hlt := encode_lt hdrop (l.text.take i)
        rwa [List.take_append_drop] at hlt
      have hlater : ∀ r ∈ regionsAfter (before ++ l.text) ls,
          ¬ r.Covers (before ++ (l.text ++ textOf ls)) (before.length + i) := by
        rintro r hr ⟨hstart, -⟩
        have hafter := regions_after hr
        rw [encode_append, List.length_append] at hafter
        rw [hoffset] at hstart
        omega
      rw [List.getElem?_append_left (by omega), List.getElem?_append_left hi]
      cases l with
      | verbatim text =>
        dsimp only [Lexeme.text, Lexeme.output] at hlater ⊢
        have hnone : ¬ ∃ r ∈ regionsAfter before (.verbatim text :: ls),
            r.Covers (before ++ (text ++ textOf ls)) (before.length + i) := by
          rintro ⟨r, hr, hcovers⟩
          exact hlater r hr hcovers
        simp only [hnone, false_and, if_false, Option.map_id']
      | block text terminated =>
        dsimp only [Lexeme.text, Lexeme.output] at hoffset hlt ⊢
        have hsome : ∃ r ∈ regionsAfter before (.block text terminated :: ls),
            r.Covers (before ++ (text ++ textOf ls)) (before.length + i) := by
          refine ⟨regionOf before text, List.mem_cons_self, ?_, ?_⟩
          · rw [hoffset]
            exact Nat.le_add_right _ _
          · have hstop : (regionOf before text).endByte = (encode (before ++ text)).length := rfl
            rw [hoffset, hstop, encode_append, List.length_append]
            exact Nat.add_lt_add_left hlt _
        unfold maskText
        rw [List.getElem?_map]
        congr 1
        funext c
        by_cases hc : c = '\n'
        · simp [hc]
        · simp only [hc, hsome, if_false, ne_eq, not_false_eq_true, and_self, if_true]
    · -- after it
      have hindex : (before ++ l.text).length + (i - l.text.length) = before.length + i := by
        rw [List.length_append]
        omega
      have hearlier : ∀ text, ¬ (regionOf before l.text).Covers
          (before ++ (l.text ++ text)) (before.length + i) := by
        rintro text ⟨-, hstop⟩
        have hend : (regionOf before l.text).endByte = (encode (before ++ l.text)).length := rfl
        rw [hend, ← hindex, ← List.append_assoc, offset_append] at hstop
        omega
      rw [List.getElem?_append_right (by omega), List.getElem?_append_right (by omega), hlength,
        ih (before ++ l.text), hindex, List.append_assoc]
      have hregions : (∃ r ∈ regionsAfter (before ++ l.text) ls,
            r.Covers (before ++ (l.text ++ textOf ls)) (before.length + i)) ↔
          ∃ r ∈ regionsAfter before (l :: ls),
            r.Covers (before ++ (l.text ++ textOf ls)) (before.length + i) := by
        constructor
        · rintro ⟨r, hr, hcovers⟩
          exact ⟨r, mem_regionsAfter_cons.mpr (.inr hr), hcovers⟩
        · rintro ⟨r, hr, hcovers⟩
          rcases mem_regionsAfter_cons.mp hr with ⟨text, terminated, rfl, rfl⟩ | hr
          · exact absurd hcovers (hearlier _)
          · exact ⟨r, hr, hcovers⟩
      simp only [hregions]

/-! ## Where the regions are right -/

theorem Outside.source_eq (h : Outside cd d source before text) : before ++ text = source := by
  induction h with
  | start => rfl
  | piece _ _ ih => rw [List.append_assoc, ih]

/-- **The regions of a source** whose statements end where the dialect ends them. -/
theorem SameEnds.sound (hsame : SameEnds cd d source) : ScanSound cd d source := by
  have hne := @lexemes_ne cd none source
  have htext := @textOf_lexemes cd none source
  refine ⟨?_, regions_ordered _ _, fun r hr => regions_increasing hne hr, fun r hr => ?_,
    fun i => ?_⟩
  · have hrounds := length_lexemes hne
    rwa [htext] at hrounds
  · obtain ⟨ls₁, text, terminated, ls₂, hls, rfl⟩ := mem_regionsAfter.mp hr
    obtain ⟨rest, houtside, hlexeme, -⟩ := lexemes_outside hsame .start hls
    obtain ⟨body, htoken, hends⟩ := lexemeAt_block hlexeme.symm
    refine ⟨textOf ls₁, rest, houtside.source_eq, rfl, rfl, houtside, body, htoken, ?_⟩
    have hend := hsame _ _ _ houtside htoken
    rcases hends with ⟨-, hends⟩ | ⟨rfl, hall, hnone⟩
    · have hrest : (text ++ rest).drop text.length = rest := List.drop_left
      dsimp only [Lexeme.text] at hends
      rw [hrest] at hends
      exact .inl (hend.ends rest hends)
    · have hrest : rest = [] :=
        List.append_cancel_left (hall.symm.trans (List.append_nil text).symm)
      subst hrest
      by_cases hnil : Ends d body []
      · exact .inl hnil
      · refine .inr ⟨rfl, fun rest' hrest' => ?_, ?_⟩
        · by_cases hempty : rest' = []
          · exact hnil (hempty ▸ hrest')
          · exact hnone rest' (hend.only rest' hempty hrest')
        · have hdiagnosed := @mem_diagnosticsAfter [] ls₁ ls₂ text
          rw [← hls] at hdiagnosed
          exact hdiagnosed
  · have hout := output_at [] (lexemes cd none 0 source) i
    rw [htext, List.nil_append, List.length_nil, Nat.zero_add] at hout
    exact hout

theorem unterminated_last (b : Option Char) (source : List Char) {text : List Char} {l : Lexeme}
    (h : .block text false ∈ lexemes cd b 0 source)
    (hlast : (lexemes cd b 0 source).getLast? = some l) : l = .block text false := by
  induction hlength : source.length using Nat.strongRecOn generalizing b source with
  | ind n ih =>
    subst hlength
    have hne : source ≠ [] := by
      rintro rfl
      cases h
    obtain ⟨rest, htext, hlexeme, hround⟩ := @lexemes_round cd source b hne
    rw [hround] at h hlast
    rcases List.mem_cons.mp h with hblock | hrest
    · obtain ⟨body, -, ⟨hfalse, -⟩ | ⟨-, hall, -⟩⟩ := lexemeAt_block hblock.symm
      · cases hfalse
      rw [← hblock] at htext hlast
      have hnil : rest = [] := by
        rw [← hall] at htext
        exact List.append_cancel_left (htext.symm.trans (List.append_nil text).symm)
      rw [hnil] at hlast
      exact (Option.some.inj hlast).symm
    · have hshorter : rest.length < source.length := by
        have hpos := List.length_pos_of_ne_nil hlexeme
        have hlength := congrArg List.length htext
        rw [List.length_append] at hlength
        omega
      refine ih _ hshorter _ rest hrest ?_ rfl
      rw [List.getLast?_cons] at hlast
      cases hlexemes : (lexemes cd (lexemeAt cd b source).text.getLast? 0 rest).getLast? with
      | none =>
        rw [List.getLast?_eq_none_iff.mp hlexemes] at hrest
        cases hrest
      | some l' =>
        rw [hlexemes] at hlast
        exact hlast

/-- The bytes before it place a text in the source. -/
theorem eq_of_length_encode {before' text' : List Char} (h : before ++ text = before' ++ text')
    (hlength : (encode before).length = (encode before').length) : before = before' := by
  rcases List.append_eq_append_iff.mp h with ⟨between, rfl, -⟩ | ⟨between, rfl, -⟩
  · by_contra hne
    have hbetween : between ≠ [] := by
      rintro rfl
      exact hne (List.append_nil before).symm
    have hlt := encode_lt hbetween before
    omega
  · by_contra hne
    have hbetween : between ≠ [] := by
      rintro rfl
      exact hne (List.append_nil before')
    have hlt := encode_lt hbetween before'
    omega

theorem ScanSound.statement (hsound : ScanSound cd d source) {body : List Char}
    (hls : lexemes cd none 0 source = ls ++ lexemes cd before.getLast? 0 text)
    (hbefore : textOf ls = before) (htoken : ExecToken cd before.getLast? text body) :
    ∃ after, after = text.drop (lexemeAt cd before.getLast? text).text.length ∧
      ((Ends d body after ∧ (Ends .scanner body after ∨
          after = [] ∧ ∀ rest, ¬ Ends .scanner body rest)) ∨
        after = [] ∧ (∀ rest, ¬ Ends d body rest) ∧ ∀ rest, ¬ Ends .scanner body rest) := by
  obtain ⟨t, terminated, hblock⟩ : ∃ t terminated,
      lexemeAt cd before.getLast? text = .block t terminated := by
    rw [lexemeAt_token htoken]
    cases terminator 0 0 body <;> exact ⟨_, _, rfl⟩
  obtain ⟨rest, htext, -, hround⟩ := @lexemes_round cd text before.getLast? htoken.ne_nil
  have hsource : before ++ text = source := by
    have htexts := congrArg textOf hls
    rw [textOf_lexemes, textOf, List.flatMap_append] at htexts
    change source = textOf ls ++ textOf (lexemes cd before.getLast? 0 text) at htexts
    rw [hbefore, textOf_lexemes] at htexts
    exact htexts.symm
  rw [hround] at hls
  rw [hblock] at hls htext
  dsimp only [Lexeme.text] at hls htext
  have hdrop : text.drop t.length = rest := by rw [htext, List.drop_left]
  -- the region of the block
  have hregion : regionOf before t ∈ (maskExecutableSql cd source).2.1 :=
    mem_regionsAfter.mpr ⟨ls, t, terminated, _, hls, by rw [hbefore, List.nil_append]⟩
  obtain ⟨before', after', hspan⟩ := hsound.spans _ hregion
  have hbefore' : before' = before :=
    eq_of_length_encode (hspan.source_eq.trans hsource.symm) hspan.start.symm
  subst hbefore'
  have hafter : t ++ after' = text :=
    List.append_cancel_left (hspan.source_eq.trans hsource.symm)
  obtain rfl : after' = rest := List.append_cancel_left (hafter.trans htext)
  obtain ⟨body', htoken', hstatement⟩ := hspan.statement
  have hraw : (regionOf before' t).rawText = t := rfl
  rw [hraw, hafter] at htoken'
  obtain rfl := htoken'.unique htoken
  refine ⟨after', by rw [hblock]; exact hdrop.symm, ?_⟩
  obtain ⟨body'', htoken'', hscanner⟩ := lexemeAt_block hblock
  obtain rfl := htoken''.unique htoken
  rw [hdrop] at hscanner
  rcases hstatement with hends | ⟨hnil, hnone, hdiagnosed⟩
  · refine .inl ⟨hends, ?_⟩
    rcases hscanner with ⟨-, hscanned⟩ | ⟨-, hall, hscanned⟩
    · exact .inl hscanned
    · refine .inr ⟨List.append_cancel_left (hafter.trans ?_), hscanned⟩
      rw [hall, List.append_nil]
  · refine .inr ⟨hnil, hnone, ?_⟩
    rcases hscanner with ⟨hterminated, -⟩ | ⟨-, -, hscanned⟩
    · -- the diagnostic would be of a later block
      subst hnil hterminated
      obtain ⟨text', htext'⟩ := of_mem_diagnosticsAfter hdiagnosed
      have hlast : (lexemes cd none 0 source).getLast? = some (.block t true) := by
        rw [hls, lexemes, List.getLast?_append, List.getLast?_singleton]
        rfl
      cases unterminated_last none source htext' hlast
    · exact hscanned

/-- **A piece of the source ends where the scanner stops**, when the regions are right. -/
theorem outside_lexemes (hsound : ScanSound cd d source) (h : Outside cd d source before text) :
    ∃ ls, lexemes cd none 0 source = ls ++ lexemes cd before.getLast? 0 text ∧
      textOf ls = before := by
  induction h with
  | start => exact ⟨[], rfl, rfl⟩
  | @piece before text rest _ hpiece ih =>
    obtain ⟨ls, hls, hbefore⟩ := ih
    have hne : text ++ rest ≠ [] := hpiece.ne_nil
    obtain ⟨rest', htext, hlexeme, hround⟩ := @lexemes_round cd (text ++ rest) before.getLast? hne
    have hrest : rest = rest' := by
      have hdrop : (text ++ rest).drop (lexemeAt cd before.getLast? (text ++ rest)).text.length =
          rest' := by
        have hdrop := congrArg
          (List.drop (lexemeAt cd before.getLast? (text ++ rest)).text.length) htext
        rwa [List.drop_left] at hdrop
      rcases piece_lexeme hpiece with hlex | ⟨body, htoken, hstatement⟩
      · exact hlex.trans hdrop
      · obtain ⟨after, hafter, hends⟩ := hsound.statement hls hbefore htoken
        rw [hdrop] at hafter
        subst hafter
        rcases hstatement with hends' | ⟨rfl, hnone'⟩ <;>
          rcases hends with ⟨hends, -⟩ | ⟨rfl, hnone, -⟩
        · exact hends'.unique hends
        · exact absurd hends' (hnone _)
        · exact absurd hends (hnone' _)
        · rfl
    subst hrest
    have hsame : text = (lexemeAt cd before.getLast? (text ++ rest)).text :=
      List.append_cancel_right htext
    refine ⟨ls ++ [lexemeAt cd before.getLast? (text ++ rest)], ?_, ?_⟩
    · rw [← hsame] at hround hlexeme
      rw [hls, hround, getLast?_append_ne hlexeme, List.append_assoc]
      rfl
    · rw [textOf, List.flatMap_append, List.flatMap_singleton, ← hsame]
      exact congrArg (· ++ text) hbefore

/-- **The regions of a source are right** exactly when the scanner ends every statement of the
source where the dialect does. -/
theorem scan_sound_iff (cd : Codecs) (d : Dialect) (source : List Char) :
    ScanSound cd d source ↔ SameEnds cd d source := by
  refine ⟨fun hsound before text body houtside htoken => ?_, SameEnds.sound⟩
  obtain ⟨ls, hls, hbefore⟩ := outside_lexemes hsound houtside
  obtain ⟨after, -, ⟨hends, hscanner⟩ | ⟨-, hnone, hscanner⟩⟩ :=
    hsound.statement hls hbefore htoken
  · refine ⟨fun rest hrest => ?_, fun rest hrest hends' => ?_⟩
    · rcases hscanner with hscanned | ⟨-, hscanned⟩
      · rwa [hrest.unique hscanned]
      · exact absurd hrest (hscanned rest)
    · obtain rfl := hends'.unique hends
      rcases hscanner with hscanned | ⟨hnil, -⟩
      · exact hscanned
      · exact absurd hnil hrest
  · exact ⟨fun rest hrest => absurd hrest (hscanner rest),
      fun rest _ hends => absurd hends (hnone rest)⟩

/-- **Every source is right** as the scanner reads it. -/
theorem scanner_regions (cd : Codecs) (source : List Char) : ScanSound cd .scanner source :=
  SameEnds.sound fun _ _ body _ _ => (follows_scanner 0 body).sameEnd

/-- **Statements that the scanner follows** end where the dialect ends them: no `--` comment of them
holds a `;`, a quote, a comment or parentheses out of balance, and no quote is hidden by a
backslash. -/
theorem sameEnds_of_follows (h : ∀ before text body, Outside cd d source before text →
      ExecToken cd before.getLast? text body → Follows d 0 body) : SameEnds cd d source :=
  fun before text body houtside htoken => (h before text body houtside htoken).sameEnd

/-- A statement with a `;` in a comment. -/
def commentedSource : List Char := "EXEC SQL--;\n;".toList

end CortexHarness.Proc
