import CortexHarness.Library.Fallible
import CortexHarness.Library.Firsts
import CortexHarness.Proc.SourceMap

/-!
# The law of line directives

A directive `#line N "file"` opens a region, from the line after it to the next directive, and line
`L` of the region comes from line `N + (L - first)` of the file. The map keeps one entry for each
region of the original file, in character offsets, and its line distance is 0 at the entry's start
and 1 elsewhere.

Results:
* `lineOfPosition_eq`: the binary search finds the line of a position;
* `parse_ok`, `accepted_of_parse`: when the map is built, and what its entries are;
* `lookup_mapped_iff`, `lookup_missing_iff`: what a lookup answers;
* `line_law_iff`: when every span of every line is answered as the directives say.
-/

namespace CortexHarness.Proc

open Offsets Fallible Table

variable (nm : Numerals) (originalPath : String) (text : List Char)

/-! ## Lines and regions -/

/-- The number of bytes of a text in UTF-8. -/
def utf8Length (text : List Char) : Nat := (text.map Char.utf8Size).sum

/-- Where a line starts, in characters. -/
def charStart (i : Nat) : Nat := offset ((linesOf text).map fun line => line.length + 1) i

/-- Where a line starts, in bytes. -/
def byteStart (i : Nat) : Nat := offset ((linesOf text).map fun line => utf8Length line + 1) i

/-- Where a line ends, in bytes, without its newline. -/
def byteEnd (i : Nat) : Nat := byteStart text i + utf8Length ((linesOf text).getD i [])

/-- The line of a position. -/
def lineIndex (pos : Nat) : Nat := (text.take pos).count '\n'

/-- A directive: its line, its number and its file. -/
structure Directive where
  line : Nat
  digits : List Char
  target : String

/-- The directives of the text. -/
def directives : List Directive :=
  (findDirectives nm 0 0 true text).map fun m =>
    { line := lineIndex text m.start, digits := m.number, target := m.target originalPath }

/-- A region: its first line, the line of the next directive, its number and its file. -/
structure Region where
  first : Nat
  next : Nat
  number : Nat
  target : String
  deriving Repr, DecidableEq

/-- The regions that directives open in a text of `lineCount` lines. -/
def regionsOf (lineCount : Nat) : List Directive → List Region
  | [] => []
  | d :: rest =>
    { first := d.line + 1
      next := (rest.head?.map Directive.line).getD lineCount
      number := decimal nm d.digits
      target := d.target } :: regionsOf lineCount rest

/-- The regions of the text. -/
def lineRegions : List Region := regionsOf nm (linesOf text).length (directives nm originalPath text)

/-- The regions of the original file that the map keeps. -/
def keptRegions : List Region :=
  ((lineRegions nm originalPath text).filter fun r =>
    decide (r.first < (linesOf text).length) && decide (r.target = originalPath)).take maxMapEntries

/-- The map is built: no number is too long, and no kept region starts at line 0. -/
def Accepted : Prop :=
  (∀ d ∈ directives nm originalPath text,
    nm.maxStrDigits = 0 ∨ d.digits.length ≤ nm.maxStrDigits) ∧
  ∀ k ∈ keptRegions nm originalPath text, 0 < k.number

/-! ## The line of a position -/

variable {nm originalPath text}

theorem linesOf_newline (text : List Char) : linesOf ('\n' :: text) = [] :: linesOf text := by
  unfold linesOf List.splitOn
  rw [List.splitOnP_cons_eq_if_modifyHead]
  rfl

theorem linesOf_cons {c : Char} (h : c ≠ '\n') (text : List Char) :
    ∃ line rest, linesOf text = line :: rest ∧ linesOf (c :: text) = (c :: line) :: rest := by
  have hne : linesOf text ≠ [] := List.splitOnP_ne_nil _ _
  obtain ⟨line, rest, hlines⟩ := List.exists_cons_of_ne_nil hne
  refine ⟨line, rest, hlines, ?_⟩
  unfold linesOf List.splitOn at hlines ⊢
  rw [List.splitOnP_cons_eq_if_modifyHead, if_neg (by simpa using h), hlines]
  rfl

theorem length_linesOf (text : List Char) : (linesOf text).length = text.count '\n' + 1 := by
  induction text with
  | nil => rfl
  | cons c text ih =>
    by_cases h : c = '\n'
    · subst h
      rw [linesOf_newline, List.length_cons, ih, List.count_cons_self]
    · obtain ⟨line, rest, hlines, hcons⟩ := linesOf_cons h text
      rw [hlines] at ih
      rw [hcons, List.count_cons_of_ne h]
      exact ih

theorem charStart_newline (text : List Char) (j : Nat) :
    charStart ('\n' :: text) (j + 1) = charStart text j + 1 := by
  unfold charStart
  rw [linesOf_newline, List.map_cons, offset_cons]
  simp only [List.length_nil]
  omega

theorem charStart_cons {c : Char} (h : c ≠ '\n') (text : List Char) (j : Nat) :
    charStart (c :: text) (j + 1) = charStart text (j + 1) + 1 := by
  obtain ⟨line, rest, hlines, hcons⟩ := linesOf_cons h text
  unfold charStart
  rw [hlines, hcons, List.map_cons, List.map_cons, offset_cons, offset_cons, List.length_cons]
  omega

theorem charStart_le_iff (text : List Char) (pos j : Nat) (hj : j < (linesOf text).length) :
    charStart text j ≤ pos ↔ j ≤ lineIndex text pos := by
  induction text generalizing pos j with
  | nil =>
    have hj0 : j = 0 := by
      rw [length_linesOf] at hj
      simpa using hj
    subst hj0
    simp [charStart]
  | cons c text ih =>
    cases j with
    | zero => simp [charStart]
    | succ j =>
      cases pos with
      | zero =>
        have hpos : 0 < charStart (c :: text) (j + 1) := by
          by_cases h : c = '\n'
          · subst h
            rw [charStart_newline]
            omega
          · rw [charStart_cons h]
            omega
        have hzero : lineIndex (c :: text) 0 = 0 := rfl
        omega
      | succ pos =>
        by_cases h : c = '\n'
        · subst h
          have hidx : lineIndex ('\n' :: text) (pos + 1) = lineIndex text pos + 1 := by
            unfold lineIndex
            rw [List.take_succ_cons, List.count_cons_self]
          rw [linesOf_newline, List.length_cons] at hj
          rw [charStart_newline, hidx]
          have := ih pos j (by omega)
          omega
        · have hidx : lineIndex (c :: text) (pos + 1) = lineIndex text pos := by
            unfold lineIndex
            rw [List.take_succ_cons, List.count_cons_of_ne h]
          rw [length_linesOf, List.count_cons_of_ne h, ← length_linesOf] at hj
          rw [charStart_cons h, hidx]
          have := ih pos (j + 1) hj
          omega

theorem lineIndex_lt (text : List Char) (pos : Nat) :
    lineIndex text pos < (linesOf text).length := by
  rw [length_linesOf]
  have hle : (text.take pos).count '\n' ≤ text.count '\n' :=
    (List.take_sublist pos text).count_le _
  unfold lineIndex
  omega

theorem lineStarts_eq (text : List Char) :
    lineStarts text = ((List.range (linesOf text).length).map (charStart text),
      charStart text (linesOf text).length) := by
  unfold lineStarts
  rw [layout_eq, List.length_map]
  rfl

theorem getD_lineStarts {i : Nat} (h : i < (linesOf text).length) :
    (lineStarts text).1.getD i 0 = charStart text i := by
  rw [lineStarts_eq]
  simp [h]

/-- **The binary search finds the line of a position.** -/
theorem lineOfPosition_eq (text : List Char) (pos : Nat) :
    lineOfPosition (lineStarts text).1 pos = lineIndex text pos + 1 := by
  have hlen : (lineStarts text).1.length = (linesOf text).length := by
    rw [lineStarts_eq]
    simp
  have hlt := lineIndex_lt text pos
  unfold lineOfPosition
  rw [hlen, bisect_eq (i := lineIndex text pos) (Nat.zero_le _) (by omega)]
  intro j hj
  rw [decide_eq_true_iff, getD_lineStarts (by omega)]
  exact charStart_le_iff text pos j (by omega)

/-! ## Directives stand on lines of their own -/

/-- The newlines before a match, in the text from `pos` on. -/
def newlinesTo (pos : Nat) (text : List Char) (m : DirectiveMatch) : Nat :=
  (text.take (m.start - pos)).count '\n'

theorem newlinesTo_cons {pos : Nat} {c : Char} {text : List Char} {m : DirectiveMatch}
    (h : pos + 1 ≤ m.start) : newlinesTo pos (c :: text) m =
      newlinesTo (pos + 1) text m + if c = '\n' then 1 else 0 := by
  unfold newlinesTo
  obtain ⟨k, hk⟩ := Nat.exists_eq_add_of_le h
  rw [show m.start - pos = k + 1 by omega, show m.start - (pos + 1) = k by omega,
    List.take_succ_cons, List.count_cons]
  simp

/-- The matches in a text from `pos` on: each lies in it and on a later line than the one before,
and one that is not at `pos` has a newline before it. -/
structure OnLines (pos : Nat) (here : Prop) (text : List Char) (ms : List DirectiveMatch) : Prop where
  inside : ∀ m ∈ ms, pos ≤ m.start
  apart : ms.Pairwise fun m m' => newlinesTo pos text m < newlinesTo pos text m'
  anchored : ∀ m ∈ ms, (m.start = pos ∧ here) ∨ 1 ≤ newlinesTo pos text m

theorem OnLines.cons {pos : Nat} {here : Prop} {c : Char} {text : List Char}
    {ms : List DirectiveMatch} (h : OnLines (pos + 1) (c = '\n') text ms) :
    OnLines pos here (c :: text) ms ∧ ∀ m ∈ ms, 1 ≤ newlinesTo pos (c :: text) m := by
  have hpos : ∀ m ∈ ms, 1 ≤ newlinesTo pos (c :: text) m := by
    intro m hm
    rw [newlinesTo_cons (h.inside m hm)]
    rcases h.anchored m hm with ⟨-, rfl⟩ | hle
    · rw [if_pos rfl]
      omega
    · omega
  refine ⟨⟨fun m hm => Nat.le_of_succ_le (h.inside m hm), ?_, fun m hm => .inr (hpos m hm)⟩, hpos⟩
  refine h.apart.imp_of_mem fun {m m'} hm hm' hlt => ?_
  rw [newlinesTo_cons (h.inside m hm), newlinesTo_cons (h.inside m' hm')]
  omega

theorem findDirectives_onLines (nm : Numerals) (text : List Char) (pos skip : Nat)
    (atStart : Bool) : OnLines pos (skip = 0 ∧ atStart = true) text
      (findDirectives nm pos skip atStart text) := by
  induction text generalizing pos skip atStart with
  | nil => exact ⟨by simp [findDirectives], by simp [findDirectives], by simp [findDirectives]⟩
  | cons c text ih =>
    have hnext : ∀ skip', OnLines (pos + 1) (c = '\n') text
        (findDirectives nm (pos + 1) skip' (decide (c = '\n')) text) := by
      intro skip'
      have h := ih (pos + 1) skip' (decide (c = '\n'))
      refine ⟨h.inside, h.apart, fun m hm => ?_⟩
      rcases h.anchored m hm with ⟨hs, -, hc⟩ | hle
      · exact .inl ⟨hs, by simpa using hc⟩
      · exact .inr hle
    unfold findDirectives
    simp only
    by_cases hhere : (decide (0 < skip) || !atStart) = true
    · rw [if_pos hhere]
      exact (hnext _).cons.1
    · rw [if_neg hhere]
      have hat : skip = 0 ∧ atStart = true := by
        rw [Bool.or_eq_true, not_or] at hhere
        simp at hhere
        exact ⟨by omega, by simpa using hhere.2⟩
      cases matchDirective nm (c :: text) with
      | none => exact (hnext _).cons.1
      | some found =>
        obtain ⟨number, path, rest⟩ := found
        obtain ⟨hrest, hlater⟩ : OnLines pos (skip = 0 ∧ atStart = true) (c :: text) _ ∧ _ :=
          (hnext (text.length - rest.length)).cons
        have hzero : newlinesTo pos (c :: text) { start := pos, number, path } = 0 := by
          unfold newlinesTo
          rw [Nat.sub_self]
          rfl
        refine ⟨?_, ?_, ?_⟩
        · intro m hm
          rcases List.mem_cons.mp hm with rfl | hm
          · exact Nat.le_refl _
          · exact hrest.inside m hm
        · refine List.pairwise_cons.mpr ⟨fun m hm => ?_, hrest.apart⟩
          rw [hzero]
          exact hlater m hm
        · intro m hm
          rcases List.mem_cons.mp hm with rfl | hm
          · exact .inl ⟨rfl, hat⟩
          · exact hrest.anchored m hm

theorem directives_sorted (nm : Numerals) (originalPath : String) (text : List Char) :
    (directives nm originalPath text).Pairwise fun d d' => d.line < d'.line := by
  have h := findDirectives_onLines nm text 0 0 true
  unfold directives
  rw [List.pairwise_map]
  exact h.apart

theorem directives_inside {d : Directive} (h : d ∈ directives nm originalPath text) :
    d.line < (linesOf text).length := by
  obtain ⟨m, -, rfl⟩ := List.mem_map.mp h
  exact lineIndex_lt text m.start

/-! ## The map of the text -/

/-- The mark of a directive. -/
def Directive.mark (nm : Numerals) (d : Directive) : Mark :=
  { genLine := d.line + 2, origLine := decimal nm d.digits, target := d.target }

theorem int_ok_iff {digits : List Char} : (∃ n, int nm digits = .ok n) ↔
    nm.maxStrDigits = 0 ∨ digits.length ≤ nm.maxStrDigits := by
  unfold int
  by_cases h : nm.maxStrDigits ≠ 0 ∧ nm.maxStrDigits < digits.length
  · rw [if_pos h]
    simp
    omega
  · rw [if_neg h]
    simp
    omega

theorem int_ok {digits : List Char}
    (h : nm.maxStrDigits = 0 ∨ digits.length ≤ nm.maxStrDigits) :
    int nm digits = .ok (decimal nm digits) := by
  unfold int
  rw [if_neg (by omega)]

theorem marks_ok (h : ∀ d ∈ directives nm originalPath text,
    nm.maxStrDigits = 0 ∨ d.digits.length ≤ nm.maxStrDigits) :
    marks nm originalPath text =
      .ok ((directives nm originalPath text).map (Directive.mark nm)) := by
  unfold marks directives
  rw [List.map_map]
  refine mapM_eq_map fun m hm => ?_
  have hint := int_ok (h _ (List.mem_map_of_mem hm))
  simp only at hint
  rw [hint, lineOfPosition_eq]
  rfl

theorem digits_of_marks {found : List Mark} (h : marks nm originalPath text = .ok found) :
    ∀ d ∈ directives nm originalPath text,
      nm.maxStrDigits = 0 ∨ d.digits.length ≤ nm.maxStrDigits := by
  intro d hd
  obtain ⟨m, hm, rfl⟩ := List.mem_map.mp hd
  obtain ⟨mark, -, hmark⟩ := mapM_item h m hm
  obtain ⟨n, hn, -⟩ := bind_ok.mp hmark
  exact int_ok_iff.mp ⟨n, hn⟩

/-- The region of the code that a region is laid out as. -/
def Region.lay (text : List Char) (r : Region) : LineRegion :=
  { genLineStart := r.first + 1
    genLineEnd := min (r.next + 1) (linesOf text).length
    origLineStart := r.number
    originalPath := r.target
    genByteStart := charStart text r.first
    genByteEnd := charStart text (r.next + 1) }

theorem charStart_beyond {i : Nat} (h : (linesOf text).length ≤ i) :
    charStart text i = charStart text (linesOf text).length := by
  unfold charStart offset
  rw [List.take_of_length_le (by simpa using h), List.take_of_length_le (by simp)]

theorem layEnd_eq {i : Nat} (h : i + 1 < (linesOf text).length) (next : Nat) :
    (if min (next + 1) (linesOf text).length < (linesOf text).length
      then (lineStarts text).1.getD (min (next + 1) (linesOf text).length) 0
      else max (if text.isEmpty then 0 else (lineStarts text).2)
        ((lineStarts text).1.getD (i + 1) 0)) = charStart text (next + 1) := by
  by_cases hlt : next + 1 < (linesOf text).length
  · rw [if_pos (by omega), Nat.min_eq_left (Nat.le_of_lt hlt), getD_lineStarts hlt]
  · have htext : text.isEmpty = false := by
      cases text with
      | nil => exact absurd h (by simp [length_linesOf])
      | cons => rfl
    rw [if_neg (by omega), charStart_beyond (by omega), getD_lineStarts h, htext, lineStarts_eq]
    exact Nat.max_eq_left (offset_mono (Nat.le_of_lt h))

theorem regions_eq (ds : List Directive) (hsorted : ds.Pairwise fun d d' => d.line < d'.line)
    (hinside : ∀ d ∈ ds, d.line < (linesOf text).length) :
    (regions nm originalPath text (ds.map (Directive.mark nm))).1 =
      ((regionsOf nm (linesOf text).length ds).filter fun r =>
        decide (r.first < (linesOf text).length) && decide (r.target = originalPath)).map
          (Region.lay text) := by
  induction ds with
  | nil => rfl
  | cons d rest ih =>
    obtain ⟨hd, hrest⟩ := List.pairwise_cons.mp hsorted
    have hline := hinside d List.mem_cons_self
    have hih := ih hrest fun x hx => hinside x (List.mem_cons_of_mem _ hx)
    have hstop : endLine (linesOf text).length (rest.map (Directive.mark nm)) =
        min ((rest.head?.map Directive.line).getD (linesOf text).length + 1)
          (linesOf text).length := by
      cases rest with
      | nil => simp [endLine]
      | cons d' _ =>
        have hlt := hinside d' (by simp)
        simp only [List.map_cons, endLine, Directive.mark, List.head?_cons, Option.map_some,
          Option.getD_some]
        omega
    have hlen : (lineStarts text).1.length = (linesOf text).length := by
      rw [lineStarts_eq]
      simp
    rw [List.map_cons]
    unfold regions regionsOf
    simp only
    rw [hih, hstop, hlen]
    have hgen : (Directive.mark nm d).genLine = d.line + 2 := rfl
    have htarget : (Directive.mark nm d).target = d.target := rfl
    rw [hgen, htarget]
    -- the region has a line unless its directive stands on the last line of the text
    by_cases hlast : d.line + 1 < (linesOf text).length
    · have hle : d.line + 1 ≤ (rest.head?.map Directive.line).getD (linesOf text).length := by
        cases rest with
        | nil => exact Nat.le_of_lt hlast
        | cons d' _ => exact hd d' List.mem_cons_self
      rw [if_neg (by omega)]
      by_cases hnative : d.target = originalPath
      · rw [if_neg (not_not.mpr hnative), List.filter_cons_of_pos (by simp [hlast, hnative]),
          List.map_cons]
        refine congrArg (· :: _) ?_
        unfold Region.lay
        simp only [LineRegion.mk.injEq]
        refine ⟨trivial, trivial, rfl, trivial, ?_, ?_⟩
        · exact getD_lineStarts hlast
        · exact layEnd_eq hlast _
      · rw [if_pos hnative, List.filter_cons_of_neg (by simp [hnative])]
    · rw [if_pos (by omega), List.filter_cons_of_neg (by simpa using fun h => absurd h hlast)]

theorem charStart_lt {i j : Nat} (h : i < j) (hj : j ≤ (linesOf text).length) :
    charStart text i < charStart text j := by
  refine offset_lt ?_ h (by simpa using hj)
  intro n hn
  obtain ⟨line, -, rfl⟩ := List.mem_map.mp hn
  omega

/-- The entry of a region. -/
def Region.entry (text : List Char) (r : Region) : ProcMapEntry :=
  { generatedStart := charStart text r.first
    generatedEnd := charStart text (r.next + 1)
    originalStart := -1
    originalEnd := -1
    originalPath := r.target
    quality := .lineDirective
    originalStartLine := r.number
    originalEndLine := r.number + (min (r.next + 1) (linesOf text).length - (r.first + 1)) }

theorem lay_entry {r : Region} (h : r.first ≤ r.next + 1) :
    (Region.lay text r).entry =
      if r.number = 0 then .error "map entries require byte or line original coordinates"
      else .ok (r.entry text) := by
  have hle : charStart text r.first ≤ charStart text (r.next + 1) := offset_mono h
  unfold LineRegion.entry ProcMapEntry.validate Region.lay
  simp only
  rw [if_neg (by omega), if_neg (by omega)]
  by_cases hn : r.number = 0
  · rw [if_pos ⟨by omega, hn⟩, if_pos hn]
  · rw [if_neg (fun hc => hn hc.2), if_neg (by omega), if_neg hn]
    rfl

/-- Regions follow each other, and each has its lines in the text. -/
theorem regionsOf_apart (ds : List Directive) (hsorted : ds.Pairwise fun d d' => d.line < d'.line)
    {n : Nat} (hinside : ∀ d ∈ ds, d.line < n) :
    (regionsOf nm n ds).Pairwise (fun r r' => r.next < r'.first) ∧
      (∀ r ∈ regionsOf nm n ds, r.first ≤ r.next ∧ ∃ d ∈ ds, r.first = d.line + 1) := by
  induction ds with
  | nil => exact ⟨List.Pairwise.nil, by simp [regionsOf]⟩
  | cons d rest ih =>
    obtain ⟨hd, hrest⟩ := List.pairwise_cons.mp hsorted
    obtain ⟨hpair, hregions⟩ := ih hrest fun x hx => hinside x (List.mem_cons_of_mem _ hx)
    unfold regionsOf
    constructor
    · refine List.pairwise_cons.mpr ⟨fun r hr => ?_, hpair⟩
      obtain ⟨-, d', hd', hfirst⟩ := hregions r hr
      simp only
      cases rest with
      | nil => cases hd'
      | cons d'' rest =>
        have hle : d''.line ≤ d'.line := by
          rcases List.mem_cons.mp hd' with rfl | hmem
          · exact Nat.le_refl _
          · exact Nat.le_of_lt ((List.pairwise_cons.mp hrest).1 d' hmem)
        simp only [List.head?_cons, Option.map_some, Option.getD_some]
        omega
    · intro r hr
      rcases List.mem_cons.mp hr with rfl | hr
      · refine ⟨?_, d, List.mem_cons_self, rfl⟩
        cases rest with
        | nil => exact hinside d List.mem_cons_self
        | cons d' rest => exact hd d' List.mem_cons_self
      · obtain ⟨hle, d', hd', hfirst⟩ := hregions r hr
        exact ⟨hle, d', List.mem_cons_of_mem _ hd', hfirst⟩

theorem kept_sublist (nm : Numerals) (originalPath : String) (text : List Char) :
    (keptRegions nm originalPath text).Sublist (lineRegions nm originalPath text) :=
  (List.take_sublist _ _).trans List.filter_sublist

theorem kept_apart (nm : Numerals) (originalPath : String) (text : List Char) :
    (keptRegions nm originalPath text).Pairwise (fun r r' => r.next < r'.first) :=
  (regionsOf_apart _ (directives_sorted nm originalPath text)
    fun _ hd => directives_inside hd).1.sublist (kept_sublist nm originalPath text)

theorem kept_mem {r : Region} (h : r ∈ keptRegions nm originalPath text) :
    r ∈ lineRegions nm originalPath text ∧ r.first < (linesOf text).length ∧
      r.target = originalPath ∧ r.first ≤ r.next := by
  have hmem := List.mem_of_mem_take h
  obtain ⟨hr, hp⟩ := List.mem_filter.mp hmem
  simp only [Bool.and_eq_true, decide_eq_true_iff] at hp
  have hall := (regionsOf_apart _ (directives_sorted nm originalPath text)
    fun _ hd => directives_inside hd).2 r hr
  exact ⟨hr, hp.1, hp.2, hall.1⟩

theorem regions_foreign (found : List Mark) :
    ∀ d ∈ (regions nm originalPath text found).2, d.1 = "map_foreign_line_target" := by
  induction found with
  | nil => simp [regions]
  | cons mark rest ih =>
    unfold regions
    simp only
    split
    · exact ih
    · split
      · intro d hd
        rcases List.mem_cons.mp hd with rfl | hd
        · rfl
        · exact ih d hd
      · exact ih

theorem entries_eq (nm : Numerals) (originalPath : String) (text : List Char) :
    (regions nm originalPath text
        ((directives nm originalPath text).map (Directive.mark nm))).1.take maxMapEntries =
      (keptRegions nm originalPath text).map (Region.lay text) := by
  rw [regions_eq _ (directives_sorted nm originalPath text) fun _ hd => directives_inside hd,
    ← List.map_take]
  rfl

theorem invalidReason_none {entries : List ProcMapEntry} {diagnostics : List (String × String)}
    (h : ∀ d ∈ diagnostics, d.1 ≠ "map_invalid") :
    ProcSourceMap.invalidReason { entries, diagnostics } = "" := by
  unfold ProcSourceMap.invalidReason
  rw [List.find?_eq_none.mpr]
  · rfl
  · intro d hd
    simpa using h d hd

/-- **The map of an accepted text** has the entries of the kept regions. -/
theorem parse_ok (h : Accepted nm originalPath text) :
    ∃ map, parseLineDirectiveMap nm originalPath text = .ok map ∧
      map.entries = (keptRegions nm originalPath text).map (Region.entry text) ∧
      map.invalidReason = "" := by
  have hentries : ((keptRegions nm originalPath text).map (Region.lay text)).mapM
      LineRegion.entry = .ok ((keptRegions nm originalPath text).map (Region.entry text)) := by
    have hall : ∀ r ∈ keptRegions nm originalPath text,
        (Region.lay text r).entry = .ok (r.entry text) := by
      intro r hr
      have hpos := h.2 r hr
      rw [lay_entry (Nat.le_succ_of_le (kept_mem hr).2.2.2), if_neg (by omega)]
    rw [List.mapM_map]
    exact mapM_eq_map hall
  unfold parseLineDirectiveMap
  rw [marks_ok h.1]
  simp only [bind, Except.bind]
  rw [entries_eq, hentries]
  refine ⟨_, rfl, rfl, invalidReason_none fun d hd => ?_⟩
  rcases List.mem_append.mp hd with hd | hd
  · rcases List.mem_append.mp hd with hd | hd
    · rw [regions_foreign _ d hd]
      decide
    · split_ifs at hd
      · rw [List.mem_singleton.mp hd]
        simp
      · cases hd
  · split_ifs at hd
    · rw [List.mem_singleton.mp hd]
      simp
    · cases hd

theorem accepted_of_parse {map : ProcSourceMap}
    (h : parseLineDirectiveMap nm originalPath text = .ok map) : Accepted nm originalPath text := by
  unfold parseLineDirectiveMap at h
  obtain ⟨found, hfound, h⟩ := bind_ok.mp h
  have hdigits := digits_of_marks hfound
  obtain ⟨entries, hentries, -⟩ := bind_ok.mp h
  cases (marks_ok hdigits).symm.trans hfound
  rw [entries_eq] at hentries
  refine ⟨hdigits, fun k hk => ?_⟩
  obtain ⟨e, -, he⟩ := mapM_item hentries _ (List.mem_map_of_mem hk)
  rw [lay_entry (Nat.le_succ_of_le (kept_mem hk).2.2.2)] at he
  by_contra hpos
  rw [if_pos (by omega)] at he
  cases he

/-! ## Lookup -/

/-- The kept region holds the span, in characters. -/
def Region.Holds (text : List Char) (r : Region) (start stop : Nat) : Prop :=
  charStart text r.first ≤ start ∧ stop ≤ charStart text (r.next + 1)

theorem covers_iff {r : Region} {start stop : Nat} :
    (r.entry text).covers start stop = true ↔ r.Holds text start stop := by
  unfold ProcMapEntry.covers Region.Holds Region.entry
  rw [Bool.and_eq_true, decide_eq_true_iff, decide_eq_true_iff]

theorem holds_unique {r r' : Region} {start stop : Nat} (hlt : start < stop)
    (hr : r ∈ keptRegions nm originalPath text) (hr' : r' ∈ keptRegions nm originalPath text)
    (h : r.Holds text start stop) (h' : r'.Holds text start stop) : r = r' := by
  have hapart : ∀ a b : Region, a.next < b.first → a.Holds text start stop →
      b.Holds text start stop → False := by
    intro a b hab ha hb
    have hle : charStart text (a.next + 1) ≤ charStart text b.first := offset_mono hab
    have h1 := ha.2
    have h2 := hb.1
    omega
  obtain ⟨i, hi, rfl⟩ := List.getElem_of_mem hr
  obtain ⟨j, hj, rfl⟩ := List.getElem_of_mem hr'
  have hpair := List.pairwise_iff_getElem.mp (kept_apart nm originalPath text)
  rcases Nat.lt_trichotomy i j with hij | rfl | hij
  · exact (hapart _ _ (hpair i j hi hj hij) h h').elim
  · rfl
  · exact (hapart _ _ (hpair j i hj hi hij) h' h).elim

variable {map : ProcSourceMap} {start stop : Nat}

theorem covering_iff (hentries : map.entries =
      (keptRegions nm originalPath text).map (Region.entry text)) {e : ProcMapEntry} :
    e ∈ map.entries.filter (fun e => e.covers start stop) ↔
      ∃ k ∈ keptRegions nm originalPath text, k.Holds text start stop ∧ e = k.entry text := by
  rw [List.mem_filter, hentries, List.mem_map]
  constructor
  · rintro ⟨⟨k, hk, rfl⟩, hc⟩
    exact ⟨k, hk, covers_iff.mp hc, rfl⟩
  · rintro ⟨k, hk, hh, rfl⟩
    exact ⟨⟨k, hk, rfl⟩, covers_iff.mpr hh⟩

theorem lookup_held (hlt : start < stop)
    (hentries : map.entries = (keptRegions nm originalPath text).map (Region.entry text))
    (hvalid : map.invalidReason = "") {k : Region} (hk : k ∈ keptRegions nm originalPath text)
    (hh : k.Holds text start stop) :
    map.lookup start stop = (k.entry text).project start stop := by
  have hall : ∀ e ∈ map.entries.filter (fun e => e.covers start stop), e = k.entry text := by
    intro e he
    obtain ⟨k', hk', hh', rfl⟩ := (covering_iff hentries).mp he
    rw [holds_unique hlt hk' hk hh' hh]
  have hmem : k.entry text ∈ map.entries.filter (fun e => e.covers start stop) :=
    (covering_iff hentries).mpr ⟨k, hk, hh, rfl⟩
  unfold ProcSourceMap.lookup
  rw [if_neg (not_not.mpr hvalid)]
  simp only
  generalize map.entries.filter (fun e => e.covers start stop) = covering at hall hmem
  have hstale : (covering.any fun e => decide (e.quality = .stale)) = false := by
    rw [List.any_eq_false]
    intro e he
    rw [hall e he]
    show ¬ decide (MapQuality.lineDirective = .stale) = true
    decide
  have husable : (covering.filter fun e => e.quality ≠ .missing && e.quality ≠ .invalid) =
      covering := by
    rw [List.filter_eq_self]
    intro e he
    rw [hall e he]
    rfl
  rw [hstale, husable]
  simp only [Bool.false_eq_true, if_false]
  cases covering with
  | nil => cases hmem
  | cons e rest =>
    have htargets : ((e :: rest).map ProcMapEntry.target).dedup.length = 1 := by
      refine dedup_length_one.mpr ⟨by simp, ?_⟩
      intro a ha b hb
      obtain ⟨x, hx, rfl⟩ := List.mem_map.mp ha
      obtain ⟨y, hy, rfl⟩ := List.mem_map.mp hb
      rw [hall x hx, hall y hy]
    simp only
    rw [if_neg (by omega), hall e List.mem_cons_self]

theorem lookup_missing
    (hentries : map.entries = (keptRegions nm originalPath text).map (Region.entry text))
    (hvalid : map.invalidReason = "")
    (hno : ∀ k ∈ keptRegions nm originalPath text, ¬ k.Holds text start stop) :
    (map.lookup start stop).status = .missing := by
  have hnil : map.entries.filter (fun e => e.covers start stop) = [] := by
    rw [List.eq_nil_iff_forall_not_mem]
    intro e he
    obtain ⟨k, hk, hh, -⟩ := (covering_iff hentries).mp he
    exact hno k hk hh
  unfold ProcSourceMap.lookup
  rw [if_neg (not_not.mpr hvalid), hnil]
  rfl

/-- When a lookup maps a span to a line. -/
theorem lookup_mapped_iff (hlt : start < stop) (hparse : Accepted nm originalPath text)
    {line : Nat} :
    (∃ map, parseLineDirectiveMap nm originalPath text = .ok map ∧
        (map.lookup start stop).status = .mapped ∧
        (map.lookup start stop).originalStartLine = line) ↔
      ∃ k ∈ keptRegions nm originalPath text, k.Holds text start stop ∧
        k.number + lineDistance (charStart text k.first) start = line := by
  obtain ⟨map, hmap, hentries, hvalid⟩ := parse_ok hparse
  have hproject : ∀ k ∈ keptRegions nm originalPath text,
      ((k.entry text).project start stop).originalStartLine =
        k.number + lineDistance (charStart text k.first) start := by
    intro k hk
    show (if 0 < k.number then k.number + lineDistance (charStart text k.first) start else 0) = _
    rw [if_pos (hparse.2 k hk)]
  constructor
  · rintro ⟨map', hmap', hstatus, hline⟩
    cases hmap.symm.trans hmap'
    by_cases hheld : ∃ k ∈ keptRegions nm originalPath text, k.Holds text start stop
    · obtain ⟨k, hk, hh⟩ := hheld
      rw [lookup_held hlt hentries hvalid hk hh, hproject k hk] at hline
      exact ⟨k, hk, hh, hline⟩
    · have hmissing := lookup_missing hentries hvalid fun k hk hh => hheld ⟨k, hk, hh⟩
      rw [hmissing] at hstatus
      cases hstatus
  · rintro ⟨k, hk, hh, hline⟩
    have hlookup := lookup_held hlt hentries hvalid hk hh
    refine ⟨map, hmap, ?_, ?_⟩
    · rw [hlookup]
      rfl
    · rw [hlookup, hproject k hk, hline]

/-- When a lookup reports a span as missing. -/
theorem lookup_missing_iff (hlt : start < stop) (hparse : Accepted nm originalPath text) :
    (∃ map, parseLineDirectiveMap nm originalPath text = .ok map ∧
        (map.lookup start stop).status = .missing) ↔
      ∀ k ∈ keptRegions nm originalPath text, ¬ k.Holds text start stop := by
  obtain ⟨map, hmap, hentries, hvalid⟩ := parse_ok hparse
  constructor
  · rintro ⟨map', hmap', hstatus⟩ k hk hh
    cases hmap.symm.trans hmap'
    rw [lookup_held hlt hentries hvalid hk hh] at hstatus
    cases hstatus
  · intro hno
    exact ⟨map, hmap, lookup_missing hentries hvalid hno⟩

/-! ## The law -/

/-- What the directives say of a span of a line: in a region of the original file it comes from the
line of the region's number; before the first directive and in a region of another file it is
missing. -/
structure SpanLaw (nm : Numerals) (originalPath : String) (text : List Char)
    (line start stop : Nat) : Prop where
  native : ∀ r ∈ lineRegions nm originalPath text, r.first ≤ line → line < r.next →
    r.target = originalPath → ∃ map, parseLineDirectiveMap nm originalPath text = .ok map ∧
      (map.lookup start stop).status = .mapped ∧
      (map.lookup start stop).originalStartLine = r.number + (line - r.first)
  foreign : (∀ d ∈ directives nm originalPath text, line < d.line) ∨
    (∃ r ∈ lineRegions nm originalPath text, r.first ≤ line ∧ line < r.next ∧
      r.target ≠ originalPath) → ∃ map, parseLineDirectiveMap nm originalPath text = .ok map ∧
        (map.lookup start stop).status = .missing

/-- The law of every span that is not empty and lies in a line. -/
def LineDirectiveLaw (nm : Numerals) (originalPath : String) (text : List Char) : Prop :=
  ∀ line < (linesOf text).length, ∀ start stop, start < stop → byteStart text line ≤ start →
    stop ≤ byteEnd text line → SpanLaw nm originalPath text line start stop

/-- What the law takes of a line. In a region of the original file: the bytes of the line lie, read
as characters, in a kept region, and either start with it, are a single byte and have its number, or
start later and have the number after. Elsewhere: they meet no kept region. -/
structure LineCondition (nm : Numerals) (originalPath : String) (text : List Char) (line : Nat) :
    Prop where
  native : ∀ r ∈ lineRegions nm originalPath text, r.first ≤ line → line < r.next →
    r.target = originalPath → Accepted nm originalPath text ∧
      ∃ k ∈ keptRegions nm originalPath text,
        k.Holds text (byteStart text line) (byteEnd text line) ∧
        ((byteStart text line = charStart text k.first ∧
            byteEnd text line = byteStart text line + 1 ∧ k.number = r.number + (line - r.first)) ∨
          (charStart text k.first < byteStart text line ∧
            k.number + 1 = r.number + (line - r.first)))
  foreign : (∀ d ∈ directives nm originalPath text, line < d.line) ∨
    (∃ r ∈ lineRegions nm originalPath text, r.first ≤ line ∧ line < r.next ∧
      r.target ≠ originalPath) → Accepted nm originalPath text ∧
        ∀ k ∈ keptRegions nm originalPath text, byteEnd text line ≤ charStart text k.first ∨
          charStart text (k.next + 1) ≤ byteStart text line

theorem byteStart_lt_byteEnd {line : Nat} (h : (linesOf text).getD line [] ≠ []) :
    byteStart text line < byteEnd text line := by
  have hpos : 0 < utf8Length ((linesOf text).getD line []) := by
    obtain ⟨c, rest, hc⟩ := List.exists_cons_of_ne_nil h
    rw [hc]
    have := c.utf8Size_pos
    unfold utf8Length
    rw [List.map_cons, List.sum_cons]
    omega
  unfold byteEnd
  omega

/-- A line maps as its region says exactly when its whole span, and the span without its first byte,
do. -/
theorem native_iff {line expected : Nat}
    (hline : byteStart text line < byteEnd text line) :
    (∀ start stop, start < stop → byteStart text line ≤ start → stop ≤ byteEnd text line →
        ∃ k ∈ keptRegions nm originalPath text, k.Holds text start stop ∧
          k.number + lineDistance (charStart text k.first) start = expected) ↔
      ∃ k ∈ keptRegions nm originalPath text,
        k.Holds text (byteStart text line) (byteEnd text line) ∧
        ((byteStart text line = charStart text k.first ∧
            byteEnd text line = byteStart text line + 1 ∧ k.number = expected) ∨
          (charStart text k.first < byteStart text line ∧ k.number + 1 = expected)) := by
  constructor
  · intro hall
    obtain ⟨k, hk, hh, hnumber⟩ := hall _ _ hline (Nat.le_refl _) (Nat.le_refl _)
    refine ⟨k, hk, hh, ?_⟩
    unfold lineDistance at hnumber
    by_cases hstart : charStart text k.first = byteStart text line
    · rw [if_pos hstart] at hnumber
      refine .inl ⟨hstart.symm, ?_, hnumber⟩
      -- a second byte would be a line further
      by_contra hlong
      have hlt : byteStart text line + 1 < byteEnd text line := by omega
      obtain ⟨k', hk', hh', hnumber'⟩ := hall _ _ hlt (Nat.le_succ _) (Nat.le_refl _)
      have hsame : k = k' :=
        holds_unique hlt hk hk' ⟨Nat.le_succ_of_le hh.1, hh.2⟩ hh'
      subst hsame
      unfold lineDistance at hnumber'
      rw [if_neg (by omega)] at hnumber'
      omega
    · rw [if_neg hstart] at hnumber
      have := hh.1
      exact .inr ⟨by omega, hnumber⟩
  · rintro ⟨k, hk, hh, hcase⟩ start stop hlt hfrom hto
    have h1 := hh.1
    have h2 := hh.2
    refine ⟨k, hk, ⟨by omega, by omega⟩, ?_⟩
    unfold lineDistance
    rcases hcase with ⟨hstart, hone, hnumber⟩ | ⟨hafter, hnumber⟩
    · rw [if_pos (by omega)]
      exact hnumber
    · rw [if_neg (by omega)]
      exact hnumber

theorem foreign_iff {line : Nat} (hline : byteStart text line < byteEnd text line) :
    (∀ start stop, start < stop → byteStart text line ≤ start → stop ≤ byteEnd text line →
        ∀ k ∈ keptRegions nm originalPath text, ¬ k.Holds text start stop) ↔
      ∀ k ∈ keptRegions nm originalPath text, byteEnd text line ≤ charStart text k.first ∨
        charStart text (k.next + 1) ≤ byteStart text line := by
  constructor
  · intro hall k hk
    by_contra hmeet
    simp only [not_or, Nat.not_le] at hmeet
    obtain ⟨hbefore, hafter⟩ := hmeet
    have hregion : charStart text k.first < charStart text (k.next + 1) := by
      obtain ⟨-, hfirst, -, hle⟩ := kept_mem hk
      have hlt : charStart text k.first < charStart text (k.first + 1) :=
        charStart_lt (Nat.lt_succ_self k.first) hfirst
      have hmono : charStart text (k.first + 1) ≤ charStart text (k.next + 1) :=
        offset_mono (by omega)
      omega
    -- the first byte that both have
    refine hall (max (byteStart text line) (charStart text k.first))
      (max (byteStart text line) (charStart text k.first) + 1) ?_ ?_ ?_ k hk ⟨?_, ?_⟩
    all_goals omega
  · rintro hall start stop hlt hfrom hto k hk ⟨hle, hle'⟩
    rcases hall k hk with h | h
    · omega
    · omega

/-- **The law of line directives** holds of a text exactly when every line that is not empty meets
the condition. -/
theorem line_law_iff (nm : Numerals) (originalPath : String) (text : List Char) :
    LineDirectiveLaw nm originalPath text ↔
      ∀ line < (linesOf text).length, (linesOf text).getD line [] ≠ [] →
        LineCondition nm originalPath text line := by
  constructor
  · intro hlaw line hline hne
    have hspan := byteStart_lt_byteEnd hne
    have hwhole := hlaw line hline _ _ hspan (Nat.le_refl _) (Nat.le_refl _)
    constructor
    · intro r hr hfrom hto hnative
      obtain ⟨map, hmap, -⟩ := hwhole.native r hr hfrom hto hnative
      have hparse := accepted_of_parse hmap
      refine ⟨hparse, (native_iff hspan).mp fun start stop hlt hs he => ?_⟩
      have hmapped := (hlaw line hline start stop hlt hs he).native r hr hfrom hto hnative
      exact (lookup_mapped_iff hlt hparse).mp hmapped
    · intro hforeign
      obtain ⟨map, hmap, -⟩ := hwhole.foreign hforeign
      have hparse := accepted_of_parse hmap
      refine ⟨hparse, (foreign_iff hspan).mp fun start stop hlt hs he => ?_⟩
      exact (lookup_missing_iff hlt hparse).mp
        ((hlaw line hline start stop hlt hs he).foreign hforeign)
  · intro hcond line hline start stop hlt hs he
    have hspan : byteStart text line < byteEnd text line := by omega
    have hne : (linesOf text).getD line [] ≠ [] := by
      intro hnil
      unfold byteEnd at hspan
      rw [hnil] at hspan
      simp [utf8Length] at hspan
    have hc := hcond line hline hne
    constructor
    · intro r hr hfrom hto hnative
      obtain ⟨hparse, hkept⟩ := hc.native r hr hfrom hto hnative
      exact (lookup_mapped_iff hlt hparse).mpr ((native_iff hspan).mpr hkept start stop hlt hs he)
    · intro hforeign
      obtain ⟨hparse, hkept⟩ := hc.foreign hforeign
      exact (lookup_missing_iff hlt hparse).mpr
        ((foreign_iff hspan).mpr hkept start stop hlt hs he)

/-- The decimal digits of ASCII. -/
def asciiNumerals : Numerals :=
  { digit := fun c => if c.isDigit then some (c.toNat - '0'.toNat) else none
    maxStrDigits := 4300
    repr := id }

/-- A region of three lines. -/
def sampleGenerated : List Char := "#line 10 \"o.pc\"\na\nb\nc".toList

theorem sampleGenerated_regions : lineRegions asciiNumerals "o.pc" sampleGenerated =
    [{ first := 1, next := 4, number := 10, target := "o.pc" }] := by decide +kernel

/-- **The third line of a region is mapped to the second**: the line distance is never more
than 1. -/
theorem third_line_misplaced :
    ¬ ∀ (nm : Numerals) (originalPath : String) (text : List Char),
      LineDirectiveLaw nm originalPath text := by
  intro h
  have hspan := h asciiNumerals "o.pc" sampleGenerated 3 (by decide) 20 21 (by decide) (by decide)
    (by decide)
  have hmapped := hspan.native { first := 1, next := 4, number := 10, target := "o.pc" }
    (by rw [sampleGenerated_regions]; exact List.mem_singleton_self _) (by decide) (by decide) rfl
  have hparse : Accepted asciiNumerals "o.pc" sampleGenerated := by
    obtain ⟨map, hmap, -⟩ := hmapped
    exact accepted_of_parse hmap
  obtain ⟨k, hk, -, hline⟩ := (lookup_mapped_iff (by decide) hparse).mp hmapped
  have hkept := (kept_mem hk).1
  rw [sampleGenerated_regions] at hkept
  rw [List.mem_singleton.mp hkept] at hline
  exact absurd hline (by decide)

end CortexHarness.Proc
