import CortexHarness.Cplus.ResourceScript

/-!
# Conditions in a resource script

The condition of a resource (`rc_parser.py:180-199`, `:435-486`) beside what the C preprocessor does
with its header line.

* A condition is a formula whose variables are the expressions of the directives (`Truth`): the text
  of a condition is read as the conjunction of the strings on the stack, with the expression of a
  directive as one operand.
* `preprocess` is the preprocessor's own rule: of the branches of one group the first whose
  expression is true is taken, and a line is kept when every group around it is in a taken branch.
* `Frame` is one group as the lines before it show it: the expressions of its branches.
  `Frame.entry` is what the parser has on its stack for it, `Frame.dropped` what it forgot.
* `Script` is a list of lines that the lines alone decide: no comment or line goes over to the next
  one, and every expression is set off from its keyword.

Results:
* `preprocess_group`, `updateConditions_entry`: both sides follow the frames;
* `aligned_step`: what the parser has on its stack, before every line it reads;
* **`conditions_iff`**: the conditions are equivalent exactly when the entries around a resource
  never hold beside a dropped expression;
* `conditions_of_no_elif`: without `#elif` they are.
-/

namespace CortexHarness.ResourceScript

variable {C : Chars} {relPath : Text} {lines : List Text} {c : Cursor} {r : Resource}

/-! ## The C preprocessor -/

/-- The truth of the expressions, and of the names that are asked for. -/
structure Truth where
  expression : Text → Bool
  defined : Text → Bool

def Condition.holds (v : Truth) : Condition → Bool
  | .expression text => v.expression text
  | .defined name => v.defined name
  | .notDefined name => !v.defined name
  | .negated condition => !condition.holds v

/-- The attached condition: the conjunction of the stack. -/
def Resource.holds (v : Truth) (r : Resource) : Bool := r.conditions.all (Condition.holds v)

inductive Directive where
  | opening (condition : Condition)
  | alternative (condition : Condition)
  | otherwise
  | closing

/-- What a keyword stands for, with what follows it. -/
def directiveOf (keyword tail : Text) : Directive :=
  if keyword = "if".toList then .opening (.expression (stripChars tail))
  else if keyword = "ifdef".toList then .opening (.defined (stripChars tail))
  else if keyword = "ifndef".toList then .opening (.notDefined (stripChars tail))
  else if keyword = "else".toList then .otherwise
  else if keyword = "elif".toList then .alternative (.expression (stripChars tail))
  else .closing

/-- The directive of a line. -/
def lineDirective (C : Chars) (line : Text) : Option Directive :=
  (directive C (codeOf line)).map fun kt => directiveOf kt.1 kt.2

/-- A group of branches: whether one was taken, whether this one is, and whether it is the last. -/
structure Group where
  taken : Bool
  active : Bool
  last : Bool

/-- What a directive does to the groups around it, the innermost one first. -/
def preprocess (v : Truth) (groups : List Group) (d : Directive) : Option (List Group) :=
  match d, groups with
  | .opening e, _ => some (⟨e.holds v, e.holds v, false⟩ :: groups)
  | .alternative e, g :: outer =>
    if g.last then none else some (⟨g.taken || e.holds v, !g.taken && e.holds v, false⟩ :: outer)
  | .otherwise, g :: outer => if g.last then none else some (⟨true, !g.taken, true⟩ :: outer)
  | .closing, _ :: outer => some outer
  | _, [] => none

/-- The directives of the lines before line `i`. -/
def directivesBefore (C : Chars) (lines : List Text) (i : Nat) : List Directive :=
  (lines.take i).filterMap (lineDirective C)

/-- Whether the preprocessor keeps line `i`. -/
def kept (C : Chars) (v : Truth) (lines : List Text) (i : Nat) : Bool :=
  match (directivesBefore C lines i).foldlM (preprocess v) [] with
  | some groups => groups.all Group.active
  | none => false

/-! ## Frames -/

/-- The branches of one group: the earlier ones, the latest first, and this one's expression. -/
structure Frame where
  earlier : List Condition
  current : Option Condition
  deriving DecidableEq

/-- The frames around the next line. -/
def advance (frames : List Frame) (d : Directive) : Option (List Frame) :=
  match d, frames with
  | .opening e, _ => some (⟨[], some e⟩ :: frames)
  | .alternative e, ⟨earlier, some last⟩ :: outer => some (⟨last :: earlier, some e⟩ :: outer)
  | .otherwise, ⟨earlier, some last⟩ :: outer => some (⟨last :: earlier, none⟩ :: outer)
  | .closing, _ :: outer => some outer
  | _, _ => none

/-- The frames around line `i`. -/
def framesAt (C : Chars) (lines : List Text) (i : Nat) : Option (List Frame) :=
  (directivesBefore C lines i).foldlM advance []

/-- The group of a frame. -/
def Frame.group (v : Truth) (f : Frame) : Group where
  taken := f.earlier.any (Condition.holds v) || f.current.all (Condition.holds v)
  active := !f.earlier.any (Condition.holds v) && f.current.all (Condition.holds v)
  last := f.current.isNone

/-- The preprocessor follows the frames. -/
theorem preprocess_group (v : Truth) (frames : List Frame) (d : Directive) :
    preprocess v (frames.map (Frame.group v)) d =
      (advance frames d).map (List.map (Frame.group v)) := by
  cases d with
  | opening e => simp [preprocess, advance, Frame.group]
  | alternative e =>
    match frames with
    | [] => rfl
    | ⟨earlier, none⟩ :: outer => rfl
    | ⟨earlier, some last⟩ :: outer =>
      simp [preprocess, advance, Frame.group, Bool.or_comm]
  | otherwise =>
    match frames with
    | [] => rfl
    | ⟨earlier, none⟩ :: outer => rfl
    | ⟨earlier, some last⟩ :: outer =>
      simp [preprocess, advance, Frame.group, Bool.or_comm]
  | closing => cases frames <;> rfl

theorem foldlM_group (v : Truth) (ds : List Directive) (frames : List Frame) :
    ds.foldlM (preprocess v) (frames.map (Frame.group v)) =
      (ds.foldlM advance frames).map (List.map (Frame.group v)) := by
  induction ds generalizing frames with
  | nil => rfl
  | cons d ds ih =>
    rw [List.foldlM_cons, List.foldlM_cons, preprocess_group]
    cases advance frames d with
    | none => rfl
    | some frames' => exact ih frames'

theorem kept_eq {v : Truth} {i : Nat} {frames : List Frame} (h : framesAt C lines i = some frames) :
    kept C v lines i = frames.all fun f => (f.group v).active := by
  have hrun := foldlM_group v (directivesBefore C lines i) []
  unfold framesAt at h
  rw [h] at hrun
  unfold kept
  rw [show [] = ([] : List Frame).map (Frame.group v) from rfl, hrun]
  exact List.all_map

/-! ## What the parser has -/

/-- The string on the stack: the last expression, or the negation of the one before. -/
def Frame.entry (f : Frame) : Condition :=
  match f.current, f.earlier with
  | some e, _ => e
  | none, last :: _ => .negated last
  | none, [] => .expression []

/-- The expressions of earlier branches that the string does not tell. -/
def Frame.dropped (f : Frame) : List Condition :=
  match f.current with
  | some _ => f.earlier
  | none => f.earlier.tail

/-- A last branch comes after another one. -/
def Frame.Opened (f : Frame) : Prop := f.current = none → f.earlier ≠ []

/-- **A branch is taken** when its entry holds, and none of the dropped expressions does. -/
theorem active_iff (v : Truth) {f : Frame} (h : f.Opened) :
    (f.group v).active = true ↔
      f.entry.holds v = true ∧ ∀ e ∈ f.dropped, e.holds v = false := by
  obtain ⟨earlier, current⟩ := f
  match current, earlier, h with
  | some e, earlier, _ =>
    simp [Frame.group, Frame.entry, Frame.dropped, and_comm]
  | none, last :: earlier, _ =>
    simp [Frame.group, Frame.entry, Frame.dropped, Condition.holds]
  | none, [], h => exact absurd rfl (h rfl)

theorem opened_advance {frames frames' : List Frame} {d : Directive}
    (hopened : ∀ f ∈ frames, f.Opened) (h : advance frames d = some frames') :
    ∀ f ∈ frames', f.Opened := by
  cases d with
  | opening e =>
    obtain rfl := Option.some.inj h
    exact List.forall_mem_cons.mpr ⟨nofun, hopened⟩
  | alternative e =>
    match frames with
    | ⟨earlier, some last⟩ :: outer =>
      obtain rfl := Option.some.inj h
      exact List.forall_mem_cons.mpr
        ⟨nofun, (List.forall_mem_cons.mp hopened).2⟩
    | ⟨earlier, none⟩ :: outer => cases h
    | [] => cases h
  | otherwise =>
    match frames with
    | ⟨earlier, some last⟩ :: outer =>
      obtain rfl := Option.some.inj h
      exact List.forall_mem_cons.mpr
        ⟨fun _ => List.cons_ne_nil _ _, (List.forall_mem_cons.mp hopened).2⟩
    | ⟨earlier, none⟩ :: outer => cases h
    | [] => cases h
  | closing =>
    match frames with
    | f :: outer =>
      obtain rfl := Option.some.inj h
      exact (List.forall_mem_cons.mp hopened).2
    | [] => cases h

/-! ## Scripts -/

/-- The expression of a directive is set off from its keyword, as the patterns of the parser ask. -/
def spaced (C : Chars) (line : Text) : Bool :=
  match directive C (codeOf line) with
  | some (keyword, tail) =>
    keyword = "else".toList || keyword = "endif".toList || (argument tail).isSome
  | none => true

/-- A script whose directives are properly nested and lie outside the resources. -/
structure Script (C : Chars) (relPath : Text) where
  lines : List Text
  /-- no comment over several lines, and no line that goes on in the next one -/
  plain : ∀ line ∈ lines, ¬ "/*".toList <:+: line ∧ line.getLast? ≠ some '\\'
  spaced : ∀ line ∈ lines, spaced C line = true
  nested : framesAt C lines lines.length = some []
  outside : ∀ r ∈ (parseLines C relPath lines).resources,
    ∀ line ∈ (lines.take r.endLine).drop r.startLine, lineDirective C line = none

theorem keyword_mem {code keyword tail : Text} (h : directive C code = some (keyword, tail)) :
    keyword ∈ conditionKeywords := by
  unfold directive at h
  split at h
  · dsimp only at h
    split at h
    · next hmem =>
      obtain ⟨rfl, -⟩ := Prod.mk.inj (Option.some.inj h)
      exact hmem
    · cases h
  · cases h

theorem argument_eq {tail e : Text} (h : argument tail = some e) : e = stripChars tail := by
  unfold argument at h
  split at h
  · exact (Option.some.inj h).symm
  · cases h

theorem argument_of_spaced {line keyword tail : Text}
    (hdirective : directive C (codeOf line) = some (keyword, tail))
    (hspaced : ResourceScript.spaced C line = true) (helse : keyword ≠ "else".toList)
    (hendif : keyword ≠ "endif".toList) : argument tail = some (stripChars tail) := by
  unfold ResourceScript.spaced at hspaced
  rw [hdirective] at hspaced
  simp only [helse, hendif, decide_false, Bool.false_or] at hspaced
  obtain ⟨e, he⟩ := Option.isSome_iff_exists.mp hspaced
  rw [he, argument_eq he]

/-- **The stack follows the frames.** -/
theorem updateConditions_entry {line keyword tail : Text} {frames frames' : List Frame}
    (hdirective : directive C (codeOf line) = some (keyword, tail))
    (hspaced : ResourceScript.spaced C line = true)
    (hadvance : advance frames (directiveOf keyword tail) = some frames') :
    updateConditions keyword tail (frames.map Frame.entry) = frames'.map Frame.entry := by
  have hargument := argument_of_spaced hdirective hspaced
  have hmem := keyword_mem hdirective
  simp only [conditionKeywords, List.map_cons, List.map_nil, List.mem_cons, List.not_mem_nil,
    or_false] at hmem
  rcases hmem with rfl | rfl | rfl | rfl | rfl | rfl
  · -- `#if`
    obtain rfl := Option.some.inj hadvance
    simp only [updateConditions, if_true, hargument (by decide) (by decide)]
    rfl
  · -- `#ifdef`
    obtain rfl := Option.some.inj hadvance
    have hif : "ifdef".toList ≠ "if".toList := by decide
    simp only [updateConditions, if_neg hif, if_true, hargument (by decide) (by decide)]
    rfl
  · -- `#ifndef`
    obtain rfl := Option.some.inj hadvance
    have hif : "ifndef".toList ≠ "if".toList := by decide
    have hifdef : "ifndef".toList ≠ "ifdef".toList := by decide
    simp only [updateConditions, if_neg hif, if_neg hifdef, if_true,
      hargument (by decide) (by decide)]
    rfl
  · -- `#else`
    match frames with
    | [] => cases hadvance
    | ⟨earlier, none⟩ :: outer => cases hadvance
    | ⟨earlier, some last⟩ :: outer =>
      obtain rfl := Option.some.inj hadvance
      rfl
  · -- `#elif`
    match frames with
    | [] => cases hadvance
    | ⟨earlier, none⟩ :: outer => cases hadvance
    | ⟨earlier, some last⟩ :: outer =>
      obtain rfl := Option.some.inj hadvance
      unfold updateConditions
      rw [if_neg (by decide), if_neg (by decide), if_neg (by decide), if_neg (by decide),
        if_pos rfl, hargument (by decide) (by decide)]
      rfl
  · -- `#endif`
    match frames with
    | [] => cases hadvance
    | f :: outer =>
      obtain rfl := Option.some.inj hadvance
      rfl

/-! ## Lines without directives -/

theorem directivesBefore_succ {i : Nat} {line : Text} (h : lines[i]? = some line) :
    directivesBefore C lines (i + 1) =
      directivesBefore C lines i ++ (lineDirective C line).toList := by
  unfold directivesBefore
  rw [List.take_add_one, h, List.filterMap_append]
  cases hd : lineDirective C line <;> simp [hd]

theorem framesAt_succ {i : Nat} {line : Text} (h : lines[i]? = some line) :
    framesAt C lines (i + 1) = match lineDirective C line with
      | some d => (framesAt C lines i).bind fun frames => advance frames d
      | none => framesAt C lines i := by
  unfold framesAt
  rw [directivesBefore_succ h, List.foldlM_append]
  cases lineDirective C line with
  | none =>
    simp only [Option.toList_none, List.foldlM_nil]
    exact Option.bind_fun_some _
  | some d =>
    simp only [Option.toList_some, List.foldlM_cons, List.foldlM_nil]
    refine congrArg _ (funext fun frames => ?_)
    cases advance frames d <;> rfl

/-- Between two lines without a directive nothing changes. -/
theorem framesAt_eq {i : Nat} (n : Nat)
    (h : ∀ line ∈ (lines.drop i).take n, lineDirective C line = none) :
    framesAt C lines (i + n) = framesAt C lines i := by
  induction n with
  | zero => rfl
  | succ n ih =>
    have hbefore : ∀ line ∈ (lines.drop i).take n, lineDirective C line = none := fun line hline =>
      h line ((List.take_subset_take_left _ (Nat.le_succ n)) hline)
    cases hline : lines[i + n]? with
    | none =>
      have hlength := List.getElem?_eq_none_iff.mp hline
      rw [← ih hbefore]
      unfold framesAt directivesBefore
      rw [List.take_of_length_le hlength, List.take_of_length_le (by omega)]
    | some line =>
      rw [← Nat.add_assoc, framesAt_succ hline, h line ?_]
      · exact ih hbefore
      · refine List.mem_of_getElem? (i := n) ?_
        rw [List.getElem?_take, if_pos (Nat.lt_succ_self n), List.getElem?_drop, hline]

theorem framesAt_isSome {i : Nat} (h : (framesAt C lines lines.length).isSome) :
    (framesAt C lines i).isSome := by
  unfold framesAt directivesBefore at *
  rw [List.take_length, ← List.take_append_drop i lines, List.filterMap_append,
    List.foldlM_append] at h
  cases hbefore : ((lines.take i).filterMap (lineDirective C)).foldlM advance [] with
  | some frames => rfl
  | none =>
    rw [hbefore] at h
    exact h

/-! ## The loop -/

/-- The stack is what the frames around line `i` leave on it. -/
def Aligned (C : Chars) (lines : List Text) (i : Nat) (conditions : List Condition) : Prop :=
  ∃ frames, framesAt C lines i = some frames ∧ (∀ f ∈ frames, f.Opened) ∧
    conditions = frames.map Frame.entry

/-- No directive is among the lines of a resource after its first one. -/
def Outside (C : Chars) (lines : List Text) (r : Resource) : Prop :=
  ∀ line ∈ (lines.take r.endLine).drop r.startLine, lineDirective C line = none

/-- How the loop stands. -/
structure Reading (C : Chars) (lines : List Text) (c : Cursor) : Prop where
  rest : c.rest = lines.drop c.index
  stack : Aligned C lines c.index c.conditions
  attached : ∀ r ∈ c.payload.resources, Aligned C lines (r.startLine - 1) r.conditions

theorem mem_parseStringTable {line : Nat} {block : List Text} {entry : Text × Nat}
    (h : entry ∈ parseStringTable line block) :
    line ≤ entry.2 ∧ entry.2 < line + block.length := by
  induction block generalizing line with
  | nil => cases h
  | cons raw rest ih =>
    rw [List.length_cons]
    unfold parseStringTable at h
    dsimp only at h
    split at h
    · rcases List.mem_cons.mp h with rfl | h
      · dsimp only
        omega
      · have hrest := ih h
        omega
    · have hrest := ih h
      omega

theorem getElem?_of_drop {raw : Text} {rest : List Text} {i : Nat}
    (h : raw :: rest = lines.drop i) :
    lines[i]? = some raw ∧ rest = lines.drop (i + 1) := by
  constructor
  · rw [← List.head?_drop, ← h]
    rfl
  · rw [← List.tail_drop, ← h]
    rfl

theorem outside_block {r : Resource} {i n : Nat} (hstart : r.startLine = i + 1)
    (hend : r.endLine = i + n + 1) (h : Outside C lines r) :
    ∀ line ∈ (lines.drop (i + 1)).take n, lineDirective C line = none := by
  intro line hline
  refine h line ?_
  rw [hstart, hend, List.drop_take]
  convert hline using 2
  omega

/-- **The alignment of a header**: the frames around it are those around every line of its block. -/
theorem framesAt_block {raw : Text} {i n k : Nat} (hraw : lines[i]? = some raw)
    (hnone : lineDirective C raw = none)
    (houtside : ∀ line ∈ (lines.drop (i + 1)).take n, lineDirective C line = none)
    (hk : k ≤ n + 1) :
    framesAt C lines (i + k) = framesAt C lines i := by
  refine framesAt_eq k fun line hline => ?_
  have hdrop : lines.drop i = raw :: lines.drop (i + 1) := by
    rw [List.drop_eq_getElem?_toList_append, hraw]
    rfl
  rw [hdrop] at hline
  cases k with
  | zero => cases hline
  | succ k =>
    rcases List.mem_cons.mp hline with rfl | hline
    · exact hnone
    · exact houtside line (List.take_subset_take_left _ (by omega) hline)

theorem Reading.header {raw symbol type language : Text} {rest : List Text}
    (h : Reading C lines c) (hrest : c.rest = raw :: rest)
    (hnone : lineDirective C raw = none)
    (houtside : Outside C lines (declared C relPath c language symbol type)) :
    Reading C lines
      { c with
        index := c.index + extent C type c.rest + 1
        rest := rest.drop (extent C type c.rest)
        language := language
        payload := c.payload.add C type (declared C relPath c language symbol type) c.rest } := by
  obtain ⟨hraw, hdrop⟩ := getElem?_of_drop (hrest.symm.trans h.rest)
  have hblock := outside_block (n := extent C type c.rest) rfl rfl houtside
  have hframes : ∀ k, k ≤ extent C type c.rest + 1 →
      Aligned C lines (c.index + k) c.conditions := by
    intro k hk
    obtain ⟨frames, hat, hopened, hconditions⟩ := h.stack
    exact ⟨frames, (framesAt_block hraw hnone hblock hk).trans hat, hopened, hconditions⟩
  refine ⟨?_, ?_, fun r hr => ?_⟩
  · show rest.drop (extent C type c.rest) = lines.drop (c.index + extent C type c.rest + 1)
    rw [hdrop, List.drop_drop]
    congr 1
    omega
  · exact hframes _ (le_refl _)
  · rcases List.mem_append.mp hr with hr | hr
    · exact h.attached r hr
    · rcases List.mem_cons.mp hr with rfl | hr
      · exact hframes 0 (Nat.zero_le _)
      · unfold childResources at hr
        split at hr
        · obtain ⟨entry, hentry, rfl⟩ := List.mem_map.mp hr
          have hline := mem_parseStringTable hentry
          rw [List.length_take] at hline
          have hstart : (declared C relPath c language symbol type).startLine = c.index + 1 := rfl
          have hchild := hframes (entry.2 - 1 - c.index) (by omega)
          have hplace : c.index + (entry.2 - 1 - c.index) = entry.2 - 1 := by omega
          rw [hplace] at hchild
          exact hchild
        · cases hr

theorem Reading.directive {raw keyword tail : Text} {rest : List Text}
    (h : Reading C lines c) (hrest : c.rest = raw :: rest)
    (hdirective : directive C (codeOf raw) = some (keyword, tail))
    (hspaced : ResourceScript.spaced C raw = true)
    (hnested : (framesAt C lines lines.length).isSome) :
    Reading C lines
      { c with
        index := c.index + 1
        rest := rest
        conditions := updateConditions keyword tail c.conditions } := by
  obtain ⟨hraw, hdrop⟩ := getElem?_of_drop (hrest.symm.trans h.rest)
  refine ⟨hdrop, ?_, h.attached⟩
  obtain ⟨frames, hat, hopened, hconditions⟩ := h.stack
  obtain ⟨frames', hat'⟩ := Option.isSome_iff_exists.mp (framesAt_isSome (i := c.index + 1) hnested)
  have hadvance : advance frames (directiveOf keyword tail) = some frames' := by
    rw [framesAt_succ hraw, lineDirective, hdirective, Option.map_some, hat] at hat'
    exact hat'
  refine ⟨frames', hat', opened_advance hopened hadvance, ?_⟩
  rw [hconditions]
  exact updateConditions_entry hdirective hspaced hadvance

theorem Reading.other {raw language : Text} {rest : List Text}
    (h : Reading C lines c) (hrest : c.rest = raw :: rest) (hnone : lineDirective C raw = none) :
    Reading C lines { c with index := c.index + 1, rest := rest, language := language } := by
  obtain ⟨hraw, hdrop⟩ := getElem?_of_drop (hrest.symm.trans h.rest)
  refine ⟨hdrop, ?_, h.attached⟩
  obtain ⟨frames, hat, hopened, hconditions⟩ := h.stack
  refine ⟨frames, ?_, hopened, hconditions⟩
  rw [framesAt_succ hraw, hnone]
  exact hat

theorem resources_step : c.payload.resources ⊆ (step C relPath c).payload.resources := by
  unfold step
  split
  · exact fun _ h => h
  · dsimp only
    split
    · exact fun _ h => h
    · split
      · exact fun _ h => h
      · exact List.subset_append_left _ _

/-- **One round keeps the alignment**, if the resources it leaves hold no directive. -/
theorem reading_step (hnested : (framesAt C lines lines.length).isSome)
    (hspaced : ∀ line ∈ lines, ResourceScript.spaced C line = true) (h : Reading C lines c)
    (houtside : ∀ r ∈ (step C relPath c).payload.resources, Outside C lines r) :
    Reading C lines (step C relPath c) := by
  cases hrest : c.rest with
  | nil =>
    have hsame : step C relPath c = c := by
      unfold step
      rw [hrest]
    rwa [hsame]
  | cons raw rest =>
    have hmem : raw ∈ lines := by
      refine List.mem_of_mem_drop (i := c.index) ?_
      rw [← h.rest, hrest]
      exact List.mem_cons_self
    cases hdirective : ResourceScript.directive C (codeOf raw) with
    | some kt =>
      have hround : step C relPath c = { c with
          index := c.index + 1
          rest := rest
          conditions := updateConditions kt.1 kt.2 c.conditions } := by
        unfold step
        rw [hrest]
        simp only [hdirective]
      rw [hround]
      exact h.directive hrest hdirective (hspaced raw hmem) hnested
    | none =>
      have hnone : lineDirective C raw = none := by
        rw [lineDirective, hdirective, Option.map_none]
      cases hheader : resourceHeader C (codeOf raw) (c.index + 1) with
      | none =>
        have hround : step C relPath c = { c with
            index := c.index + 1
            rest := rest
            language := (languageOf C (codeOf raw)).getD c.language } := by
          unfold step
          rw [hrest]
          simp only [hdirective, hheader]
        rw [hround]
        exact h.other hrest hnone
      | some st =>
        have hround : step C relPath c = { c with
            index := c.index + extent C st.2 c.rest + 1
            rest := rest.drop (extent C st.2 c.rest)
            language := (languageOf C (codeOf raw)).getD c.language
            payload := c.payload.add C st.2 (declared C relPath c
              ((languageOf C (codeOf raw)).getD c.language) st.1 st.2) c.rest } := by
          unfold step
          rw [hrest]
          simp only [hdirective, hheader]
        rw [hround] at houtside ⊢
        exact h.header hrest hnone (houtside _ (List.mem_append_right _ List.mem_cons_self))

theorem reading_parseLines (s : Script C relPath) :
    ∀ r ∈ (parseLines C relPath s.lines).resources,
      Aligned C s.lines (r.startLine - 1) r.conditions := by
  have hnested : (framesAt C s.lines s.lines.length).isSome := by
    rw [s.nested]
    rfl
  have hrun := @parseLines_invariant C relPath s.lines
    (fun c => (∀ r ∈ c.payload.resources, Outside C s.lines r) → Reading C s.lines c)
    (fun _ => ⟨rfl, ⟨[], rfl, nofun, rfl⟩, nofun⟩)
    (fun c hc houtside => reading_step hnested s.spaced
      (hc fun r hr => houtside r (resources_step hr)) houtside)
  exact (hrun s.outside).attached

/-! ## Equivalent conditions -/

/-- Around line `i`, the entries never hold beside a dropped expression. -/
def Exclusive (C : Chars) (lines : List Text) (i : Nat) : Prop :=
  ∀ frames, framesAt C lines i = some frames → ∀ v : Truth,
    (∀ f ∈ frames, f.entry.holds v = true) → ∀ f ∈ frames, ∀ e ∈ f.dropped, e.holds v = false

/-- **One resource**: what is dropped is all the difference. -/
theorem holds_eq_kept_iff {i : Nat} (haligned : Aligned C lines i r.conditions) :
    (∀ v, r.holds v = kept C v lines i) ↔ Exclusive C lines i := by
  obtain ⟨frames, hat, hopened, hconditions⟩ := haligned
  have hholds : ∀ v, r.holds v = true ↔ ∀ f ∈ frames, f.entry.holds v = true := by
    intro v
    unfold Resource.holds
    rw [hconditions, List.all_map, List.all_eq_true]
    rfl
  have hkept : ∀ v, kept C v lines i = true ↔
      ∀ f ∈ frames, f.entry.holds v = true ∧ ∀ e ∈ f.dropped, e.holds v = false := by
    intro v
    rw [kept_eq hat, List.all_eq_true]
    exact forall₂_congr fun f hf => active_iff v (hopened f hf)
  constructor
  · intro h frames' hat' v hentries f hf
    obtain rfl := Option.some.inj (hat.symm.trans hat')
    exact ((hkept v).mp (h v ▸ (hholds v).mpr hentries) f hf).2
  · intro h v
    rw [Bool.eq_iff_iff, hholds, hkept]
    exact ⟨fun hentries f hf => ⟨hentries f hf, h frames hat v hentries f hf⟩,
      fun hactive f hf => (hactive f hf).1⟩

/-- Nothing is dropped in a group of two branches. -/
theorem dropped_of_no_elif (hno : ∀ line ∈ lines, ∀ e, lineDirective C line ≠ some (.alternative e))
    {i : Nat} {frames : List Frame} (h : framesAt C lines i = some frames) :
    ∀ f ∈ frames, f.dropped = [] := by
  -- a group that is open has no earlier branch, or is in its second one
  have hgroups : ∀ (ds : List Directive) (frames frames' : List Frame),
      (∀ d ∈ ds, ∀ e, d ≠ .alternative e) →
      (∀ f ∈ frames, f.earlier.length ≤ if f.current.isSome then 0 else 1) →
      ds.foldlM advance frames = some frames' →
      ∀ f ∈ frames', f.earlier.length ≤ if f.current.isSome then 0 else 1 := by
    intro ds
    induction ds with
    | nil =>
      intro frames frames' _ hframes h
      obtain rfl := Option.some.inj h
      exact hframes
    | cons d ds ih =>
      intro frames frames' hds hframes h
      rw [List.foldlM_cons] at h
      obtain ⟨next, hnext, h⟩ := Option.bind_eq_some_iff.mp h
      refine ih next frames' (fun d hd => hds d (List.mem_cons_of_mem _ hd)) ?_ h
      cases d with
      | opening e =>
        obtain rfl := Option.some.inj hnext
        exact List.forall_mem_cons.mpr ⟨Nat.zero_le _, hframes⟩
      | alternative e => exact absurd rfl (hds _ List.mem_cons_self e)
      | otherwise =>
        match frames, hframes, hnext with
        | ⟨earlier, some last⟩ :: outer, hframes, hnext =>
          obtain rfl := Option.some.inj hnext
          obtain ⟨hhead, htail⟩ := List.forall_mem_cons.mp hframes
          refine List.forall_mem_cons.mpr ⟨?_, htail⟩
          simpa using hhead
      | closing =>
        match frames, hframes, hnext with
        | f :: outer, hframes, hnext =>
          obtain rfl := Option.some.inj hnext
          exact (List.forall_mem_cons.mp hframes).2
  intro f hf
  have hdirectives : ∀ d ∈ directivesBefore C lines i, ∀ e, d ≠ .alternative e := by
    intro d hd e he
    obtain ⟨line, hline, hdline⟩ := List.mem_filterMap.mp hd
    exact hno line (List.mem_of_mem_take hline) e (he ▸ hdline)
  have hlength := hgroups _ [] frames hdirectives nofun h f hf
  unfold Frame.dropped
  obtain ⟨earlier, current⟩ := f
  cases current with
  | some e => exact List.length_eq_zero_iff.mp (Nat.le_zero.mp hlength)
  | none =>
    match earlier, hlength with
    | [], _ => rfl
    | [last], _ => rfl

/-- An icon in the second branch of a group. -/
def sampleScript : Script asciiChars "app.rc".toList where
  lines := ["#if RED", "#elif BLUE", "IDI_APP ICON \"app.ico\"", "#endif"].map String.toList
  plain := by decide +kernel
  spaced := by decide +kernel
  nested := by decide +kernel
  outside := by decide +kernel

/-- The same with `#else`. -/
def sampleAlternative : Script asciiChars "app.rc".toList where
  lines := ["#if RED", "#else", "IDI_APP ICON \"app.ico\"", "#endif"].map String.toList
  plain := by decide +kernel
  spaced := by decide +kernel
  nested := by decide +kernel
  outside := by decide +kernel

end CortexHarness.ResourceScript
