import CortexHarness.Library.Fallible
import CortexHarness.Library.Latest
import CortexHarness.Library.Words
import CortexHarness.Messages.Scan
import Mathlib.Data.List.Perm.Subperm

/-!
# Dependency manifests and reverse invalidation

Model of `parse_dependency_manifest` and `ReverseInvalidationIndex`
(`semantic_context.py:318-402`), beside the manifest that Clang writes.

* A file is its decoded text; its size is the size of the text in UTF-8.
* `Manifest` is a rule in make's format: an object file that depends on the prerequisites, each
  after a blank or on a line of its own (`Manifest.write`). A backslash at the end of the rule
  would continue it, so the last path does not end in one.
* The index is a dict of sets; a set is a list without repetition.

Results:
* `tokens_write`: prerequisites without blanks are the tokens of the rule, still escaped;
* `parsed_iff`: the parser returns every prerequisite exactly when it reads each of them as it
  stands (`Legible`), and they are not more than the cap;
* **`nothing_missed_iff`**: so with the index, for every list of units.
-/

namespace CortexHarness.Dependencies

open Table

abbrev Text := List Char

/-! ## The parser -/

/-- `body = text.replace("\\\n", " ")` -/
def joinContinued : Text → Text
  | '\\' :: '\n' :: rest => ' ' :: joinContinued rest
  | c :: rest => c :: joinContinued rest
  | [] => []

/-- What `open(path, "r")` reads for the ends of lines. -/
def universalNewlines : Text → Text
  | '\r' :: '\n' :: rest => '\n' :: universalNewlines rest
  | '\r' :: rest => '\n' :: universalNewlines rest
  | c :: rest => c :: universalNewlines rest
  | [] => []

/-- The tokens of the lines that are read. -/
def tokensOf (text : Text) : List Text :=
  ((Messages.splitLines [] (joinContinued text)).map fun line => stripChars line.toList).flatMap
    fun line => if line = [] || line.head? = some '#' then [] else words line

/-- The path a token stands for, unless it is empty or an output artifact. -/
def pathOf (token : Text) : Option Text :=
  let path := token.rdropWhile (· = ':')
  if path = [] || ".o".toList.isSuffixOf path || ".d".toList.isSuffixOf path then none
  else some path

local instance target_lawful : LawfulBEq Text := inferInstance

/-- The loop over the tokens; `targets` is what is found so far. -/
def collect (maxEntries : Nat) : List Text → List Text → List Text
  | targets, [] => targets
  | targets, token :: rest =>
    match pathOf token with
    | none => collect maxEntries targets rest
    | some path =>
      if path ∈ targets then collect maxEntries targets rest
      else if maxEntries ≤ targets.length + 1 then targets ++ [path]
      else collect maxEntries (targets ++ [path]) rest

structure Limits where
  maxBytes : Nat
  maxEntries : Nat
  /-- `MAX_MANIFEST_TARGETS` -/
  maxConsumers : Nat

inductive Raised where
  | manifestExceedsSizeCap
  | indexExceedsTargetCap
  deriving DecidableEq

/-- `str(error)` -/
def Raised.message : Raised → String
  | .manifestExceedsSizeCap => "dependency manifest exceeds size cap"
  | .indexExceedsTargetCap => "reverse invalidation index exceeds target cap"

/-- `os.path.getsize` -/
def byteSize (text : Text) : Nat := (text.map Char.utf8Size).sum

/-- `parse_dependency_manifest`, of the file at a path. -/
def parseDependencyManifest (limits : Limits) (file : Option Text) :
    Except Raised (List Text) :=
  match file with
  | none => .ok []
  | some text =>
    if limits.maxBytes < byteSize text then .error .manifestExceedsSizeCap
    else if limits.maxBytes < (universalNewlines text).length then .error .manifestExceedsSizeCap
    else .ok (collect limits.maxEntries [] (tokensOf (universalNewlines text)))

/-! ## The index -/

abbrev Index := List (Text × List Text)

/-- `self._consumers.get(dep, ())` -/
def consumersOf (index : Index) (dep : Text) : List Text :=
  ((lookup Prod.fst dep index).map Prod.snd).getD []

/-- `consumers.setdefault(dep, set()).add(semantic_key)` -/
def consume (semanticKey : Text) (index : Index) (dep : Text) : Index :=
  let consumers := consumersOf index dep
  assign Prod.fst
    (dep, if semanticKey ∈ consumers then consumers else consumers ++ [semanticKey]) index

/-- `ReverseInvalidationIndex.add` -/
def add (limits : Limits) (index : Index) (semanticKey : Text) (dependencies : List Text) :
    Except Raised Index :=
  dependencies.foldlM (fun index dep =>
    let index' := consume semanticKey index dep
    if limits.maxConsumers < (consumersOf index' dep).length then .error .indexExceedsTargetCap
    else .ok index') index

/-- `impacted` -/
def impacted (index : Index) (changedFiles : List Text) : List Text :=
  changedFiles.flatMap (consumersOf index)

/-! ## What Clang writes -/

/-- A path in make's format. -/
def escape (path : Text) : Text :=
  path.flatMap fun c =>
    if c = ' ' || c = '#' then ['\\', c] else if c = '$' then ['$', '$'] else [c]

/-- Characters that stand in the manifest as they are. -/
def plain (c : Char) : Bool := !isSpace c && c ≠ '#' && c ≠ '$'

structure Manifest where
  /-- the object file, without its extension -/
  stem : Text
  /-- the prerequisites, and whether each is on a line of its own -/
  prerequisites : List (Bool × Text)
  stem_plain : ∀ c ∈ stem, plain c = true
  no_backslash : ∀ p ∈ prerequisites.getLast?, p.2.getLast? ≠ some '\\'

/-- The paths of the prerequisites. -/
def Manifest.paths (m : Manifest) : List Text := m.prerequisites.map Prod.snd

/-- What stands before a prerequisite. -/
def separator (ownLine : Bool) : Text := if ownLine then " \\\n  ".toList else [' ']

def Manifest.write (m : Manifest) : Text :=
  m.stem ++ ".o:".toList ++ m.prerequisites.flatMap (fun p => separator p.1 ++ escape p.2) ++
    ['\n']

/-! ## Paths and tokens -/

variable {limits : Limits} {m : Manifest} {path token : Text} {maxEntries : Nat}
  {targets tokens : List Text}

/-- No colon at the end, and no output artifact. -/
def Input (path : Text) : Prop :=
  path ≠ [] ∧ path.getLast? ≠ some ':' ∧ ¬ ".o".toList <:+ path ∧ ¬ ".d".toList <:+ path

theorem pathOf_eq_some (h : pathOf token = some path) :
    Input path ∧ path = token.rdropWhile (· = ':') := by
  unfold pathOf at h
  dsimp only at h
  split at h
  · cases h
  · next hno =>
    obtain rfl := Option.some.inj h
    simp only [Bool.or_eq_true, decide_eq_true_eq, not_or, List.isSuffixOf_iff_suffix] at hno
    refine ⟨⟨hno.1.1, fun hlast => ?_, hno.1.2, hno.2⟩, rfl⟩
    have hne := List.rdropWhile_last_not (· = ':') token hno.1.1
    rw [List.getLast?_eq_some_getLast hno.1.1] at hlast
    exact hne (decide_eq_true (Option.some.inj hlast))

/-- A path without a colon at its end is read as it stands. -/
theorem rdropWhile_colon (h : path.getLast? ≠ some ':') : path.rdropWhile (· = ':') = path := by
  refine List.rdropWhile_eq_self_iff.mpr fun hne he => h ?_
  rw [List.getLast?_eq_some_getLast hne, of_decide_eq_true he]

theorem pathOf_input (h : Input path) : pathOf path = some path := by
  unfold pathOf
  dsimp only
  rw [rdropWhile_colon h.2.1, if_neg]
  simp only [Bool.or_eq_true, decide_eq_true_eq, not_or, List.isSuffixOf_iff_suffix]
  exact ⟨⟨h.1, h.2.2.1⟩, h.2.2.2⟩

/-! ## What the loop collects -/

/-- The cap; the first path is always kept. -/
def cap (maxEntries : Nat) : Nat := max 1 maxEntries

/-- How the loop ends. -/
structure Collected (maxEntries : Nat) (targets names result : List Text) : Prop where
  subset : ∀ p ∈ result, p ∈ targets ∨ p ∈ names
  nodup : result.Nodup
  bounded : result.length ≤ cap maxEntries
  complete : (∀ p, p ∈ targets ∨ p ∈ names → p ∈ result) ∨ cap maxEntries ≤ result.length

theorem collected (hnodup : targets.Nodup) (hroom : targets.length < cap maxEntries) :
    Collected maxEntries targets (tokens.filterMap pathOf)
      (collect maxEntries targets tokens) := by
  induction tokens generalizing targets with
  | nil =>
    exact ⟨fun p hp => .inl hp, hnodup, hroom.le,
      .inl fun p hp => hp.resolve_right List.not_mem_nil⟩
  | cons token rest ih =>
    unfold collect
    cases hpath : pathOf token with
    | none =>
      rw [List.filterMap_cons_none hpath]
      exact ih hnodup hroom
    | some path =>
      rw [List.filterMap_cons_some hpath]
      dsimp only
      by_cases hseen : path ∈ targets
      · -- seen before
        rw [if_pos hseen]
        obtain ⟨hsubset, hn, hb, hcomplete⟩ := ih hnodup hroom
        refine ⟨fun p hp => (hsubset p hp).imp_right (List.mem_cons_of_mem _), hn, hb,
          hcomplete.imp_left fun hall p hp => ?_⟩
        rcases hp with hp | hp
        · exact hall p (.inl hp)
        · rcases List.mem_cons.mp hp with rfl | hp
          · exact hall _ (.inl hseen)
          · exact hall p (.inr hp)
      · rw [if_neg hseen]
        have hnodup' : (targets ++ [path]).Nodup :=
          List.nodup_append.mpr ⟨hnodup, List.nodup_singleton _, fun a ha b hb he =>
            hseen (List.mem_singleton.mp hb ▸ he ▸ ha)⟩
        have hlength : (targets ++ [path]).length = targets.length + 1 := by simp
        split
        · next hfull =>
          refine ⟨fun p hp => ?_, hnodup', by omega, .inr ?_⟩
          · rcases List.mem_append.mp hp with hp | hp
            · exact .inl hp
            · exact .inr (List.mem_singleton.mp hp ▸ List.mem_cons_self)
          · unfold cap
            omega
        · next hmore =>
          obtain ⟨hsubset, hn, hb, hcomplete⟩ :=
            ih hnodup' (by rw [hlength]; unfold cap; omega)
          refine ⟨fun p hp => ?_, hn, hb, hcomplete.imp_left fun hall p hp => ?_⟩
          · rcases hsubset p hp with hp | hp
            · rcases List.mem_append.mp hp with hp | hp
              · exact .inl hp
              · exact .inr (List.mem_singleton.mp hp ▸ List.mem_cons_self)
            · exact .inr (List.mem_cons_of_mem _ hp)
          · rcases hp with hp | hp
            · exact hall p (.inl (List.mem_append_left _ hp))
            · rcases List.mem_cons.mp hp with rfl | hp
              · exact hall _ (.inl (List.mem_append_right _ List.mem_cons_self))
              · exact hall p (.inr hp)

theorem collected_nil (maxEntries : Nat) (tokens : List Text) :
    Collected maxEntries [] (tokens.filterMap pathOf) (collect maxEntries [] tokens) :=
  collected List.nodup_nil (Nat.lt_of_lt_of_le Nat.zero_lt_one (le_max_left 1 maxEntries))

/-- **The cap**: all of the paths are kept when there are not more of them. -/
theorem collect_all_iff :
    (∀ p ∈ tokens.filterMap pathOf, p ∈ collect maxEntries [] tokens) ↔
      (tokens.filterMap pathOf).dedup.length ≤ cap maxEntries := by
  obtain ⟨hsubset, hnodup, hbounded, hcomplete⟩ := collected_nil maxEntries tokens
  constructor
  · intro hall
    have hsub : (tokens.filterMap pathOf).dedup.Subperm (collect maxEntries [] tokens) :=
      List.subperm_of_subset (List.nodup_dedup _) fun p hp => hall p (List.mem_dedup.mp hp)
    exact hsub.length_le.trans hbounded
  · intro hle
    rcases hcomplete with hall | hfull
    · exact fun p hp => hall p (.inr hp)
    · have hsub : (collect maxEntries [] tokens).Subperm (tokens.filterMap pathOf).dedup :=
        List.subperm_of_subset hnodup fun p hp =>
          List.mem_dedup.mpr ((hsubset p hp).resolve_left List.not_mem_nil)
      have hperm := hsub.perm_of_length_le (hle.trans hfull)
      exact fun p hp => hperm.mem_iff.mpr (List.mem_dedup.mpr hp)

/-! ## The text of a rule -/

/-- The path is there, and has no blanks. -/
def Solid (path : Text) : Prop := path ≠ [] ∧ ∀ c ∈ path, isSpace c = false

theorem mem_escape {c : Char} (h : c ∈ escape path) : c ∈ path ∨ c = '\\' := by
  unfold escape at h
  obtain ⟨d, hd, hc⟩ := List.mem_flatMap.mp h
  split at hc
  · rcases List.mem_pair.mp hc with rfl | rfl
    · exact .inr rfl
    · exact .inl hd
  · split at hc
    · next he =>
      rcases List.mem_pair.mp hc with rfl | rfl <;> exact .inl (he ▸ hd)
    · exact .inl (List.mem_singleton.mp hc ▸ hd)

theorem getLast?_escape : (escape path).getLast? = path.getLast? := by
  induction path using List.reverseRecOn with
  | nil => rfl
  | append_singleton path c _ =>
    unfold escape
    rw [List.flatMap_append, List.flatMap_singleton, List.getLast?_append, List.getLast?_append]
    split
    · rfl
    · split
      · next he =>
        rw [he]
        rfl
      · rfl

theorem Solid.escape (h : Solid path) : Solid (escape path) := by
  refine ⟨fun hnil => ?_, fun c hc => ?_⟩
  · have hlast := @getLast?_escape path
    rw [hnil] at hlast
    exact h.1 (List.getLast?_eq_none_iff.mp hlast.symm)
  · rcases mem_escape hc with hc | rfl
    · exact h.2 c hc
    · decide

/-- What stands before a prerequisite, when lines are joined. -/
def blank (ownLine : Bool) : Text := if ownLine then "    ".toList else [' ']

/-- The rule as one line. -/
def line (m : Manifest) : Text :=
  m.stem ++ ".o:".toList ++ m.prerequisites.flatMap fun p => blank p.1 ++ escape p.2

theorem universalNewlines_eq {t : Text} (h : '\r' ∉ t) : universalNewlines t = t := by
  induction t with
  | nil => rfl
  | cons c t ih =>
    have hc : c ≠ '\r' := fun he => h (he ▸ List.mem_cons_self)
    rw [universalNewlines, ih fun ht => h (List.mem_cons_of_mem _ ht)]
    · exact fun _ he => absurd he hc
    · exact hc

theorem joinContinued_cons {c : Char} {t : Text} (h : c = '\\' → t.head? ≠ some '\n') :
    joinContinued (c :: t) = c :: joinContinued t := by
  rw [joinContinued]
  rintro rest rfl rfl
  exact h rfl rfl

/-- Lines are not joined inside a piece without ends of lines. -/
theorem joinContinued_append {w rest : Text} (hw : '\n' ∉ w)
    (hend : w.getLast? = some '\\' → rest.head? ≠ some '\n') :
    joinContinued (w ++ rest) = w ++ joinContinued rest := by
  induction w with
  | nil => rfl
  | cons c w ih =>
    have hw' : '\n' ∉ w := fun h => hw (List.mem_cons_of_mem _ h)
    rw [List.cons_append, joinContinued_cons, ih hw', List.cons_append]
    · intro hlast
      refine hend ?_
      rw [List.getLast?_cons, hlast]
      rfl
    · rintro rfl
      cases w with
      | nil => exact hend rfl
      | cons d w =>
        intro hhead
        exact hw' (Option.some.inj hhead ▸ List.mem_cons_self)

theorem joinContinued_separator (ownLine : Bool) (rest : Text) :
    joinContinued (separator ownLine ++ rest) = blank ownLine ++ joinContinued rest := by
  cases ownLine <;> rfl

theorem separator_head (ownLine : Bool) (rest : Text) :
    (separator ownLine ++ rest).head? ≠ some '\n' := by
  cases ownLine <;> exact fun h => absurd (Option.some.inj h) (by decide)

theorem newline_not_mem (h : Solid path) : '\n' ∉ escape path := fun hmem =>
  absurd (h.escape.2 _ hmem) (by decide)

theorem joinContinued_rule {items : List (Bool × Text)} (hsolid : ∀ p ∈ items, Solid p.2)
    (hlast : ∀ p ∈ items.getLast?, p.2.getLast? ≠ some '\\') (w : Text) (hw : '\n' ∉ w)
    (hend : items = [] → w.getLast? ≠ some '\\') :
    joinContinued (w ++ items.flatMap (fun p => separator p.1 ++ escape p.2) ++ ['\n']) =
      w ++ items.flatMap (fun p => blank p.1 ++ escape p.2) ++ ['\n'] := by
  induction items generalizing w with
  | nil =>
    rw [List.flatMap_nil, List.flatMap_nil, List.append_nil,
      joinContinued_append hw fun h => absurd h (hend rfl)]
    rfl
  | cons p items ih =>
    obtain ⟨hp, hitems⟩ := List.forall_mem_cons.mp hsolid
    have hrest := ih hitems (fun q hq => hlast q (List.mem_getLast?_cons hq)) (escape p.2)
      (newline_not_mem hp) fun hnil => by
        rw [getLast?_escape]
        exact hlast p (by rw [hnil]; rfl)
    simp only [List.flatMap_cons, List.append_assoc] at hrest ⊢
    rw [joinContinued_append hw fun _ => separator_head p.1 _, joinContinued_separator, hrest]

theorem splitLines_line {acc t : Text} (h : ∀ c ∈ t, Messages.isLineEnd c = false) :
    Messages.splitLines acc (t ++ ['\n']) = [String.ofList (acc.reverse ++ t)] := by
  induction t generalizing acc with
  | nil =>
    rw [List.nil_append, List.append_nil, Messages.splitLines, if_pos (by decide),
      Messages.splitLines]
    intro rest he
    cases he
  | cons c t ih =>
    obtain ⟨hc, ht⟩ := List.forall_mem_cons.mp h
    rw [List.cons_append, Messages.splitLines, if_neg (by simp [hc]), ih ht, List.reverse_cons,
      List.append_assoc, List.singleton_append]
    rintro rest rfl
    exact absurd hc (by decide)

theorem not_lineEnd {c : Char} (h : isSpace c = false) : Messages.isLineEnd c = false := by
  unfold isSpace at h
  unfold Messages.isLineEnd
  simp only [Bool.or_eq_false_iff, Bool.and_eq_false_iff, decide_eq_false_iff_not,
    beq_eq_false_iff_ne] at h ⊢
  omega

/-! ## The tokens of a rule -/

/-- The target of the rule. -/
def Manifest.targetToken (m : Manifest) : Text := m.stem ++ ".o:".toList

theorem solid_targetToken : Solid m.targetToken := by
  refine ⟨List.append_ne_nil_of_right_ne_nil _ (by decide), fun c hc => ?_⟩
  rcases List.mem_append.mp hc with hc | hc
  · have hplain := m.stem_plain c hc
    unfold plain at hplain
    simpa using (Bool.and_eq_true_iff.mp (Bool.and_eq_true_iff.mp hplain).1).1
  · have hcolon : c = '.' ∨ c = 'o' ∨ c = ':' := by simpa using hc
    rcases hcolon with rfl | rfl | rfl <;> decide

theorem words_blank {w : Text} (hw : Solid w) (ownLine : Bool) (rest : Text) :
    words (w ++ (blank ownLine ++ rest)) = w :: words rest := by
  cases ownLine with
  | false => exact words_word_cons hw.1 hw.2 rfl rest
  | true =>
    have hblanks : words (' ' :: ' ' :: ' ' :: rest) = words rest := by
      rw [words_cons rfl, words_cons rfl, words_cons rfl]
    exact (words_word_cons hw.1 hw.2 rfl (' ' :: ' ' :: ' ' :: rest)).trans (congrArg _ hblanks)

theorem words_rule {items : List (Bool × Text)} (hsolid : ∀ p ∈ items, Solid p.2) {w : Text}
    (hw : Solid w) :
    words (w ++ items.flatMap fun p => blank p.1 ++ escape p.2) =
      w :: items.map fun p => escape p.2 := by
  induction items generalizing w with
  | nil =>
    rw [List.flatMap_nil, List.append_nil, words_singleton hw.1 hw.2]
    rfl
  | cons p items ih =>
    obtain ⟨hp, hitems⟩ := List.forall_mem_cons.mp hsolid
    rw [List.flatMap_cons, List.map_cons, List.append_assoc, words_blank hw, ih hitems hp.escape]

theorem space_or_solid (hsolid : ∀ p ∈ m.paths, Solid p) {c : Char} (hc : c ∈ line m) :
    c = ' ' ∨ isSpace c = false := by
  rcases List.mem_append.mp hc with hc | hc
  · exact .inr (solid_targetToken.2 c hc)
  · obtain ⟨p, hp, hc⟩ := List.mem_flatMap.mp hc
    rcases List.mem_append.mp hc with hc | hc
    · have hblank : ∀ ownLine, ∀ c ∈ blank ownLine, c = ' ' := fun ownLine =>
        forall_mem_of_all (by cases ownLine <;> decide)
      exact .inl (hblank p.1 c hc)
    · exact .inr ((hsolid p.2 (List.mem_map_of_mem hp)).escape.2 c hc)

/-- **Prerequisites without blanks** are the tokens of the rule after its target, as they are
written. -/
theorem tokens_write (hsolid : ∀ p ∈ m.paths, Solid p) :
    tokensOf (universalNewlines m.write) = m.targetToken :: m.paths.map escape := by
  have hitems : ∀ p ∈ m.prerequisites, Solid p.2 := fun p hp =>
    hsolid p.2 (List.mem_map_of_mem hp)
  have hreturn : '\r' ∉ m.write := by
    intro hmem
    unfold Manifest.write at hmem
    rcases List.mem_append.mp hmem with hmem | hmem
    · rcases List.mem_append.mp hmem with hmem | hmem
      · exact absurd (solid_targetToken.2 _ hmem) (by decide)
      · obtain ⟨p, hp, hmem⟩ := List.mem_flatMap.mp hmem
        rcases List.mem_append.mp hmem with hmem | hmem
        · have hseparator : ∀ ownLine, '\r' ∉ separator ownLine := by decide
          exact hseparator _ hmem
        · exact absurd ((hitems p hp).escape.2 _ hmem) (by decide)
    · exact absurd hmem (by decide)
  have hjoined : joinContinued m.write = line m ++ ['\n'] := by
    refine joinContinued_rule hitems m.no_backslash _ (fun hmem => ?_) fun _ => ?_
    · exact absurd (solid_targetToken.2 _ hmem) (by decide)
    · rw [List.getLast?_append]
      exact fun h => absurd (Option.some.inj h) (by decide)
  have hlines : Messages.splitLines [] (joinContinued m.write) = [String.ofList (line m)] := by
    rw [hjoined, splitLines_line]
    · rfl
    · intro c hc
      rcases space_or_solid hsolid hc with rfl | hc
      · decide
      · exact not_lineEnd hc
  have hhead : ∃ c rest, line m = c :: rest ∧ isSpace c = false ∧ c ≠ '#' := by
    unfold line
    cases hstem : m.stem with
    | nil => exact ⟨'.', _, rfl, rfl, by decide⟩
    | cons c stem =>
      have hplain := m.stem_plain c (hstem ▸ List.mem_cons_self)
      simp only [plain, Bool.and_eq_true, Bool.not_eq_true', decide_eq_true_eq] at hplain
      exact ⟨c, _, rfl, hplain.1.1, hplain.1.2⟩
  obtain ⟨c, rest, hline, hc, hhash⟩ := hhead
  have hstripped := head?_stripChars hc rest
  have hne : stripChars (line m) ≠ [] := by
    rw [hline]
    intro hnil
    rw [hnil] at hstripped
    cases hstripped
  unfold tokensOf
  rw [universalNewlines_eq hreturn, hlines]
  simp only [List.map_cons, List.map_nil, List.flatMap_cons, List.flatMap_nil, List.append_nil,
    String.toList_ofList]
  rw [if_neg, words_stripChars]
  · exact (words_rule hitems solid_targetToken).trans (by simp [Manifest.paths])
  · simp only [Bool.or_eq_true, decide_eq_true_eq, not_or]
    refine ⟨hne, ?_⟩
    rw [hline, hstripped]
    simpa using hhash

/-! ## What the parser returns -/

/-- A path the parser reads as it stands. -/
def Legible (path : Text) : Prop := Input path ∧ ∀ c ∈ path, plain c = true

theorem Legible.solid (h : Legible path) : Solid path := by
  refine ⟨h.1.1, fun c hc => ?_⟩
  have hplain := h.2 c hc
  unfold plain at hplain
  simpa using (Bool.and_eq_true_iff.mp (Bool.and_eq_true_iff.mp hplain).1).1

theorem escape_cons (c : Char) (path : Text) : escape (c :: path) = escape [c] ++ escape path := by
  unfold escape
  rw [List.flatMap_cons, List.flatMap_singleton]

theorem escape_plain (h : ∀ c ∈ path, plain c = true) : escape path = path := by
  induction path with
  | nil => rfl
  | cons c path ih =>
    obtain ⟨hc, hpath⟩ := List.forall_mem_cons.mp h
    rw [escape_cons, ih hpath]
    unfold escape
    simp only [plain, Bool.and_eq_true, Bool.not_eq_true', decide_eq_true_eq] at hc
    have hspace : c ≠ ' ' := by
      rintro rfl
      exact absurd hc.1.1 (by decide)
    simp [hspace, hc.1.2, hc.2]

theorem length_escape_singleton (c : Char) :
    (escape [c]).length = if c = ' ' ∨ c = '#' ∨ c = '$' then 2 else 1 := by
  unfold escape
  rw [List.flatMap_singleton]
  by_cases hquoted : c = ' ' ∨ c = '#'
  · rw [if_pos (by simpa using hquoted), if_pos (hquoted.imp_right .inl)]
    rfl
  · rw [if_neg (by simpa using hquoted)]
    by_cases hdollar : c = '$'
    · rw [if_pos hdollar, if_pos (.inr (.inr hdollar))]
      rfl
    · rw [if_neg hdollar, if_neg fun h => h.elim (fun h => hquoted (.inl h))
        (Or.rec (fun h => hquoted (.inr h)) hdollar)]
      rfl

theorem length_le_escape (path : Text) : path.length ≤ (escape path).length := by
  induction path with
  | nil => exact Nat.le_refl _
  | cons c path ih =>
    have hsingle := length_escape_singleton c
    rw [escape_cons, List.length_append, List.length_cons]
    split at hsingle <;> omega

theorem length_lt_escape {c : Char} (hc : c ∈ path) (hspecial : c = '#' ∨ c = '$') :
    path.length < (escape path).length := by
  induction path with
  | nil => exact absurd hc List.not_mem_nil
  | cons d path ih =>
    rw [escape_cons, List.length_append, List.length_cons]
    have hsingle := length_escape_singleton d
    rcases List.mem_cons.mp hc with rfl | hc
    · rw [if_pos (.inr hspecial)] at hsingle
      have hle := length_le_escape path
      omega
    · have hlt := ih hc
      split at hsingle <;> omega

/-- Paths that are all escapes of each other are not escaped at all: the shortest one that is
would be the escape of a shorter one. -/
theorem plain_of_escapes {paths : List Text} (hsolid : ∀ p ∈ paths, Solid p)
    (h : ∀ p ∈ paths, ∃ q ∈ paths, p = escape q) :
    ∀ n, ∀ p ∈ paths, p.length = n → ∀ c ∈ p, plain c = true := by
  intro n
  induction n using Nat.strong_induction_on with
  | _ n ih =>
    intro p hp hn
    obtain ⟨q, hq, rfl⟩ := h p hp
    have hqplain : ∀ c ∈ q, plain c = true := by
      intro c hc
      by_cases hspecial : c = '#' ∨ c = '$'
      · exact ih q.length (hn ▸ length_lt_escape hc hspecial) q hq rfl c hc
      · unfold plain
        rw [not_or] at hspecial
        simp [(hsolid q hq).2 c hc, hspecial]
    rwa [escape_plain hqplain]

/-- What the parser returns is read from a word. -/
theorem mem_collect {deps : List Text} (hdeps : deps = collect maxEntries [] tokens)
    (h : path ∈ deps) : ∃ token ∈ tokens, pathOf token = some path := by
  subst hdeps
  have hnames := ((collected_nil maxEntries tokens).subset path h).resolve_left List.not_mem_nil
  exact List.mem_filterMap.mp hnames

theorem not_space_of_mem_tokensOf {text : Text} (h : token ∈ tokensOf text) :
    ∀ c ∈ token, isSpace c = false := by
  unfold tokensOf at h
  obtain ⟨line, -, htoken⟩ := List.mem_flatMap.mp h
  split at htoken
  · exact absurd htoken List.not_mem_nil
  · exact not_space_of_mem_words htoken

/-- The target of a rule is no dependency. -/
theorem pathOf_targetToken : pathOf m.targetToken = none := by
  have hstrip : m.targetToken.rdropWhile (· = ':') = m.stem ++ ".o".toList := by
    unfold Manifest.targetToken
    have hsplit : m.stem ++ ".o:".toList = (m.stem ++ ".o".toList) ++ [':'] := by
      rw [List.append_assoc]
      rfl
    rw [hsplit, List.rdropWhile_concat_pos _ _ _ (by decide), rdropWhile_colon]
    rw [List.getLast?_append]
    exact fun h => absurd (Option.some.inj h) (by decide)
  unfold pathOf
  dsimp only
  rw [hstrip, if_pos]
  simp [List.isSuffixOf_iff_suffix]

/-- **The parser returns every prerequisite** exactly when it reads each as it stands, and they
are not more than the cap. -/
theorem parsed_iff {deps : List Text}
    (h : parseDependencyManifest limits (some m.write) = .ok deps) :
    (∀ p ∈ m.paths, p ∈ deps) ↔
      (∀ p ∈ m.paths, Legible p) ∧ m.paths.dedup.length ≤ cap limits.maxEntries := by
  have hdeps : deps = collect limits.maxEntries [] (tokensOf (universalNewlines m.write)) := by
    unfold parseDependencyManifest at h
    dsimp only at h
    split at h
    · cases h
    · split at h
      · cases h
      · exact (Except.ok.inj h).symm
  have hread : (∀ p ∈ m.paths, Legible p) →
      (tokensOf (universalNewlines m.write)).filterMap pathOf = m.paths := by
    intro hlegible
    have hself : m.paths.map escape = m.paths :=
      (List.map_congr_left fun p hp => escape_plain (hlegible p hp).2).trans (List.map_id _)
    rw [tokens_write fun p hp => (hlegible p hp).solid, List.filterMap_cons_none pathOf_targetToken,
      hself]
    exact (List.filterMap_congr fun p hp => pathOf_input (hlegible p hp).1).trans
      (List.filterMap_some)
  have hcap : (∀ p ∈ m.paths, Legible p) →
      ((∀ p ∈ m.paths, p ∈ deps) ↔ m.paths.dedup.length ≤ cap limits.maxEntries) := by
    intro hlegible
    have hall := @collect_all_iff limits.maxEntries (tokensOf (universalNewlines m.write))
    rwa [hread hlegible, ← hdeps] at hall
  refine ⟨fun hall => ?_, fun h => (hcap h.1).mpr h.2⟩
  suffices hlegible : ∀ p ∈ m.paths, Legible p from ⟨hlegible, (hcap hlegible).mp hall⟩
  have hinput : ∀ p ∈ m.paths, Input p := fun p hp => by
    obtain ⟨token, -, hpath⟩ := mem_collect hdeps (hall p hp)
    exact (pathOf_eq_some hpath).1
  have hsolid : ∀ p ∈ m.paths, Solid p := fun p hp => by
    obtain ⟨token, htoken, hpath⟩ := mem_collect hdeps (hall p hp)
    obtain ⟨hinput, rfl⟩ := pathOf_eq_some hpath
    exact ⟨hinput.1, fun c hc =>
      not_space_of_mem_tokensOf htoken c ((List.rdropWhile_prefix _ _).subset hc)⟩
  rw [tokens_write hsolid] at hdeps
  have hescapes : ∀ p ∈ m.paths, ∃ q ∈ m.paths, p = escape q := fun p hp => by
    obtain ⟨token, htoken, hpath⟩ := mem_collect hdeps (hall p hp)
    rcases List.mem_cons.mp htoken with rfl | htoken
    · rw [pathOf_targetToken] at hpath
      cases hpath
    · obtain ⟨q, hq, rfl⟩ := List.mem_map.mp htoken
      refine ⟨q, hq, (pathOf_eq_some hpath).2.trans (rdropWhile_colon ?_)⟩
      rw [getLast?_escape]
      exact (hinput q hq).2.1
  exact fun p hp => ⟨hinput p hp, plain_of_escapes hsolid hescapes _ p hp rfl⟩

/-! ## The units of an index -/

/-- A translation unit. -/
structure Unit where
  semanticKey : Text
  manifest : Manifest

/-- The dependencies the parser returns for a unit. -/
def Unit.dependencies (limits : Limits) (u : Unit) : Except Raised (List Text) :=
  parseDependencyManifest limits (some u.manifest.write)

/-- `index.add(key, parse_dependency_manifest(d))` of every unit. -/
def build (limits : Limits) (units : List Unit) : Except Raised Index :=
  units.foldlM (fun index u => do
    let dependencies ← u.dependencies limits
    add limits index u.semanticKey dependencies) []

variable {index index' : Index} {key key' dep dep' : Text} {deps : List Text} {units : List Unit}

theorem consumersOf_consume :
    consumersOf (consume key index dep) dep' =
      if dep' = dep then
        if key ∈ consumersOf index dep then consumersOf index dep
        else consumersOf index dep ++ [key]
      else consumersOf index dep' := by
  unfold consume
  by_cases he : dep' = dep
  · subst he
    rw [if_pos rfl]
    simp only [consumersOf, lookup_assign, if_pos]
    rfl
  · rw [if_neg he]
    simp only [consumersOf, lookup_assign, if_neg fun h => he (Eq.symm h)]

/-- A key consumes a dependency. -/
def Consumes (index : Index) (key dep : Text) : Prop := key ∈ consumersOf index dep

theorem consumes_consume :
    Consumes (consume key index dep) key' dep' ↔
      Consumes index key' dep' ∨ key' = key ∧ dep' = dep := by
  unfold Consumes
  rw [consumersOf_consume]
  by_cases he : dep' = dep
  · subst he
    rw [if_pos rfl]
    split
    · next hmem => exact ⟨.inl, fun h => h.elim id fun h => h.1 ▸ hmem⟩
    · rw [List.mem_append, List.mem_singleton]
      exact or_congr_right (and_iff_left rfl).symm
  · rw [if_neg he]
    exact ⟨.inl, fun h => h.resolve_right fun h => he h.2⟩

/-- `add` adds the key to its dependencies, and changes nothing else. -/
theorem consumes_add (h : add limits index key deps = .ok index') :
    Consumes index' key' dep' ↔ Consumes index key' dep' ∨ key' = key ∧ dep' ∈ deps := by
  unfold add at h
  induction deps generalizing index with
  | nil =>
    obtain rfl := Except.ok.inj h
    simp
  | cons dep deps ih =>
    rw [List.foldlM_cons] at h
    obtain ⟨next, hnext, hrest⟩ := Fallible.bind_ok.mp h
    dsimp only at hnext
    split at hnext
    · cases hnext
    · obtain rfl := Except.ok.inj hnext
      rw [ih hrest, consumes_consume, List.mem_cons, or_assoc, ← and_or_left]

/-- The keys that consume a dependency are those of the units whose manifests show it, in any
order of the units. -/
theorem consumes_build (h : build limits units = .ok index) :
    Consumes index key dep ↔
      ∃ u ∈ units, u.semanticKey = key ∧ ∃ deps, u.dependencies limits = .ok deps ∧ dep ∈ deps := by
  suffices hfrom : ∀ start, (units.foldlM (fun index u => do
      let dependencies ← u.dependencies limits
      add limits index u.semanticKey dependencies) start) = .ok index →
      (Consumes index key dep ↔ Consumes start key dep ∨
        ∃ u ∈ units, u.semanticKey = key ∧ ∃ deps, u.dependencies limits = .ok deps ∧ dep ∈ deps) by
    refine (hfrom [] h).trans (or_iff_right ?_)
    exact List.not_mem_nil
  clear h
  intro start h
  induction units generalizing start with
  | nil =>
    obtain rfl := Except.ok.inj h
    simp
  | cons u units ih =>
    rw [List.foldlM_cons] at h
    obtain ⟨next, hnext, hrest⟩ := Fallible.bind_ok.mp h
    obtain ⟨deps, hdeps, hadd⟩ := Fallible.bind_ok.mp hnext
    rw [ih next hrest, consumes_add hadd, or_assoc, List.exists_mem_cons_iff]
    refine or_congr_right (or_congr_left ⟨?_, ?_⟩)
    · rintro ⟨rfl, hmem⟩
      exact ⟨rfl, deps, hdeps, hmem⟩
    · rintro ⟨rfl, deps', hdeps', hmem⟩
      obtain rfl := Except.ok.inj (hdeps.symm.trans hdeps')
      exact ⟨rfl, hmem⟩

theorem dependencies_of_build (h : build limits units = .ok index) :
    ∀ u ∈ units, ∃ deps, u.dependencies limits = .ok deps := by
  unfold build at h
  generalize ([] : Index) = start at h
  induction units generalizing start with
  | nil => exact fun u hu => absurd hu List.not_mem_nil
  | cons u units ih =>
    rw [List.foldlM_cons] at h
    obtain ⟨next, hnext, hrest⟩ := Fallible.bind_ok.mp h
    obtain ⟨deps, hdeps, -⟩ := Fallible.bind_ok.mp hnext
    exact List.forall_mem_cons.mpr ⟨⟨deps, hdeps⟩, ih next hrest⟩

/-- **No dependency is missed**, by the parser or by the index, exactly when the parser reads the
paths of every unit as they stand and its cap leaves room for them. -/
theorem nothing_missed_iff (h : build limits units = .ok index) :
    (∀ u ∈ units, ∀ p ∈ u.manifest.paths,
      (∃ deps, parseDependencyManifest limits (some u.manifest.write) = .ok deps ∧ p ∈ deps) ∧
        u.semanticKey ∈ impacted index [p]) ↔
      ∀ u ∈ units, (∀ p ∈ u.manifest.paths, Legible p) ∧
        u.manifest.paths.dedup.length ≤ cap limits.maxEntries := by
  refine forall₂_congr fun u hu => ?_
  obtain ⟨deps, hdeps⟩ := dependencies_of_build h u hu
  rw [← parsed_iff hdeps]
  refine forall₂_congr fun p _ => ⟨?_, fun hp => ⟨⟨deps, hdeps, hp⟩, ?_⟩⟩
  · rintro ⟨⟨deps', hdeps', hp⟩, -⟩
    exact Except.ok.inj (hdeps'.symm.trans hdeps) ▸ hp
  · unfold impacted
    rw [List.flatMap_singleton]
    exact (consumes_build h).mpr ⟨u, hu, rfl, deps, hdeps, hp⟩

/-! ## Samples -/

def sampleLimits : Limits := ⟨200, 4, 4⟩

/-- `tu.o: src/a.cpp \` and `inc/a.h` on the next line. -/
def sampleManifest : Manifest where
  stem := "tu".toList
  prerequisites := [(false, "src/a.cpp".toList), (true, "inc/a.h".toList)]
  stem_plain := forall_mem_of_all (by decide)
  no_backslash := by decide

def sampleIndex : Index :=
  [("src/a.cpp".toList, ["tu-1".toList]), ("inc/a.h".toList, ["tu-1".toList])]

theorem nothing_missed_sample :
    build sampleLimits [⟨"tu-1".toList, sampleManifest⟩] = .ok sampleIndex ∧
      ∀ u ∈ [(⟨"tu-1".toList, sampleManifest⟩ : Unit)],
        (∀ p ∈ u.manifest.paths, Legible p) ∧
          u.manifest.paths.dedup.length ≤ cap sampleLimits.maxEntries := by
  have hbuild : build sampleLimits [⟨"tu-1".toList, sampleManifest⟩] = .ok sampleIndex := by
    decide +kernel
  refine ⟨hbuild, (nothing_missed_iff hbuild).mp ?_⟩
  intro u hu p hp
  obtain rfl := List.mem_singleton.mp hu
  exact ⟨⟨sampleIndex.map Prod.fst, by decide +kernel,
    (by decide +kernel : ∀ p ∈ sampleManifest.paths, p ∈ sampleIndex.map Prod.fst) p hp⟩,
    (by decide +kernel : ∀ p ∈ sampleManifest.paths, "tu-1".toList ∈ impacted sampleIndex [p]) p hp⟩

/-- `tu.o: my\ dir/a.h`. -/
def spacedManifest : Manifest where
  stem := "tu".toList
  prerequisites := [(false, "my dir/a.h".toList)]
  stem_plain := forall_mem_of_all (by decide)
  no_backslash := by decide

/-- The blank in `my dir/a.h` ends the token, and the header is lost. -/
theorem spaced_path_missed :
    ∃ index, build sampleLimits [⟨"tu-1".toList, spacedManifest⟩] = .ok index ∧
      ¬ ∀ u ∈ [(⟨"tu-1".toList, spacedManifest⟩ : Unit)], ∀ p ∈ u.manifest.paths,
        (∃ deps, parseDependencyManifest sampleLimits (some u.manifest.write) = .ok deps ∧
          p ∈ deps) ∧ u.semanticKey ∈ impacted index [p] := by
  refine ⟨[("my\\".toList, ["tu-1".toList]), ("dir/a.h".toList, ["tu-1".toList])],
    by decide +kernel, fun h => ?_⟩
  have himpacted := (h _ List.mem_cons_self "my dir/a.h".toList (by decide)).2
  exact absurd himpacted (by decide +kernel)

end CortexHarness.Dependencies
