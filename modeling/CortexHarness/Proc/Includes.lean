import CortexHarness.Library.ReverseIndex
import CortexHarness.Library.Firsts
import CortexHarness.Library.Words
import CortexHarness.Proc.Alignment
import CortexHarness.Proc.Statements
import CortexHarness.Sync.Routing

/-!
# Which sources a changed file invalidates

Model of `extract_exec_sql_includes` and `ProcDependencyIndex` (`cplus/proc_manifest.py:62-96,
215-264`) over the regions of `Proc.Masking` and their operations (`Proc.Statements`). The edge of an
include carries the token that the statement spells; a changed path is looked up by the stem of its
base name.

Model notes: of a manifest what the index reads is kept. `str.upper` of one character is a
parameter, with its law for ASCII; `str.lower` is that of ASCII, since no other character is lowered
to a letter of the shipped headers.

Results:
* `includeTarget_text`: what is extracted of an include statement;
* `cleanTarget_plain`, `cleanTarget_tight`: the token of a statement is its target, but keeps the
  closing quote when the semicolon follows at once;
* `mem_impacted_addManifest`: which changes impact a source that is added;
* **`includes_impact_iff`**: every file of the base name of an included target impacts the source
  exactly when that base name, and it without its extension, are tokens of the source too.
-/

namespace CortexHarness.Proc

open Table ReverseIndex
open Sync (basename)

/-! ## The targets of a source -/

section Extract

variable (upper : Char → List Char)

def isMark (c : Char) : Bool := c == '"' || c == '\''

/-- `token.strip('"\'').rstrip(";")` -/
def cleanTarget (token : List Char) : List Char :=
  ((token.dropWhile isMark).rdropWhile isMark).rdropWhile (· == ';')

/-- The headers that Oracle ships. -/
def shippedHeaders : List (List Char) := ["sqlca".toList, "sqlda".toList, "oraca".toList]

/-- The target of a token, unless it is empty or a shipped header. -/
def targetOf (token : List Char) : Option (List Char) :=
  let target := cleanTarget token
  if target = [] then none
  else if shippedHeaders.contains (target.map Char.toLower) then none
  else some target

/-- One round of `extract_exec_sql_includes`. -/
def includeTarget (rawText : List Char) : Option (List Char) :=
  if operationUpper upper rawText ≠ "INCLUDE" then none
  else
    let parts := words (stripChars rawText)
    match parts.dropWhile fun token => upperText upper token ≠ "INCLUDE".toList with
    | _ :: token :: _ => targetOf token
    | _ => none

/-- `MAX_EXEC_SQL_INCLUDES` -/
def maxExecSqlIncludes : Nat := 256

/-- `extract_exec_sql_includes`, of the regions of the prepared source. -/
def extractExecSqlIncludes (regions : List ProcRegion) : List (List Char) :=
  (firsts id (regions.filterMap fun region => includeTarget upper region.rawText)).take
    maxExecSqlIncludes

end Extract

/-! ## The index -/

/-- What the index reads of a `ProcArtifactManifest`. -/
structure ProcArtifactManifest where
  originalRelPath : String
  generatedRelPath : String
  sourceMapRelPath : String
  sourceMapId : String
  includeNames : List String

/-- The files of a bundle. -/
def ProcArtifactManifest.bundle (manifest : ProcArtifactManifest) : List String :=
  [manifest.originalRelPath, manifest.generatedRelPath] ++
    if manifest.sourceMapRelPath ≠ "" then [manifest.sourceMapRelPath]
    else if manifest.sourceMapId ≠ "" then ["map:" ++ manifest.sourceMapId]
    else []

/-- The edge of an include. -/
def includeEdge (name : String) : String := "proc-include:" ++ name

/-- One of the `generated_dependencies`; `MAX_PROC_DEPENDENCIES` is 20000. -/
def addDependency (deps : List String) (dep : String) : Except String (List String) :=
  let deps := deps.insert dep
  if deps.length ≥ 20000 then .error "proc dependency set exceeds cap" else .ok deps

/-- The dependencies of `add_manifest`. -/
def dependencySet (manifest : ProcArtifactManifest) (generatedDependencies : List String) :
    Except String (List String) := do
  let deps ← generatedDependencies.foldlM addDependency manifest.bundle.dedup
  return (manifest.includeNames.filter (· ≠ "")).foldl
    (fun deps name => deps.insert (includeEdge name)) deps

/-- `ProcDependencyIndex.add_manifest`; `MAX_MANIFEST_TARGETS` is 100000. -/
def addManifest (index : Index String String) (manifest : ProcArtifactManifest)
    (generatedDependencies : List String) : Except String (Index String String) := do
  let deps ← dependencySet manifest generatedDependencies
  ReverseIndex.add 100000 "reverse invalidation index exceeds target cap" index
    manifest.originalRelPath (deps.insertionSort (· ≤ ·))

/-- Further bundles, each with its `generated_dependencies`. -/
def addManifests (index : Index String String)
    (later : List (ProcArtifactManifest × List String)) : Except String (Index String String) :=
  later.foldlM (fun index m => addManifest index m.1 m.2) index

/-- `os.path.splitext(name)[0]`, of a base name -/
def root (name : List Char) : List Char :=
  let tail := (name.reverse.takeWhile (· != '.')).reverse
  let head := name.take (name.length - tail.length - 1)
  if tail.length = name.length || head.all (· == '.') then name else head

/-- `os.path.splitext(os.path.basename(path))[0]` -/
def stem (path : String) : String := String.ofList (root (basename path).toList)

/-- `ProcDependencyIndex.impacted_originals` -/
def impactedOriginals (index : Index String String) (changedFiles : List String) : List String :=
  impacted index (changedFiles ++ changedFiles.filterMap fun path =>
    if stem path = "" then none else some (includeEdge (stem path)))

section Index

variable {index after : Index String String} {manifest : ProcArtifactManifest}
  {generatedDependencies deps : List String} {dep key : String}

theorem mem_addDependencies {start : List String}
    (h : generatedDependencies.foldlM addDependency start = .ok deps) :
    dep ∈ deps ↔ dep ∈ start ∨ dep ∈ generatedDependencies := by
  induction generatedDependencies generalizing start with
  | nil =>
    cases h
    simp
  | cons first rest ih =>
    rw [List.foldlM_cons] at h
    obtain ⟨next, hnext, hrest⟩ := Fallible.bind_ok.mp h
    unfold addDependency at hnext
    simp only at hnext
    split at hnext
    · cases hnext
    · cases hnext
      rw [ih hrest, List.mem_insert_iff, List.mem_cons]
      tauto

theorem mem_insertEdges {names start : List String} :
    dep ∈ names.foldl (fun deps name => deps.insert (includeEdge name)) start ↔
      dep ∈ start ∨ ∃ name ∈ names, dep = includeEdge name := by
  induction names generalizing start with
  | nil => simp
  | cons name names ih =>
    rw [List.foldl_cons, ih, List.mem_insert_iff, List.exists_mem_cons_iff]
    tauto

theorem mem_dependencySet (h : dependencySet manifest generatedDependencies = .ok deps) :
    dep ∈ deps ↔ dep ∈ manifest.bundle ∨ dep ∈ generatedDependencies ∨
      ∃ name ∈ manifest.includeNames, name ≠ "" ∧ dep = includeEdge name := by
  obtain ⟨start, hstart, hdeps⟩ := Fallible.bind_ok.mp h
  cases hdeps
  rw [mem_insertEdges, mem_addDependencies hstart, List.mem_dedup, or_assoc]
  simp only [List.mem_filter, decide_eq_true_eq, and_assoc]

theorem includeEdge_inj {a b : String} (h : includeEdge a = includeEdge b) : a = b := by
  have hlist := congrArg String.toList h
  simp only [includeEdge, String.toList_append] at hlist
  exact String.toList_inj.mp (List.append_cancel_left hlist)

/-- **Which dependencies a source that is added has.** -/
theorem mem_consumers_addManifest
    (h : addManifest index manifest generatedDependencies = .ok after) :
    key ∈ consumers after dep ↔ key ∈ consumers index dep ∨
      (key = manifest.originalRelPath ∧ (dep ∈ manifest.bundle ∨ dep ∈ generatedDependencies ∨
        ∃ name ∈ manifest.includeNames, name ≠ "" ∧ dep = includeEdge name)) := by
  obtain ⟨deps, hdeps, hadd⟩ := Fallible.bind_ok.mp h
  rw [mem_consumers_add hadd, (List.perm_insertionSort _ deps).mem_iff, mem_dependencySet hdeps]

theorem mem_impactedOriginals {files : List String} :
    key ∈ impactedOriginals index files ↔ ∃ file ∈ files, key ∈ consumers index file ∨
      (stem file ≠ "" ∧ key ∈ consumers index (includeEdge (stem file))) := by
  unfold impactedOriginals
  rw [mem_impacted]
  constructor
  · rintro ⟨dep, hdep, hkey⟩
    rcases List.mem_append.mp hdep with hdep | hdep
    · exact ⟨dep, hdep, .inl hkey⟩
    · obtain ⟨file, hfile, hsome⟩ := List.mem_filterMap.mp hdep
      split at hsome
      · cases hsome
      · next hstem =>
        cases hsome
        exact ⟨file, hfile, .inr ⟨hstem, hkey⟩⟩
  · rintro ⟨file, hfile, hkey | ⟨hstem, hkey⟩⟩
    · exact ⟨file, List.mem_append_left _ hfile, hkey⟩
    · refine ⟨_, List.mem_append_right _ (List.mem_filterMap.mpr ⟨file, hfile, ?_⟩), hkey⟩
      rw [if_neg hstem]

theorem addManifests_mono {later : List (ProcArtifactManifest × List String)}
    (h : addManifests index later = .ok after)
    (hkey : key ∈ consumers index dep) : key ∈ consumers after dep := by
  induction later generalizing index with
  | nil =>
    cases h
    exact hkey
  | cons m later ih =>
    rw [addManifests, List.foldlM_cons] at h
    obtain ⟨next, hnext, hrest⟩ := Fallible.bind_ok.mp h
    exact ih hrest ((mem_consumers_addManifest hnext).mpr (.inl hkey))

end Index

/-! ## Base names -/

theorem slash_not_mem_basename (path : String) : '/' ∉ (basename path).toList := by
  unfold basename
  rw [String.toList_ofList, List.mem_reverse]
  intro h
  exact absurd (List.mem_takeWhile_imp h) (by decide)

/-- A file in a folder. -/
def inFolder (folder : String) (name : List Char) : String :=
  String.ofList (folder.toList ++ '/' :: name)

theorem basename_inFolder (folder : String) {name : List Char} (h : '/' ∉ name) :
    basename (inFolder folder name) = String.ofList name := by
  have hall : ∀ c ∈ name.reverse, (c != '/') = true := fun c hc =>
    bne_iff_ne.mpr fun he => h (he ▸ List.mem_reverse.mp hc)
  unfold basename inFolder
  rw [String.toList_ofList, List.reverse_append, List.reverse_cons, List.append_assoc,
    List.takeWhile_append_of_pos hall]
  simp

theorem stem_inFolder (folder : String) {name : List Char} (h : '/' ∉ name) :
    stem (inFolder folder name) = String.ofList (root name) := by
  rw [stem, basename_inFolder folder h, String.toList_ofList]

theorem root_dots {name : List Char} (h : name.all (· == '.') = true) : root name = name := by
  unfold root
  simp only
  rw [if_pos]
  rw [Bool.or_eq_true]
  refine .inr (List.all_eq_true.mpr fun c hc => ?_)
  exact List.all_eq_true.mp h c (List.mem_of_mem_take hc)

/-- An extension is taken off. -/
theorem root_extension {name : List Char} (h : name.all (· == '.') = false) :
    root (name ++ ['.', 'h']) = name := by
  have htail : ((name ++ ['.', 'h']).reverse.takeWhile (· != '.')).reverse = ['h'] := by simp
  have hhead : (name ++ ['.', 'h']).take ((name ++ ['.', 'h']).length - ['h'].length - 1) = name := by
    simp
  unfold root
  simp only [htail, hhead, h, Bool.or_false]
  rw [if_neg (by simp)]

theorem root_ne_nil {name : List Char} (h : name ≠ []) : root name ≠ [] := by
  unfold root
  simp only
  split
  · exact h
  · next hcond =>
    intro hnil
    rw [hnil] at hcond
    simp at hcond

theorem exists_stem {name : List Char} (hslash : '/' ∉ name) :
    ∃ file, '/' ∉ file ∧ root file = name := by
  by_cases hdots : name.all (· == '.') = true
  · exact ⟨name, hslash, root_dots hdots⟩
  · refine ⟨name ++ ['.', 'h'], ?_, root_extension (Bool.eq_false_iff.mpr hdots)⟩
    simp [hslash]

/-- A folder that is in none of the paths: its name is too long. -/
def farFolder (paths : List String) : String :=
  String.ofList (List.replicate (paths.flatMap String.toList).length 'x')

theorem length_le_flatMap {paths : List String} {path : String} (h : path ∈ paths) :
    path.toList.length ≤ (paths.flatMap String.toList).length := by
  induction paths with
  | nil => cases h
  | cons first paths ih =>
    rw [List.flatMap_cons, List.length_append]
    rcases List.mem_cons.mp h with rfl | h
    · omega
    · have := ih h
      omega

theorem farFolder_not_mem (paths : List String) (name : List Char) :
    inFolder (farFolder paths) name ∉ paths := by
  intro h
  have hle := length_le_flatMap h
  simp only [inFolder, farFolder, String.toList_ofList, List.length_append, List.length_replicate,
    List.length_cons] at hle
  omega

/-! ## Include statements -/

/-- An include statement in an admitted spelling: the keywords in any case, with blanks between
them; a target, bare or between quotes; and perhaps blanks before the semicolon. -/
structure Include where
  exec : List Char
  gap : List Char
  sql : List Char
  gap' : List Char
  keyword : List Char
  gap'' : List Char
  mark : Option Char
  target : List Char
  trail : List Char
  exec_eq : exec.map Char.toUpper = "EXEC".toList
  sql_eq : sql.map Char.toUpper = "SQL".toList
  keyword_eq : keyword.map Char.toUpper = "INCLUDE".toList
  gaps : ∀ blanks ∈ [gap, gap', gap''], blanks ≠ [] ∧ ∀ c ∈ blanks, isSpace c = true
  trail_blank : ∀ c ∈ trail, isSpace c = true
  mark_eq : ∀ c ∈ mark, isMark c = true
  bare : mark = none → ∀ c ∈ target, isSpace c = false
  named : basename (String.ofList target) ≠ ""

/-- What follows the keywords. -/
def Include.argument (i : Include) : List Char :=
  i.mark.toList ++ (i.target ++ (i.mark.toList ++ (i.trail ++ [';'])))

/-- The statement. -/
def Include.text (i : Include) : List Char :=
  i.exec ++ (i.gap ++ (i.sql ++ (i.gap' ++ (i.keyword ++ (i.gap'' ++ i.argument)))))

/-- The word after the keyword. -/
def Include.token (i : Include) : List Char := (words i.argument).headD []

section Statements

variable {upper : Char → List Char} {i : Include}

theorem caseless_of_toUpper {letter c : Char} (hletter : letter.toNat < 128)
    (h : c.toUpper = letter) : c.toNat < 128 ∧ caseless letter c = true := by
  subst h
  by_cases hc : c.toNat < 128
  · refine ⟨hc, ?_⟩
    have hcase : c = c.toUpper ∨ c = c.toUpper.toLower :=
      ascii_induction (p := fun c => c = c.toUpper ∨ c = c.toUpper.toLower) (by decide) hc
    rcases hcase with he | he
    · simp [caseless, ← he]
    · simp [caseless, ← he]
  · have hsame : c.toUpper = c := by
      unfold Char.toUpper
      rw [dif_neg]
      intro hlower
      have hle := hlower.2
      rw [UInt32.le_iff_toNat_le] at hle
      exact hc (Nat.lt_of_le_of_lt hle (by decide))
    rw [hsame] at hletter
    exact absurd hletter hc

theorem keyword_letters {word text : List Char} (hword : ∀ c ∈ word, c.toNat < 128)
    (h : text.map Char.toUpper = word) :
    (∀ c ∈ text, c.toNat < 128) ∧ (word.zip text).all (fun p => caseless p.1 p.2) = true := by
  induction text generalizing word with
  | nil =>
    subst h
    simp
  | cons c text ih =>
    obtain ⟨letter, word, rfl⟩ : ∃ letter letters, word = letter :: letters := ⟨_, _, h.symm⟩
    rw [List.map_cons, List.cons.injEq] at h
    rw [List.forall_mem_cons] at hword
    obtain ⟨hc, hcase⟩ := caseless_of_toUpper hword.1 h.1
    obtain ⟨hascii, hall⟩ := ih hword.2 h.2
    refine ⟨List.forall_mem_cons.mpr ⟨hc, hascii⟩, ?_⟩
    rw [List.zip_cons_cons, List.all_cons, hcase, hall]
    rfl

theorem afterWord_append {word text : List Char} (hword : ∀ c ∈ word, c.toNat < 128)
    (h : text.map Char.toUpper = word) (rest : List Char) :
    afterWord word (text ++ rest) = some rest := by
  have hlength : word.length = text.length := by rw [← h, List.length_map]
  have hzip : word.zip (text ++ rest) = word.zip text := by
    rw [← List.append_nil word, List.zip_append hlength, List.append_nil, List.zip_nil_left,
      List.append_nil]
  unfold afterWord
  rw [if_pos, hlength, List.drop_left]
  rw [hzip]
  exact ⟨by rw [List.length_append]; omega, (keyword_letters hword h).2⟩

theorem afterSpaces_append {blanks : List Char} (hne : blanks ≠ [])
    (hblank : ∀ c ∈ blanks, isSpace c = true) {rest : List Char}
    (hrest : ∀ c ∈ rest.head?, isSpace c = false) : afterSpaces (blanks ++ rest) = some rest := by
  have hdrop : rest.dropWhile isSpace = rest := by
    cases rest with
    | nil => rfl
    | cons c rest => exact List.dropWhile_cons_of_neg (by simp [hrest c rfl])
  unfold afterSpaces
  rw [List.dropWhile_append_of_pos hblank, hdrop, List.takeWhile_append_of_pos hblank]
  simp [hne]

theorem not_letter_of_isSpace {c : Char} (h : isSpace c = true) : caselessLetter c = false := by
  have hne : ∀ n : Nat, (Char.ofNat n).toNat ≠ c.toNat → c ≠ Char.ofNat n := by
    rintro n hn rfl
    exact hn rfl
  unfold isSpace at h
  simp only [Bool.or_eq_true, Bool.and_eq_true, decide_eq_true_eq, beq_iff_eq] at h
  have halpha : c.isAlpha = false := by
    apply Bool.eq_false_iff.mpr
    intro ha
    delta Char.isAlpha Char.isUpper Char.isLower at ha
    simp only [Bool.or_eq_true, Bool.and_eq_true, decide_eq_true_eq, ge_iff_le,
      UInt32.le_iff_toNat_le] at ha
    have hval : c.val.toNat = c.toNat := rfl
    simp only [hval] at ha
    have h1 : ('A' : Char).val.toNat = 65 := rfl
    have h2 : ('Z' : Char).val.toNat = 90 := rfl
    have h3 : ('a' : Char).val.toNat = 97 := rfl
    have h4 : ('z' : Char).val.toNat = 122 := rfl
    simp only [h1, h2, h3, h4] at ha
    omega
  have hlong : c ≠ 'ſ' := hne 0x17f (by change 0x17f ≠ c.toNat; omega)
  have hdotted : c ≠ 'İ' := hne 0x130 (by change 0x130 ≠ c.toNat; omega)
  have hdotless : c ≠ 'ı' := hne 0x131 (by change 0x131 ≠ c.toNat; omega)
  have hkelvin : c.toNat ≠ 0x212a := by omega
  simp [caselessLetter, halpha, hlong, hdotted, hdotless, hkelvin]

theorem letter_of_keyword {word text : List Char}
    (hword : ∀ c ∈ word, c.toNat < 128 ∧ c.isAlpha = true) (h : text.map Char.toUpper = word) :
    ∀ c ∈ text, caselessLetter c = true := by
  intro c hc
  have hmem : c.toUpper ∈ word := h ▸ List.mem_map_of_mem hc
  obtain ⟨hascii, halpha⟩ := hword _ hmem
  have hletter := ascii_induction (p := fun c => c.toUpper.isAlpha = true → c.isAlpha = true)
    (by decide) (caseless_of_toUpper hascii rfl).1 halpha
  simp [caselessLetter, hletter]

theorem upperText_ascii (hupper : ∀ c, c.toNat < 128 → upper c = [c.toUpper]) {text : List Char}
    (h : ∀ c ∈ text, c.toNat < 128) : upperText upper text = text.map Char.toUpper := by
  unfold upperText
  rw [← List.flatMap_singleton' (text.map Char.toUpper), List.flatMap_map]
  exact List.flatMap_congr fun c hc => hupper c (h c hc)

theorem head?_of_keyword {word text rest : List Char} (hne : word ≠ [])
    (hword : ∀ c ∈ word, c.toNat < 128 ∧ c.isAlpha = true) (h : text.map Char.toUpper = word) :
    ∀ c ∈ (text ++ rest).head?, isSpace c = false := by
  cases text with
  | nil => exact absurd h.symm hne
  | cons first text =>
    intro c hc
    cases hc
    have hletter := letter_of_keyword hword h first List.mem_cons_self
    apply Bool.eq_false_iff.mpr
    intro hspace
    rw [not_letter_of_isSpace hspace] at hletter
    cases hletter

theorem keyword_word : ∀ c ∈ "INCLUDE".toList, c.toNat < 128 ∧ c.isAlpha = true :=
  forall_mem_of_all (by decide)

theorem exec_word : ∀ c ∈ "EXEC".toList, c.toNat < 128 ∧ c.isAlpha = true :=
  forall_mem_of_all (by decide)

theorem sql_word : ∀ c ∈ "SQL".toList, c.toNat < 128 ∧ c.isAlpha = true :=
  forall_mem_of_all (by decide)

/-- **The operation of an include statement.** -/
theorem operationUpper_text (hupper : ∀ c, c.toNat < 128 → upper c = [c.toUpper]) (i : Include) :
    operationUpper upper i.text = "INCLUDE" := by
  obtain ⟨hgap, hgap', hgap''⟩ : _ ∧ _ ∧ _ := by simpa using i.gaps
  obtain ⟨blank, blanks, hblanks⟩ := List.exists_cons_of_ne_nil hgap''.1
  have hletters := letter_of_keyword keyword_word i.keyword_eq
  have htake : (i.keyword ++ (i.gap'' ++ i.argument)).takeWhile caselessLetter = i.keyword := by
    have hstop : caselessLetter blank = false :=
      not_letter_of_isSpace (hgap''.2 blank (hblanks ▸ List.mem_cons_self))
    rw [List.takeWhile_append_of_pos hletters, hblanks, List.cons_append,
      List.takeWhile_cons_of_neg (by simp [hstop]), List.append_nil]
  have hkeyword : i.keyword ≠ [] := by
    intro hnil
    have := i.keyword_eq
    rw [hnil] at this
    cases this
  have hat : operationAt i.text = some i.keyword := by
    unfold operationAt Include.text
    rw [show ['E', 'X', 'E', 'C'] = "EXEC".toList from rfl,
      afterWord_append (fun c hc => (exec_word c hc).1) i.exec_eq]
    simp only [Option.bind_eq_bind, Option.bind_some]
    rw [afterSpaces_append hgap.1 hgap.2 (head?_of_keyword (by decide) sql_word i.sql_eq)]
    simp only [Option.bind_some]
    rw [show ['S', 'Q', 'L'] = "SQL".toList from rfl,
      afterWord_append (fun c hc => (sql_word c hc).1) i.sql_eq]
    simp only [Option.bind_some]
    rw [afterSpaces_append hgap'.1 hgap'.2 (head?_of_keyword (by decide) keyword_word i.keyword_eq)]
    simp only [Option.bind_some, htake]
    simp [hkeyword]
  have hsearch : search operationAt i.text = some i.keyword := by
    cases htext : i.text with
    | nil =>
      rw [htext] at hat
      cases hat
    | cons c rest =>
      rw [htext] at hat
      rw [search, hat]
  have hascii := (keyword_letters (fun c hc => (keyword_word c hc).1) i.keyword_eq).1
  unfold operationUpper operationOf
  rw [hsearch]
  simp only
  rw [upperText_ascii hupper hascii, i.keyword_eq,
    upperText_ascii hupper fun c hc => (keyword_word c hc).1]
  decide

theorem words_blank {blanks : List Char} (h : ∀ c ∈ blanks, isSpace c = true) (rest : List Char) :
    words (blanks ++ rest) = words rest := by
  induction blanks with
  | nil => rfl
  | cons c blanks ih =>
    rw [List.forall_mem_cons] at h
    rw [List.cons_append, words_cons h.1, ih h.2]

theorem words_keyword {word text blanks : List Char} (hne : word ≠ [])
    (hword : ∀ c ∈ word, c.toNat < 128 ∧ c.isAlpha = true) (h : text.map Char.toUpper = word)
    (hblanks : blanks ≠ [] ∧ ∀ c ∈ blanks, isSpace c = true) (rest : List Char) :
    words (text ++ (blanks ++ rest)) = text :: words rest := by
  have htext : text ≠ [] := by
    rintro rfl
    exact hne h.symm
  have hspace : ∀ c ∈ text, isSpace c = false := by
    intro c hc
    apply Bool.eq_false_iff.mpr
    intro hs
    have := letter_of_keyword hword h c hc
    rw [not_letter_of_isSpace hs] at this
    cases this
  obtain ⟨blank, blanks, rfl⟩ := List.exists_cons_of_ne_nil hblanks.1
  obtain ⟨hblank, hrest⟩ := List.forall_mem_cons.mp hblanks.2
  rw [List.cons_append, words_word_cons htext hspace hblank, words_blank hrest]

/-- **What is extracted of an include statement.** -/
theorem includeTarget_text (hupper : ∀ c, c.toNat < 128 → upper c = [c.toUpper]) (i : Include)
    (hargument : words i.argument ≠ []) : includeTarget upper i.text = targetOf i.token := by
  obtain ⟨hgap, hgap', hgap''⟩ : _ ∧ _ ∧ _ := by simpa using i.gaps
  have hwords : words (stripChars i.text) = i.exec :: i.sql :: i.keyword :: words i.argument := by
    rw [words_stripChars, Include.text,
      words_keyword (by decide) exec_word i.exec_eq hgap,
      words_keyword (by decide) sql_word i.sql_eq hgap',
      words_keyword (by decide) keyword_word i.keyword_eq hgap'']
  have hascii {word text : List Char} (hword : ∀ c ∈ word, c.toNat < 128 ∧ c.isAlpha = true)
      (h : text.map Char.toUpper = word) : upperText upper text = word := by
    rw [upperText_ascii hupper (keyword_letters (fun c hc => (hword c hc).1) h).1, h]
  obtain ⟨token, rest, htoken⟩ := List.exists_cons_of_ne_nil hargument
  have hdrop : (i.exec :: i.sql :: i.keyword :: words i.argument).dropWhile
      (fun token => upperText upper token ≠ "INCLUDE".toList) = i.keyword :: token :: rest := by
    rw [List.dropWhile_cons_of_pos (by simp [hascii exec_word i.exec_eq]),
      List.dropWhile_cons_of_pos (by simp [hascii sql_word i.sql_eq]),
      List.dropWhile_cons_of_neg (by simp [hascii keyword_word i.keyword_eq]), htoken]
  unfold includeTarget
  rw [if_neg (by simp [operationUpper_text hupper i])]
  simp only [hwords, hdrop]
  rw [Include.token, htoken]
  rfl

theorem words_ne_nil {text : List Char} {c : Char} (hc : c ∈ text) (hspace : isSpace c = false) :
    words text ≠ [] := by
  induction text with
  | nil => cases hc
  | cons first text ih =>
    cases hfirst : isSpace first with
    | true =>
      rw [words_cons hfirst]
      refine ih ((List.mem_cons.mp hc).resolve_left ?_)
      rintro rfl
      rw [hfirst] at hspace
      cases hspace
    | false =>
      -- the first word runs to the first blank
      have hsplit := List.takeWhile_append_dropWhile (p := fun c => !isSpace c) (l := first :: text)
      have hword : ∀ c ∈ (first :: text).takeWhile (fun c => !isSpace c), isSpace c = false := by
        intro c hc
        simpa using List.mem_takeWhile_imp hc
      have hne : (first :: text).takeWhile (fun c => !isSpace c) ≠ [] := by
        rw [List.takeWhile_cons_of_pos (by simp [hfirst])]
        simp
      cases hrest : (first :: text).dropWhile fun c => !isSpace c with
      | nil =>
        rw [hrest, List.append_nil] at hsplit
        rw [← hsplit, words_singleton hne hword]
        simp
      | cons blank rest =>
        have hblank : isSpace blank = true := by
          have hhead := List.head_dropWhile_not (fun c => !isSpace c)
            (l := first :: text) (by rw [hrest]; simp)
          simpa [hrest] using hhead
        rw [hrest] at hsplit
        rw [← hsplit, words_word_cons hne hword hblank]
        simp

theorem Include.words_argument (i : Include) : words i.argument ≠ [] :=
  words_ne_nil (c := ';') (by simp [Include.argument]) (by decide)

/-! ## The tokens of a source -/

/-- What the include statements of a source are extracted as. -/
def tokens (includes : List Include) : List (List Char) :=
  (firsts id (includes.filterMap fun i => targetOf i.token)).take maxExecSqlIncludes

/-- The include statements of a source. -/
def IncludesOf (upper : Char → List Char) (regions : List ProcRegion) (includes : List Include) :
    Prop :=
  (regions.filter fun r => operationUpper upper r.rawText = "INCLUDE").map ProcRegion.rawText =
    includes.map Include.text

theorem extract_eq (hupper : ∀ c, c.toNat < 128 → upper c = [c.toUpper])
    {regions : List ProcRegion} {includes : List Include}
    (h : IncludesOf upper regions includes) :
    extractExecSqlIncludes upper regions = tokens includes := by
  have hfilter : regions.filterMap (fun r => includeTarget upper r.rawText) =
      ((regions.filter fun r => operationUpper upper r.rawText = "INCLUDE").map
        ProcRegion.rawText).filterMap (includeTarget upper) := by
    rw [List.filterMap_map, List.filterMap_filter]
    refine List.filterMap_congr fun r _ => ?_
    by_cases hop : operationUpper upper r.rawText = "INCLUDE"
    · simp [hop]
    · simp [hop, includeTarget]
  unfold extractExecSqlIncludes tokens
  rw [hfilter, h, List.filterMap_map]
  congr 2
  exact List.filterMap_congr fun i _ => includeTarget_text hupper i i.words_argument

/-- A target that is one word, without marks and semicolons. -/
def Tidy (target : List Char) : Prop :=
  target ≠ [] ∧ ∀ c ∈ target, isSpace c = false ∧ isMark c = false ∧ (c == ';') = false

theorem dropWhile_none {p : Char → Bool} {text : List Char} (h : ∀ c ∈ text, p c = false) :
    text.dropWhile p = text := by
  cases text with
  | nil => rfl
  | cons c text => exact List.dropWhile_cons_of_neg (by simp [h c List.mem_cons_self])

theorem rdropWhile_none {p : Char → Bool} {text : List Char} (h : ∀ c ∈ text, p c = false) :
    text.rdropWhile p = text := by
  unfold List.rdropWhile
  rw [dropWhile_none fun c hc => h c (List.mem_reverse.mp hc), List.reverse_reverse]

/-- **A bare target, or one with blanks before the semicolon, is its own token.** -/
theorem cleanTarget_plain (htidy : Tidy i.target) (hplain : i.mark = none ∨ i.trail ≠ []) :
    cleanTarget i.token = i.target := by
  obtain ⟨hne, hchars⟩ := htidy
  have hmarks := dropWhile_none fun c hc => (hchars c hc).2.1
  have hmarks' := rdropWhile_none fun c hc => (hchars c hc).2.1
  have hsemis := rdropWhile_none fun c hc => (hchars c hc).2.2
  obtain ⟨c, hc⟩ := List.exists_mem_of_ne_nil _ hne
  by_cases htrail : i.trail = []
  · -- the semicolon belongs to the word
    have hmark := hplain.resolve_right fun h => h htrail
    have hword : ∀ c ∈ i.target ++ [';'], isSpace c = false := by
      intro c hc
      rcases List.mem_append.mp hc with hc | hc
      · exact (hchars c hc).1
      · rw [List.mem_singleton.mp hc]
        decide
    have hfirst : (i.target ++ [';']).dropWhile isMark = i.target ++ [';'] :=
      dropWhile_none fun c hc => by
        rcases List.mem_append.mp hc with hc | hc
        · exact (hchars c hc).2.1
        · rw [List.mem_singleton.mp hc]
          decide
    have hlast : (i.target ++ [';']).rdropWhile isMark = i.target ++ [';'] :=
      rdropWhile_none fun c hc => by
        rcases List.mem_append.mp hc with hc | hc
        · exact (hchars c hc).2.1
        · rw [List.mem_singleton.mp hc]
          decide
    have hargument : i.argument = i.target ++ [';'] := by simp [Include.argument, hmark, htrail]
    rw [Include.token, hargument, words_singleton (by simp) hword]
    simp only [List.headD_cons, cleanTarget, hfirst, hlast]
    rw [List.rdropWhile_concat_pos _ _ _ (by decide), hsemis]
  · obtain ⟨blank, blanks, hblanks⟩ := List.exists_cons_of_ne_nil htrail
    have hblank := i.trail_blank blank (hblanks ▸ List.mem_cons_self)
    have hmark : ∀ c ∈ i.mark.toList, isMark c = true := by
      intro c hc
      exact i.mark_eq c (Option.mem_toList.mp hc)
    have hspace : ∀ c ∈ i.mark.toList ++ (i.target ++ i.mark.toList), isSpace c = false := by
      have hquote : ∀ c ∈ i.mark.toList, isSpace c = false := by
        intro c hc
        have := hmark c hc
        simp only [isMark, Bool.or_eq_true, beq_iff_eq] at this
        rcases this with rfl | rfl <;> decide
      intro c hc
      rcases List.mem_append.mp hc with hc | hc
      · exact hquote c hc
      · rcases List.mem_append.mp hc with hc | hc
        · exact (hchars c hc).1
        · exact hquote c hc
    have hargument : i.argument = (i.mark.toList ++ (i.target ++ i.mark.toList)) ++
        blank :: (blanks ++ [';']) := by simp [Include.argument, hblanks]
    have hbody : (i.target ++ i.mark.toList).dropWhile isMark = i.target ++ i.mark.toList := by
      cases htarget : i.target with
      | nil => exact absurd htarget hne
      | cons first rest =>
        rw [List.cons_append]
        exact List.dropWhile_cons_of_neg
          (by simp [(hchars first (htarget ▸ List.mem_cons_self)).2.1])
    have hback : (i.target ++ i.mark.toList).rdropWhile isMark = i.target := by
      cases hm : i.mark with
      | none => rw [Option.toList_none, List.append_nil, hmarks']
      | some q =>
        rw [Option.toList_some, List.rdropWhile_concat_pos _ _ _ (hmark q (by simp [hm])), hmarks']
    rw [Include.token, hargument, words_word_cons (by simp [hne]) hspace hblank]
    simp only [List.headD_cons, cleanTarget]
    rw [List.dropWhile_append_of_pos hmark, hbody, hback, hsemis]

/-- **A quoted target with the semicolon right after it keeps the closing quote.** -/
theorem cleanTarget_tight {q : Char} (htidy : Tidy i.target) (hmark : i.mark = some q)
    (htrail : i.trail = []) : cleanTarget i.token = i.target ++ [q] := by
  obtain ⟨hne, hchars⟩ := htidy
  have hq : isMark q = true := i.mark_eq q (by simp [hmark])
  have hquote : isSpace q = false ∧ (q == ';') = false := by
    simp only [isMark, Bool.or_eq_true, beq_iff_eq] at hq
    rcases hq with rfl | rfl <;> decide
  have hargument : i.argument = q :: (i.target ++ [q, ';']) := by
    simp [Include.argument, hmark, htrail]
  have hspace : ∀ c ∈ q :: (i.target ++ [q, ';']), isSpace c = false := by
    intro c hc
    rcases List.mem_cons.mp hc with rfl | hc
    · exact hquote.1
    · rcases List.mem_append.mp hc with hc | hc
      · exact (hchars c hc).1
      · rcases List.mem_cons.mp hc with rfl | hc
        · exact hquote.1
        · rw [List.mem_singleton.mp hc]
          decide
  have hbody : (i.target ++ [q, ';']).dropWhile isMark = i.target ++ [q, ';'] := by
    cases htarget : i.target with
    | nil => exact absurd htarget hne
    | cons first rest =>
      rw [List.cons_append]
      exact List.dropWhile_cons_of_neg
        (by simp [(hchars first (htarget ▸ List.mem_cons_self)).2.1])
  have hsplit : i.target ++ [q, ';'] = (i.target ++ [q]) ++ [';'] := by simp
  rw [Include.token, hargument, words_singleton (by simp) hspace]
  simp only [List.headD_cons, cleanTarget]
  rw [List.dropWhile_cons_of_pos hq, hbody, hsplit, List.rdropWhile_concat_neg _ _ _ (by decide),
    List.rdropWhile_concat_pos _ _ _ (by decide), List.rdropWhile_concat_neg _ _ _ (by simp [hquote.2])]

/-! ## What a changed file impacts -/

section Impact

variable {index after : Index String String} {manifest : ProcArtifactManifest}
  {generatedDependencies : List String} {includes : List Include}

/-- The base name of a target. -/
def Include.base (i : Include) : String := basename (String.ofList i.target)

/-- The file has the base name of the target, with or without its extension. -/
def Include.Names (i : Include) (file : String) : Prop :=
  basename file = i.base ∨ stem file = i.base

/-- The name is a token of the source, or the source depended on its edge already. -/
def Known (index : Index String String) (manifest : ProcArtifactManifest)
    (generatedDependencies : List String) (includes : List Include) (name : String) : Prop :=
  name ∈ (tokens includes).map String.ofList ∨ includeEdge name ∈ manifest.bundle ∨
    includeEdge name ∈ generatedDependencies ∨
    manifest.originalRelPath ∈ consumers index (includeEdge name)

theorem consumers_includeEdge (hnames : manifest.includeNames =
      (tokens includes).map String.ofList)
    (hadd : addManifest index manifest generatedDependencies = .ok after) {name : String}
    (hname : name ≠ "") :
    manifest.originalRelPath ∈ consumers after (includeEdge name) ↔
      Known index manifest generatedDependencies includes name := by
  rw [mem_consumers_addManifest hadd, Known, hnames]
  constructor
  · rintro (hold | ⟨-, hbundle | hgenerated | ⟨name', hmem, -, he⟩⟩)
    · exact .inr (.inr (.inr hold))
    · exact .inr (.inl hbundle)
    · exact .inr (.inr (.inl hgenerated))
    · exact .inl (includeEdge_inj he ▸ hmem)
  · rintro (hmem | hbundle | hgenerated | hold)
    · exact .inr ⟨rfl, .inr (.inr ⟨name, hmem, hname, rfl⟩)⟩
    · exact .inr ⟨rfl, .inl hbundle⟩
    · exact .inr ⟨rfl, .inr (.inl hgenerated)⟩
    · exact .inl hold

/-- A file far from everything registered impacts by its stem only. -/
theorem impacted_far (hadd : addManifest index manifest generatedDependencies = .ok after) :
    ∃ folder, ∀ name, '/' ∉ name →
      manifest.originalRelPath ∈ impactedOriginals after [inFolder folder name] →
      manifest.originalRelPath ∈ consumers after (includeEdge (String.ofList (root name))) := by
  let paths := index.map Prod.fst ++ manifest.bundle ++ generatedDependencies ++
    manifest.includeNames.map includeEdge
  refine ⟨farFolder paths, fun name hslash himpacted => ?_⟩
  have hfar := farFolder_not_mem paths name
  obtain ⟨file, hfile, hdirect | ⟨-, hstem⟩⟩ := mem_impactedOriginals.mp himpacted
  · rw [List.mem_singleton.mp hfile] at hdirect
    exfalso
    apply hfar
    rcases (mem_consumers_addManifest hadd).mp hdirect with
      hold | ⟨-, hbundle | hgenerated | ⟨name', hmem, -, he⟩⟩
    · have hkey : inFolder (farFolder paths) name ∈ index.map Prod.fst := by
        unfold consumers at hold
        cases hl : lookup Prod.fst (inFolder (farFolder paths) name) index with
        | none =>
          rw [hl] at hold
          cases hold
        | some e => exact List.mem_map.mpr ⟨e, lookup_mem hl, lookup_key hl⟩
      simp only [paths, List.mem_append]
      exact .inl (.inl (.inl hkey))
    · simp only [paths, List.mem_append]
      exact .inl (.inl (.inr hbundle))
    · simp only [paths, List.mem_append]
      exact .inl (.inr hgenerated)
    · simp only [paths, List.mem_append]
      exact .inr (List.mem_map.mpr ⟨name', hmem, he.symm⟩)
  · rwa [List.mem_singleton.mp hfile, stem_inFolder _ hslash] at hstem

/-- **The files of a bundle always impact it, and the files of an included name do exactly when the
base name of the target, and it without its extension, are tokens of the source too.** -/
theorem includes_impact_iff {cd : Codecs} {raw : List UInt8}
    (hupper : ∀ c, c.toNat < 128 → upper c = [c.toUpper])
    (hincludes : IncludesOf upper (prepareProcBytes cd raw).regions includes)
    (hnames : manifest.includeNames =
      (extractExecSqlIncludes upper (prepareProcBytes cd raw).regions).map String.ofList)
    (hadd : addManifest index manifest generatedDependencies = .ok after) :
    (∀ later final, addManifests after later = .ok final → ∀ file ∈ manifest.bundle,
        manifest.originalRelPath ∈ impactedOriginals final [file]) ∧
      ((∀ i ∈ includes, ∀ file, i.Names file →
          manifest.originalRelPath ∈ impactedOriginals after [file]) ↔
        ∀ i ∈ includes, Known index manifest generatedDependencies includes i.base ∧
          Known index manifest generatedDependencies includes
            (String.ofList (root i.base.toList))) := by
  rw [extract_eq hupper hincludes] at hnames
  refine ⟨?_, ?_, ?_⟩
  · intro later final hlater file hfile
    have hconsumer : manifest.originalRelPath ∈ consumers after file :=
      (mem_consumers_addManifest hadd).mpr (.inr ⟨rfl, .inl hfile⟩)
    exact mem_impactedOriginals.mpr
      ⟨file, List.mem_singleton.mpr rfl, .inl (addManifests_mono hlater hconsumer)⟩
  · intro h i hi
    obtain ⟨folder, hfolder⟩ := impacted_far hadd
    have hslash : '/' ∉ i.base.toList := slash_not_mem_basename _
    have hbase : i.base ≠ "" := i.named
    have hlist : i.base.toList ≠ [] := fun hnil => hbase (String.toList_inj.mp hnil)
    constructor
    · -- a file whose stem is the base name
      obtain ⟨name, hname, hroot⟩ := exists_stem hslash
      have hstem := hfolder name hname (h i hi _ (.inr (by
        rw [stem_inFolder folder hname, hroot, String.ofList_toList])))
      rw [hroot, String.ofList_toList] at hstem
      exact (consumers_includeEdge hnames hadd hbase).mp hstem
    · -- a file of the base name itself
      have hstem := hfolder i.base.toList hslash (h i hi _ (.inl (by
        rw [basename_inFolder folder hslash, String.ofList_toList])))
      have hroot : String.ofList (root i.base.toList) ≠ "" := fun he =>
        root_ne_nil hlist (String.ofList_injective he)
      exact (consumers_includeEdge hnames hadd hroot).mp hstem
  · intro h i hi file hfile
    obtain ⟨hwhole, hshort⟩ := h i hi
    have hlist : i.base.toList ≠ [] := fun hnil => i.named (String.toList_inj.mp hnil)
    refine mem_impactedOriginals.mpr ⟨file, List.mem_singleton.mpr rfl, .inr ?_⟩
    rcases hfile with hfile | hfile
    · have hroot : stem file ≠ "" := by
        rw [stem, hfile]
        exact fun he => root_ne_nil hlist (String.ofList_injective he)
      refine ⟨hroot, (consumers_includeEdge hnames hadd hroot).mpr ?_⟩
      rw [stem, hfile]
      exact hshort
    · rw [hfile]
      exact ⟨i.named, (consumers_includeEdge hnames hadd i.named).mpr hwhole⟩

end Impact

end Statements

/-! ## Two sources -/

/-- An include of a stem, in capitals. -/
def commonInclude : Include where
  exec := "EXEC".toList
  gap := [' ']
  sql := "SQL".toList
  gap' := [' ']
  keyword := "INCLUDE".toList
  gap'' := [' ']
  mark := none
  target := "common".toList
  trail := []
  exec_eq := by decide
  sql_eq := by decide
  keyword_eq := by decide
  gaps := by
    have hblank : ∀ c ∈ [' '], isSpace c = true := forall_mem_of_all (by decide)
    simpa using hblank
  trail_blank := nofun
  mark_eq := nofun
  bare := fun _ => forall_mem_of_all (by decide)
  named := by decide

/-- A source with one include. -/
def includeSource (target : String) : List Char :=
  ("EXEC SQL INCLUDE " ++ target ++ ";\n").toList

/-- `str.upper` of an ASCII character. -/
def asciiCapital (c : Char) : List Char := [c.toUpper]

def sampleManifest (names : List String) : ProcArtifactManifest where
  originalRelPath := "src/a.pc"
  generatedRelPath := "gen/a.c"
  sourceMapRelPath := "gen/a.map"
  sourceMapId := "a"
  includeNames := names

theorem regions_source (text : List Char) : (prepareProcBytes asciiCodecs (encode text)).regions =
    (maskExecutableSql asciiCodecs text).2.1 := by
  unfold prepareProcBytes decodeSource
  rw [decodeUtf8_encode]

/-- **A header included by its full name does not impact the source.** -/
theorem extension_not_impacted :
    (extractExecSqlIncludes asciiCapital (prepareProcBytes asciiCodecs
        (encode (includeSource "common.h"))).regions).map String.ofList = ["common.h"] ∧
      (addManifest [] (sampleManifest ["common.h"]) []).map
        (impactedOriginals · ["inc/common.h"]) = .ok [] := by
  rw [regions_source]
  decide +kernel

def sampleIndex : Index String String :=
  [("gen/a.c", ["src/a.pc"]), ("gen/a.map", ["src/a.pc"]), ("proc-include:common", ["src/a.pc"]),
    ("src/a.pc", ["src/a.pc"])]

/-- A header included by its stem does. -/
theorem includes_impact_iff_stem :
    ∃ after, addManifest [] (sampleManifest ["common"]) [] = .ok after ∧
      ∀ file, commonInclude.Names file →
        "src/a.pc" ∈ impactedOriginals after [file] := by
  have hregions : (prepareProcBytes asciiCodecs (encode (includeSource "common"))).regions =
      [{ startByte := 0, endByte := 24, startLine := 1, endLine := 1
         rawText := "EXEC SQL INCLUDE common;".toList }] := by
    rw [regions_source]
    decide +kernel
  have hincludes : IncludesOf asciiCapital
      (prepareProcBytes asciiCodecs (encode (includeSource "common"))).regions
      [commonInclude] := by
    rw [hregions]
    unfold IncludesOf
    decide +kernel
  have hnames : (sampleManifest ["common"]).includeNames =
      (extractExecSqlIncludes asciiCapital (prepareProcBytes asciiCodecs
        (encode (includeSource "common"))).regions).map String.ofList := by
    rw [hregions]
    decide +kernel
  have hadd : addManifest [] (sampleManifest ["common"]) [] = .ok sampleIndex := by
    decide +kernel
  refine ⟨sampleIndex, hadd, ?_⟩
  refine (includes_impact_iff (fun _ _ => rfl) hincludes hnames hadd).2.mpr ?_ _ List.mem_cons_self
  intro i hi
  rw [List.mem_singleton.mp hi]
  have hbase : commonInclude.base = "common" := by decide +kernel
  have hroot : String.ofList (root commonInclude.base.toList) = "common" := by decide +kernel
  have htokens : (tokens [commonInclude]).map String.ofList = ["common"] := by decide +kernel
  rw [hroot, hbase]
  exact ⟨.inl (by rw [htokens]; simp), .inl (by rw [htokens]; simp)⟩

end CortexHarness.Proc
