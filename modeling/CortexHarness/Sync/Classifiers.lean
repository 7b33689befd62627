import CortexHarness.Library.Matcher
import CortexHarness.Messages.Scan

/-!
# What the classifiers read in a tree

Model of `_AndroidPathClassifier` (`incremental_sync.py:520-592`), `VBPathClassifier`
(`vb/vb_path_classifier.py`) and `jp1/sniff.py`, as functions of the tree they look at: the caches
of a classifier live as long as one call of `_group_paths_by_parser` and only save reads.

* Paths are relative to the root and have no backslash (`_normalize_project_path`).
* A decoder of bytes is a parameter, and so is what `re` knows of characters. A decoder that raises
  ends the run, and then no path is assigned.

Results:
* `select_congr`: the owner of a path follows from its text and the classifiers its extension asks;
* `deleted_owner_iff`: a deleted path is given to the parser that had it exactly if what the
  classifiers read for it says the same after the deletion.
-/

namespace CortexHarness.Sync.Classifiers

open Matcher
open Messages (splitLines)

abbrev Bytes := List UInt8

/-- A source tree, by paths below its root. -/
structure SourceTree where
  /-- `os.path.isfile` -/
  isFile : String → Bool
  /-- what `open(path, "rb")` reads, `none` where it raises -/
  bytes : String → Option Bytes
  /-- `os.listdir`, empty where it raises -/
  listdir : String → List String
  isFile_of_bytes : ∀ path, (bytes path).isSome → isFile path = true

theorem SourceTree.bytes_of_gone {t : SourceTree} {path : String} (h : t.isFile path = false) :
    t.bytes path = none := by
  rw [← Option.not_isSome_iff_eq_none]
  intro hsome
  rw [t.isFile_of_bytes path hsome] at h
  cases h

/-- How the texts of a file are read. -/
structure Reading where
  /-- `str.lower` -/
  lower : String → String
  lower_of_isLower : ∀ text, text.toList.all Char.isLower = true → lower text = text
  alphabet : Alphabet
  /-- `decode_legacy_bytes(data).text` -/
  decodeLegacy : Bytes → String
  /-- `open(…, encoding="utf-8", errors="ignore").read()` -/
  decodeIgnoring : Bytes → String
  /-- `data.decode("utf-8")`, else `data.decode("latin-1")` -/
  decodeUtf8OrLatin1 : Bytes → String

/-- `text.strip(chars)` -/
def stripOf (chars : List Char) (text : String) : String :=
  String.ofList ((text.toList.dropWhile chars.contains).reverse.dropWhile chars.contains).reverse

/-- `os.path.dirname` of a relative path. -/
def dirname (path : String) : String :=
  String.ofList ((path.toList.reverse.dropWhile (· != '/')).dropWhile (· == '/')).reverse

/-- `part in text` -/
def hasText (text part : String) : Bool :=
  text.toList.tails.any fun rest => part.toList.isPrefixOf rest

/-- A path below a directory, the root being the empty text. -/
def below (dir name : String) : String := if dir = "" then name else dir ++ "/" ++ name

/-- The directories a climbing loop probes, the root last. -/
def probes (dir : String) : List String :=
  (((stripOf ['/'] dir).toList.splitOn '/').inits.reverse).map fun parts =>
    String.ofList (['/'].intercalate parts)

variable (R : Reading) (t : SourceTree)

/-! ## JP1 -/

/-- `_sniff` on the decoded text. -/
def sniffJp1 (text : String) : Bool :=
  let nonblank := ((splitLines [] text.toList).map strip).filter (· ≠ "")
  let isUnit := Matcher.startsWith (literal R.alphabet "unit=")
  let isType := Matcher.startsWith
    (seq [literal R.alphabet "ty", star isSpace, literal R.alphabet "="])
  (nonblank.take 5).any (fun line => isUnit line.toList) &&
    (nonblank.take 10).any (fun line => CortexHarness.startsWith line "\x7b" || line == "\x7b") &&
    (nonblank.take 50).any (fun line => isType line.toList)

/-- `is_jp1_file` -/
def isJp1File (path : String) : Bool :=
  endsWith (R.lower path) ".txt" &&
    match t.bytes path with
    | some data => sniffJp1 R (R.decodeLegacy (data.take 65536))
    | none => false

/-! ## Android -/

/-- `_ANDROID_PLUGIN_MARKERS` -/
def androidPluginMarkers : List String :=
  ["com.android.application", "com.android.library", "com.android.dynamic-feature",
    "com.android.test", "com.android.instantapp"]

/-- `_module_dir_from_path` -/
def moduleDirFromPath (path : String) : Option String :=
  let parts := (path.toList.splitOn '/').filter (· ≠ [])
  if parts.dropLast.contains "src".toList then
    some (String.ofList (['/'].intercalate (parts.takeWhile (· ≠ "src".toList))))
  else none

/-- `_module_has_android_manifest` -/
def moduleHasAndroidManifest (moduleDir : String) : Bool :=
  t.isFile (below moduleDir "src/main/AndroidManifest.xml")

/-- `_detect_android_gradle` -/
def detectAndroidGradle (dir : String) : Bool :=
  ["build.gradle", "build.gradle.kts"].any fun gradleName =>
    t.isFile (below dir gradleName) &&
      match t.bytes (below dir gradleName) with
      | some data =>
        let content := R.lower (String.ofList ((R.decodeIgnoring data).toList.take 65536))
        androidPluginMarkers.any fun marker => hasText content marker
      | none => false

/-- The rules of `is_android_path` that look at the path alone. -/
def androidPathRule (path : String) : Bool :=
  let lower := R.lower path
  let name := basename lower
  name == "androidmanifest.xml" || endsWith name ".gradle" || endsWith name ".gradle.kts" ||
    hasText lower "/src/main/res/" ||
    (endsWith lower ".xml" && hasText lower "/res/" && hasText lower "/src/")

/-- What `is_android_path` finds in the tree: the manifest of the module, or a build file above the
path that names an Android plugin. -/
def androidEvidence (path : String) : Bool :=
  (match moduleDirFromPath path with
    | some moduleDir => moduleDir != "" && moduleHasAndroidManifest t moduleDir
    | none => false) ||
    (probes (dirname path)).any fun probe => detectAndroidGradle R t probe

/-- `is_android_path` -/
def isAndroidPath (path : String) : Bool :=
  androidPathRule R path ||
    ([".java", ".kt", ".kts", ".xml"].contains (extension (R.lower path)) &&
      androidEvidence R t path)

/-! ## VB -/

section Patterns

variable (alphabet : Alphabet)

/-- `\b(t1|t2|…)` -/
def anyOf (texts : List String) : Pattern :=
  texts.foldr (fun text p => either (literal alphabet text) p) fun _ => []

/-- `text\s*(` after a word boundary. -/
def callOf (text : String) : Pattern :=
  seq [boundary alphabet, literal alphabet text, star isSpace, literal alphabet "("]

/-- A whole word. -/
def wordOf (text : String) : Pattern :=
  seq [boundary alphabet, literal alphabet text, boundary alphabet]

/-- `\bobject\.(t1|t2|…)\b` -/
def memberOf (object : String) (texts : List String) : Pattern :=
  seq [boundary alphabet, literal alphabet object, literal alphabet ".", anyOf alphabet texts,
    boundary alphabet]

/-- `_VB6_STRONG_PATTERNS` -/
def vb6StrongPatterns : List Pattern :=
  [seq [lineStart, star isSpace, literal alphabet "VERSION", plus isSpace,
      literal alphabet "5.00"],
    seq [boundary alphabet, literal alphabet "Begin", plus isSpace, literal alphabet "VB."],
    seq [boundary alphabet, literal alphabet "Attribute", plus isSpace,
      literal alphabet "VB_GlobalNameSpace", boundary alphabet]]

/-- `_VBA_STRONG_PATTERNS` -/
def vbaStrongPatterns : List Pattern :=
  [wordOf alphabet "ThisWorkbook",
    seq [boundary alphabet, literal alphabet "Worksheet", opt (literal alphabet "s"), star isSpace,
      literal alphabet "("],
    wordOf alphabet "Workbook", memberOf alphabet "Application" ["WorksheetFunction"],
    callOf alphabet "Range", wordOf alphabet "ActiveWorkbook"]

/-- `_VBA_OFFICE_PATTERNS` -/
def vbaOfficePatterns : List Pattern :=
  [seq [boundary alphabet, anyOf alphabet ["ActiveSheet", "ActiveCell", "Selection"],
      boundary alphabet],
    memberOf alphabet "Application" ["Excel", "Word", "Access", "PowerPoint", "Outlook"],
    callOf alphabet "Cells", callOf alphabet "Range"]

/-- `_VB6_CONTROL_PATTERNS` -/
def vb6ControlPatterns : List Pattern :=
  [seq [boundary alphabet, literal alphabet "Begin", plus isSpace,
      anyOf alphabet ["VB.", "Form."]],
    seq [boundary alphabet, literal alphabet "Attribute", plus isSpace, literal alphabet "VB_",
      plus alphabet.word, boundary alphabet],
    seq [boundary alphabet, anyOf alphabet ["Click", "DoubleClick", "MouseDown", "MouseUp",
      "KeyDown", "KeyUp", "KeyPress"], boundary alphabet]]

/-- `_ASP_NON_VBSCRIPT_PATTERNS` -/
def aspNonVbscriptPatterns : List Pattern :=
  [literal alphabet "<%@",
    seq [literal alphabet "<", star isSpace, literal alphabet "%@", star isSpace,
      literal alphabet "Page", plus isSpace, literal alphabet "Language=",
      opt (literal alphabet "\""), literal alphabet "C#\""],
    seq [literal alphabet "<", star isSpace, literal alphabet "%@", star isSpace,
      literal alphabet "Language=", opt (literal alphabet "\""), literal alphabet "JScript\""],
    literal alphabet "<?php", literal alphabet "<jsp:"]

end Patterns

/-- `_safe_rel(rel_path).strip("./")` -/
def vbRel (path : String) : String := stripOf ['.', '/'] (slashes path)

/-- `_read_limited`, empty where the file cannot be read. -/
def readLimited (rel : String) : String :=
  match t.bytes rel with
  | some data => R.decodeUtf8OrLatin1 (data.take (128 * 1024))
  | none => ""

/-- `_has_vb6_project_ancestor` -/
def hasVb6ProjectAncestor (rel : String) : Bool :=
  (probes (dirname rel)).any fun probe => (t.listdir probe).any fun name =>
    [".vbp", ".vbw"].contains (extension (R.lower name))

/-- `_has_vbnet_project_ancestor` -/
def hasVbnetProjectAncestor (rel : String) : Bool :=
  (probes (dirname rel)).any fun probe => (t.listdir probe).any fun name =>
    endsWith (R.lower name) ".vbproj" || endsWith (R.lower name) ".vbproj.user" ||
      R.lower name == ".sln"

/-- The number of patterns that are found. -/
def hits (patterns : List Pattern) (text : String) : Nat :=
  patterns.countP fun p => found p text.toList

/-- `vba_score > vb6_score` -/
def looksVba (rel : String) : Bool :=
  let text := readLimited R t rel
  let vb6Score := (if hasVb6ProjectAncestor R t rel then 3 else 0) +
    (if hasVbnetProjectAncestor R t rel then 1 else 0) +
    (if text = "" then 0 else 2 * hits (vb6StrongPatterns R.alphabet) text +
      hits (vb6ControlPatterns R.alphabet) text)
  let vbaScore := if text = "" then 0 else 2 * hits (vbaStrongPatterns R.alphabet) text +
    hits (vbaOfficePatterns R.alphabet) text
  decide (vbaScore > vb6Score)

/-- `_classify_vb6_vba_overlap` -/
def classifyVb6VbaOverlap (rel ownerMode : String) : Parser :=
  let mode := R.lower (strip (if ownerMode = "" then "heuristic" else ownerMode))
  if mode = "prefer-vb6" then .vb6
  else if mode = "prefer-vba" then .vba
  else if looksVba R t rel then .vba else .vb6

/-- `_looks_vbscript`: the hints for VBScript are looked for, and do not change the answer. -/
def looksVbscript (rel : String) : Bool :=
  let text := readLimited R t rel
  if text = "" then true
  else !((aspNonVbscriptPatterns R.alphabet).any fun p => found p text.toList)

/-- `VBPathClassifier.select_parser_for_path` -/
def vbSelectParserForPath (path ownerMode : String) : Option Parser :=
  let rel := vbRel path
  let ext := extension (R.lower rel)
  if rel = "" then none
  else if [".vbp", ".vbw"].contains ext || ext == ".frx" then some .vb6
  else if [".vbproj", ".vbproj.user", ".sln"].contains ext then some .vbnet
  else if [".vbs", ".wsf", ".hta"].contains ext then some .vbscript
  else if ext = ".asp" then (if looksVbscript R t rel then some .vbscript else none)
  else if ext = ".vb" then some .vbnet
  else if [".bas", ".cls", ".frm"].contains ext then
    some (classifyVb6VbaOverlap R t rel ownerMode)
  else none

/-! ## The owner of a path in a tree -/

/-- The classifiers on a tree, for `_select_parser_for_path`. -/
def sniffers (base : Sniffers) (t : SourceTree) : Sniffers :=
  { base with
    lower := R.lower
    isJp1File := isJp1File R t
    isAndroidPath := isAndroidPath R t
    vbParser := fun path => vbSelectParserForPath R t path "heuristic" }

section

variable {R} {t} {base : Sniffers}

@[simp] theorem sniffers_lower : (sniffers R base t).lower = R.lower := rfl

@[simp] theorem sniffers_isJp1File : (sniffers R base t).isJp1File = isJp1File R t := rfl

@[simp] theorem sniffers_isAndroidPath :
    (sniffers R base t).isAndroidPath = isAndroidPath R t := rfl

@[simp] theorem sniffers_vbParser (path : String) :
    (sniffers R base t).vbParser path = vbSelectParserForPath R t path "heuristic" := by
  simp only [sniffers]

end

/-- The extensions whose owner `VBPathClassifier` says. -/
def vbExts : List String :=
  [".vb", ".vbproj", ".vbp", ".vbw", ".frx", ".bas", ".cls", ".frm", ".vbs", ".wsf", ".asp"]

/-- The extensions whose owner `_AndroidPathClassifier` says. -/
def androidExts : List String := [".xml", ".java", ".kt", ".kts"]

/-- The extensions of the VB files that an Office project has too. -/
def overlapExts : List String := [".bas", ".cls", ".frm"]

/-- **When a deleted path keeps its owner**: it is no JP1 text; it is no module of an Office project
(where the VB classifier looks at another path, that one says the same in both trees); the path
rules for Android decide it, or the Android evidence is the same in both trees. -/
structure EvidenceRemains (t t' : SourceTree) (path : String) : Prop where
  jp1 : extension (R.lower path) = ".txt" → isJp1File R t path = false
  vba : extension (R.lower path) ∈ vbExts →
    extension (R.lower (vbRel path)) ∈ overlapExts →
      (vbRel path = path → looksVba R t path = false) ∧
      (vbRel path ≠ path → looksVba R t (vbRel path) = looksVba R t' (vbRel path))
  asp : extension (R.lower path) ∈ vbExts →
    extension (R.lower (vbRel path)) = ".asp" →
      vbRel path = path ∨ looksVbscript R t' (vbRel path) = true
  android : extension (R.lower path) ∈ androidExts →
    androidPathRule R path = true ∨ androidEvidence R t path = androidEvidence R t' path

variable {R t} {S S' : Sniffers} {t' : SourceTree} {path : String} {p : Parser}

section Select

theorem select_jp1 (hext : extension (S.lower path) = ".txt") (hjp1 : S.isJp1File path = true) :
    selectParserForPath S path = some .jp1 := by
  unfold selectParserForPath
  simp [hext, hjp1]

theorem select_vb (hext : extension (S.lower path) ∈ vbExts) :
    selectParserForPath S path = S.vbParser path := by
  unfold selectParserForPath
  simp only [vbExts, List.mem_cons, List.not_mem_nil, or_false] at hext
  dsimp only
  rcases hext with h | h | h | h | h | h | h | h | h | h | h <;> rw [h] <;> simp

theorem select_android (hext : extension (S.lower path) ∈ androidExts) :
    selectParserForPath S path =
      if endsWith (basename (S.lower path)) ".gradle" ||
          endsWith (basename (S.lower path)) ".gradle.kts" || S.isAndroidPath path then
        some .android
      else if extension (S.lower path) = ".xml" then none
      else if extension (S.lower path) = ".java" then some .java
      else some .kotlin := by
  unfold selectParserForPath
  simp only [androidExts, List.mem_cons, List.not_mem_nil, or_false] at hext
  dsimp only
  generalize endsWith (basename (S.lower path)) ".gradle" = gradle
  generalize endsWith (basename (S.lower path)) ".gradle.kts" = kts
  rcases hext with h | h | h | h <;> rw [h] <;> cases gradle <;> cases kts <;>
    cases S.isAndroidPath path <;> simp

/-- The owner of a path follows from its text and from the classifiers its extension asks. -/
theorem select_congr (hlower : S.lower = S'.lower)
    (hjp1 : extension (S.lower path) = ".txt" → S.isJp1File path = S'.isJp1File path)
    (hvb : extension (S.lower path) ∈ vbExts → S.vbParser path = S'.vbParser path)
    (handroid : extension (S.lower path) ∈ androidExts →
      S.isAndroidPath path = S'.isAndroidPath path) :
    selectParserForPath S path = selectParserForPath S' path := by
  by_cases htxt : extension (S.lower path) = ".txt"
  · have h := hjp1 htxt
    unfold selectParserForPath
    rw [← hlower]
    dsimp only
    simp [htxt, h]
  by_cases hisvb : extension (S.lower path) ∈ vbExts
  · rw [select_vb hisvb, select_vb (hlower ▸ hisvb), hvb hisvb]
  by_cases hisandroid : extension (S.lower path) ∈ androidExts
  · rw [select_android hisandroid, select_android (hlower ▸ hisandroid), handroid hisandroid,
      hlower]
  -- the other extensions do not ask a classifier
  unfold selectParserForPath
  rw [← hlower]
  dsimp only
  have hnotvb : [".vb", ".vbproj", ".vbp", ".vbw", ".frx", ".bas", ".cls", ".frm", ".vbs", ".wsf",
      ".asp"].contains (extension (S.lower path)) = false := by
    simpa [vbExts] using hisvb
  simp only [androidExts, List.mem_cons, List.not_mem_nil, or_false, not_or] at hisandroid
  obtain ⟨hxml, hjava, hkt, hkts⟩ := hisandroid
  have hkotlin : [".kt", ".kts"].contains (extension (S.lower path)) = false := by
    simp [hkt, hkts]
  simp only [htxt, hnotvb, hxml, hjava, hkotlin, decide_false, Bool.false_and, if_false,
    Bool.false_eq_true]

theorem select_ne_jp1 (hext : extension (S.lower path) = ".txt")
    (hjp1 : S.isJp1File path = false) : selectParserForPath S path ≠ some .jp1 := by
  unfold selectParserForPath
  dsimp only
  simp only [hext, hjp1]
  generalize endsWith (basename (S.lower path)) ".gradle" = gradle
  generalize endsWith (basename (S.lower path)) ".gradle.kts" = kts
  cases gradle <;> cases kts <;> simp

end Select

/-! ## After a deletion -/

section Deletion

theorem classify_heuristic (rel : String) :
    classifyVb6VbaOverlap R t rel "heuristic" = if looksVba R t rel then .vba else .vb6 := by
  have hmode : R.lower (strip "heuristic") = "heuristic" := by
    rw [show strip "heuristic" = "heuristic" by decide]
    exact R.lower_of_isLower _ (by decide)
  unfold classifyVb6VbaOverlap
  simp [hmode]

theorem isJp1File_gone (hgone : t'.isFile path = false) : isJp1File R t' path = false := by
  simp [isJp1File, SourceTree.bytes_of_gone hgone]

theorem readLimited_gone (hgone : t'.isFile path = false) : readLimited R t' path = "" := by
  simp [readLimited, SourceTree.bytes_of_gone hgone]

theorem looksVba_gone (hgone : t'.isFile path = false) : looksVba R t' path = false := by
  simp [looksVba, readLimited_gone hgone]

theorem looksVbscript_gone (hgone : t'.isFile path = false) : looksVbscript R t' path = true := by
  simp [looksVbscript, readLimited_gone hgone]

theorem vbSelect_overlap {ownerMode : String} (hrel : vbRel path ≠ "")
    (hext : extension (R.lower (vbRel path)) ∈ overlapExts) :
    vbSelectParserForPath R t path ownerMode =
      some (classifyVb6VbaOverlap R t (vbRel path) ownerMode) := by
  unfold vbSelectParserForPath
  simp only [overlapExts, List.mem_cons, List.not_mem_nil, or_false] at hext
  dsimp only
  rw [if_neg hrel]
  rcases hext with h | h | h <;> rw [h] <;> simp

theorem vbSelect_asp {ownerMode : String} (hrel : vbRel path ≠ "")
    (hext : extension (R.lower (vbRel path)) = ".asp") :
    vbSelectParserForPath R t path ownerMode =
      if looksVbscript R t (vbRel path) then some .vbscript else none := by
  unfold vbSelectParserForPath
  dsimp only
  rw [if_neg hrel, hext]
  simp

theorem vbSelect_congr (t' : SourceTree) {ownerMode : String}
    (hoverlap : extension (R.lower (vbRel path)) ∉ overlapExts)
    (hasp : extension (R.lower (vbRel path)) ≠ ".asp") :
    vbSelectParserForPath R t path ownerMode = vbSelectParserForPath R t' path ownerMode := by
  have hnot : [".bas", ".cls", ".frm"].contains (extension (R.lower (vbRel path))) = false := by
    simpa [overlapExts] using hoverlap
  unfold vbSelectParserForPath
  dsimp only
  simp only [hnot, hasp, if_false, Bool.false_eq_true]

/-- The VB classifier gives a path to the same parser in both trees exactly if its scores say so. -/
theorem vbSelect_iff (h : vbSelectParserForPath R t path "heuristic" = some p) :
    vbSelectParserForPath R t' path "heuristic" = some p ↔
      (extension (R.lower (vbRel path)) ∈ overlapExts →
        looksVba R t (vbRel path) = looksVba R t' (vbRel path)) ∧
      (extension (R.lower (vbRel path)) = ".asp" → looksVbscript R t' (vbRel path) = true) := by
  have hrel : vbRel path ≠ "" := by
    intro hempty
    simp [vbSelectParserForPath, hempty] at h
  by_cases hoverlap : extension (R.lower (vbRel path)) ∈ overlapExts
  · have hasp : extension (R.lower (vbRel path)) ≠ ".asp" := by
      intro heq
      rw [heq] at hoverlap
      exact absurd hoverlap (by decide)
    rw [vbSelect_overlap hrel hoverlap, classify_heuristic] at h ⊢
    rw [← h, and_iff_left fun hext => absurd hext hasp, imp_iff_right hoverlap]
    cases looksVba R t (vbRel path) <;> cases looksVba R t' (vbRel path) <;> simp
  · by_cases hasp : extension (R.lower (vbRel path)) = ".asp"
    · rw [vbSelect_asp hrel hasp] at h ⊢
      split at h
      · rw [and_iff_right fun hext => absurd hext hoverlap, imp_iff_right hasp, ← h]
        cases looksVbscript R t' (vbRel path) <;> simp
      · cases h
    · rw [← vbSelect_congr (t := t) t' hoverlap hasp]
      exact ⟨fun _ => ⟨fun hext => absurd hext hoverlap, fun hext => absurd hext hasp⟩, fun _ => h⟩

theorem isAndroidPath_eq (hext : extension (R.lower path) ∈ androidExts)
    (hrule : androidPathRule R path = false) :
    isAndroidPath R t path = androidEvidence R t path := by
  have hmem : [".java", ".kt", ".kts", ".xml"].contains (extension (R.lower path)) = true := by
    simp only [androidExts, List.mem_cons, List.not_mem_nil, or_false] at hext
    rcases hext with h | h | h | h <;> rw [h] <;> simp
  rw [isAndroidPath, hrule, hmem, Bool.false_or, Bool.true_and]

variable {base : Sniffers} {deleted : Finset String}

theorem select_sniffers_jp1 (hext : extension (R.lower path) = ".txt")
    (hjp1 : isJp1File R t path = true) :
    selectParserForPath (sniffers R base t) path = some .jp1 := by
  have hlower : extension ((sniffers R base t).lower path) = ".txt" := by
    simp only [sniffers_lower, hext]
  refine select_jp1 hlower ?_
  simp only [sniffers_isJp1File, hjp1]

theorem select_sniffers_ne_jp1 (hext : extension (R.lower path) = ".txt")
    (hjp1 : isJp1File R t path = false) :
    selectParserForPath (sniffers R base t) path ≠ some .jp1 := by
  have hlower : extension ((sniffers R base t).lower path) = ".txt" := by
    simp only [sniffers_lower, hext]
  refine select_ne_jp1 hlower ?_
  simp only [sniffers_isJp1File, hjp1]

theorem select_sniffers_vb (hext : extension (R.lower path) ∈ vbExts) :
    selectParserForPath (sniffers R base t) path =
      vbSelectParserForPath R t path "heuristic" := by
  rw [select_vb (S := sniffers R base t) hext, sniffers_vbParser]

theorem select_sniffers_android (base : Sniffers) (hext : extension (R.lower path) ∈ androidExts)
    (hrule : androidPathRule R path = false) :
    selectParserForPath (sniffers R base t) path = some .android ↔
      androidEvidence R t path = true := by
  have hgradle : (endsWith (basename (R.lower path)) ".gradle" ||
      endsWith (basename (R.lower path)) ".gradle.kts") = false := by
    unfold androidPathRule at hrule
    simp only [Bool.or_eq_false_iff] at hrule ⊢
    exact ⟨hrule.1.1.1.2, hrule.1.1.2⟩
  rw [select_android (S := sniffers R base t) hext]
  simp only [sniffers_lower, sniffers_isAndroidPath, hgradle, isAndroidPath_eq hext hrule,
    Bool.false_or]
  generalize androidEvidence R t path = evidence
  by_cases hxml : extension (R.lower path) = ".xml"
  · cases evidence <;> simp [hxml]
  · by_cases hjava : extension (R.lower path) = ".java" <;> cases evidence <;> simp [hxml, hjava]

/-- A file that is looked at under its own path has nothing of an Office project any more. -/
theorem looksVba_same_iff (hgone : t'.isFile path = false) :
    ((vbRel path = path → looksVba R t path = false) ∧
      (vbRel path ≠ path → looksVba R t (vbRel path) = looksVba R t' (vbRel path))) ↔
      looksVba R t (vbRel path) = looksVba R t' (vbRel path) := by
  generalize vbRel path = rel
  by_cases heq : rel = path
  · rw [heq, looksVba_gone hgone]
    exact ⟨fun h => h.1 rfl, fun h => ⟨fun _ => h, fun hne => absurd rfl hne⟩⟩
  · exact ⟨fun h => h.2 heq, fun h => ⟨fun hrel => absurd hrel heq, fun _ => h⟩⟩

/-- **A deletion reaches the owner exactly if what decided the owner remains.** -/
theorem deleted_owner_iff (howned : selectParserForPath (sniffers R base t) path = some p)
    (hgone : t'.isFile path = false) (hdeleted : path ∈ deleted) :
    path ∈ ownedBy (sniffers R base t') p deleted ↔ EvidenceRemains R t t' path := by
  rw [mem_ownedBy, and_iff_right hdeleted]
  constructor
  · intro howned'
    refine ⟨fun hext => ?_, fun hext hoverlap => ?_, fun hext hasp => ?_, fun hext => ?_⟩
    · by_contra hjp1
      rw [select_sniffers_jp1 hext (Bool.eq_true_of_not_eq_false hjp1)] at howned
      rw [← howned] at howned'
      exact select_sniffers_ne_jp1 hext (isJp1File_gone hgone) howned'
    · rw [select_sniffers_vb hext] at howned howned'
      exact (looksVba_same_iff hgone).mpr (((vbSelect_iff howned).mp howned').1 hoverlap)
    · rw [select_sniffers_vb hext] at howned howned'
      exact Or.inr (((vbSelect_iff howned).mp howned').2 hasp)
    · by_contra hnot
      obtain ⟨hrule, hevidence⟩ := not_or.mp hnot
      have hrule : androidPathRule R path = false := Bool.eq_false_of_not_eq_true hrule
      have hold := select_sniffers_android (t := t) base hext hrule
      have hnew := select_sniffers_android (t := t') base hext hrule
      rw [howned] at hold
      rw [howned'] at hnew
      exact hevidence (Bool.eq_iff_iff.mpr (hold.symm.trans hnew))
  · intro hremains
    rw [← howned]
    refine select_congr rfl (fun hext => ?_) (fun hext => ?_) fun hext => ?_
    · rw [sniffers_isJp1File, sniffers_isJp1File, isJp1File_gone hgone, hremains.jp1 hext]
    · have hvb := howned
      rw [select_sniffers_vb hext] at hvb
      rw [sniffers_vbParser, sniffers_vbParser, hvb]
      refine (vbSelect_iff hvb).mpr ⟨fun hoverlap => ?_, fun hasp => ?_⟩
      · exact (looksVba_same_iff hgone).mp (hremains.vba hext hoverlap)
      · rcases hremains.asp hext hasp with hrel | h
        · rw [hrel]
          exact looksVbscript_gone hgone
        · exact h
    · rw [sniffers_isAndroidPath, sniffers_isAndroidPath]
      rcases hremains.android hext with hrule | hevidence
      · simp [isAndroidPath, hrule]
      · simp [isAndroidPath, hevidence]

/-- ASCII texts. -/
def sampleReading : Reading where
  lower text := String.ofList (text.toList.map Char.toLower)
  lower_of_isLower text h := by
    have hmap : text.toList.map Char.toLower = text.toList.map id := by
      refine List.map_congr_left fun c hc => ?_
      obtain ⟨hlower, -⟩ := Bool.and_eq_true_iff.mp (List.all_eq_true.mp h c hc)
      have hnot : ¬ (c.val ≥ 'A'.val ∧ c.val ≤ 'Z'.val) := fun hupper =>
        absurd (UInt32.le_trans (of_decide_eq_true hlower) hupper.2) (by decide)
      exact dif_neg hnot
    rw [hmap, List.map_id, String.ofList_toList]
  alphabet := ascii
  decodeLegacy data := String.ofList (data.map fun b => Char.ofNat b.toNat)
  decodeIgnoring data := String.ofList (data.map fun b => Char.ofNat b.toNat)
  decodeUtf8OrLatin1 data := String.ofList (data.map fun b => Char.ofNat b.toNat)

/-- A tree with one file at its root. -/
def oneFile (name text : String) : SourceTree where
  isFile path := path == name
  bytes path := if path == name then some (text.toList.map fun c => c.toNat.toUInt8) else none
  listdir dir := if dir = "" then [name] else []
  isFile_of_bytes path h := by
    by_contra hne
    simp [hne] at h

/-- A tree without files. -/
def noFiles : SourceTree where
  isFile _ := false
  bytes _ := none
  listdir _ := []
  isFile_of_bytes _ h := by simp at h

theorem deleted_owner_iff_sample :
    "job.py" ∈ ownedBy (sniffers sampleReading plainSniffers noFiles) .python {"job.py"} ↔
      EvidenceRemains sampleReading (oneFile "job.py" "") noFiles "job.py" :=
  deleted_owner_iff (by decide +kernel) rfl (Finset.mem_singleton_self _)

/-- A JP1 unit definition is nobody's once it is gone. -/
theorem deleted_owner_lost_sample :
    ¬ ∀ (t t' : SourceTree) (path : String) (p : Parser) (deleted : Finset String),
      selectParserForPath (sniffers sampleReading plainSniffers t) path = some p →
      t'.isFile path = false → path ∈ deleted →
      path ∈ ownedBy (sniffers sampleReading plainSniffers t') p deleted := by
  intro h
  have hmem := h (oneFile "job.txt" "unit=a;\n\x7b\nty=g;\n\x7d\n") noFiles "job.txt" .jp1
    {"job.txt"} (by decide +kernel) rfl (Finset.mem_singleton_self _)
  revert hmem
  decide +kernel

end Deletion

end CortexHarness.Sync.Classifiers
