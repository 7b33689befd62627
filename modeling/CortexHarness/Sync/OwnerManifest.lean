import CortexHarness.Library.Matcher
import CortexHarness.Library.Run
import CortexHarness.Sync.Routing
import Mathlib.Data.Finset.Image

/-!
# Manifests of the files each parser owns

Model of `sync/owner_manifest.py:61-387` and of the manifests `build_owner_manifests.py:98-113`
writes from it.

* Its `_select_parser_for_path` is a copy of the one in `incremental_sync.py` with more extensions
  for `js`, `ts` and `sql`. `Sniffers` says what the copied classifiers read in the tree, its
  `vbParser` at the `vb_owner_mode` of the run.
* A file is a name below some directories, with the text that `open(...)` decodes, `none` where it
  raises. Two files of a tree can have one `rel_path`, because a name may hold a backslash.
* `re` is a backtracking matcher over an `Alphabet`.
* The store holds, for a path, what each parser wrote for it; a deleted path loses everything.

Results:
* `mem_owned`, `mem_unassigned`, `mem_deleted_sql`: what the loop has collected at its end;
* `owner_maps_safe_iff`: the manifests partition the files and can be applied in any order exactly
  if no SQL-like file is given to `plsql` while `sql` is selected too.
-/

namespace CortexHarness.Sync.OwnerManifest

open Run

/-! ## Parsers -/

/-- The texts of `SUPPORTED_PARSERS`. -/
def parserName : Parser → String
  | .cobol => "cobol" | .dart => "dart" | .cplus => "cplus" | .delphi => "delphi"
  | .java => "java" | .kotlin => "kotlin" | .android => "android" | .vbnet => "vbnet"
  | .vb6 => "vb6" | .vba => "vba" | .vbscript => "vbscript" | .python => "python"
  | .go => "go" | .perl => "perl" | .shell => "shell" | .jp1 => "jp1"
  | .rust => "rust" | .swift => "swift" | .js => "js" | .ts => "ts"
  | .php => "php" | .csharp => "csharp" | .sql => "sql" | .plsql => "plsql"

/-- `[item for item in parsers if item in SUPPORTED_PARSERS]` -/
def selectedParsers (parsers : List String) : List Parser :=
  parsers.filterMap fun item => analyzers.find? fun p => parserName p == item

def sqlScannerExts : List String := [".sql", ".ddl", ".dml", ".psql"]

def plsqlScannerExts : List String :=
  [".sql", ".pls", ".plsql", ".pks", ".pkb", ".pkg", ".pck", ".spc", ".spb", ".trg", ".fnc"]

variable (S : Sniffers)

/-- `os.path.splitext(path.lower())[1]` -/
def lowerExtension (path : String) : String := extension (S.lower path)

/-- `_select_parser_for_path` -/
def selectParserForPath (path : String) : Option Parser :=
  let rel := slashes path
  let lower := S.lower rel
  let name := basename lower
  let ext := extension lower
  if [".cbl", ".cob", ".cpy", ".copy"].contains ext then some .cobol
  else if [".c", ".cc", ".cpp", ".cxx", ".h", ".hh", ".hpp", ".hxx", ".pc", ".pcc", ".rc",
      ".rc2"].contains ext then some .cplus
  else if [".pas", ".dpr", ".inc"].contains ext then some .delphi
  else if ext = ".py" then some .python
  else if ext = ".go" then some .go
  else if [".pl", ".pm", ".t"].contains ext then some .perl
  else if ext = ".sh" then some .shell
  else if ext = ".txt" && S.isJp1File path then some .jp1
  else if ext = ".rs" then some .rust
  else if ext = ".swift" then some .swift
  else if ext = ".dart" then some .dart
  else if [".js", ".jsx", ".mjs", ".cjs"].contains ext then some .js
  else if [".ts", ".tsx", ".mts", ".cts"].contains ext then some .ts
  else if ext = ".php" then some .php
  else if ext = ".cs" then some .csharp
  else if sqlScannerExts.contains ext then some .sql
  else if [".pls", ".plsql", ".pks", ".pkb", ".pkg", ".pck", ".spc", ".spb", ".trg",
      ".fnc"].contains ext then some .plsql
  else if [".vb", ".vbproj", ".vbp", ".vbw", ".frx", ".bas", ".cls", ".frm", ".vbs", ".wsf",
      ".asp"].contains ext then S.vbParser rel
  else if endsWith name ".gradle" || endsWith name ".gradle.kts" then some .android
  else if ext = ".xml" then (if S.isAndroidPath rel then some .android else none)
  else if ext = ".java" then some (if S.isAndroidPath rel then .android else .java)
  else if [".kt", ".kts"].contains ext then
    some (if S.isAndroidPath rel then .android else .kotlin)
  else none

/-! ## Who owns an SQL-like file -/

/-- What stands behind the first `*/`, and how many characters lie before its end. -/
def blockEnd : List Char → Option (List Char × Nat)
  | '*' :: '/' :: rest => some (rest, 2)
  | _ :: rest => (blockEnd rest).map fun e => (e.1, e.2 + 1)
  | [] => none

/-- `_COMMENT_BLOCK_RE.sub(repl, text)`; the fuel is the length of the text. -/
def maskBlocks : Nat → List Char → List Char
  | fuel + 1, '/' :: '*' :: rest =>
    match blockEnd rest with
    | some (after, n) =>
      ' ' :: ' ' :: ((rest.take n).map fun c => if c = '\n' then '\n' else ' ') ++
        maskBlocks fuel after
    | none => '/' :: maskBlocks fuel ('*' :: rest)
  | fuel + 1, c :: rest => c :: maskBlocks fuel rest
  | _, text => text

/-- `_COMMENT_LINE_RE.sub(repl, text)`; the flag says that a comment is open. -/
def maskLines : Bool → List Char → List Char
  | true, c :: rest => if c = '\n' then c :: maskLines false rest else ' ' :: maskLines true rest
  | false, '-' :: '-' :: rest => ' ' :: ' ' :: maskLines true rest
  | false, c :: rest => c :: maskLines false rest
  | _, [] => []

/-- `_mask_comments` -/
def maskComments (text : String) : List Char :=
  maskLines false (maskBlocks text.toList.length text.toList)

section Patterns

open Matcher

variable (alphabet : Alphabet)

/-- `create\s+(?:or\s+replace\s+)?` -/
def createOrReplace : Pattern :=
  seq [literal alphabet "create", plus isSpace,
    opt (seq [literal alphabet "or", plus isSpace, literal alphabet "replace", plus isSpace])]

/-- `_PLSQL_STRONG_PATTERNS`, with their texts. -/
def plsqlStrongPatterns : List (String × Pattern) :=
  let b := boundary alphabet
  let text := literal alphabet
  [(r"\bcreate\s+(?:or\s+replace\s+)?package(?:\s+body)?\b",
      seq [b, createOrReplace alphabet, text "package", opt (seq [plus isSpace, text "body"]), b]),
    (r"\bcreate\s+(?:or\s+replace\s+)?trigger\b",
      seq [b, createOrReplace alphabet, text "trigger", b]),
    (r"\bcreate\s+(?:or\s+replace\s+)?(?:procedure|function)\b",
      seq [b, createOrReplace alphabet, either (text "procedure") (text "function"), b]),
    (r"\bdbms_scheduler\s*\.\s*create_job\b",
      seq [b, text "dbms_scheduler", star isSpace, text ".", star isSpace, text "create_job", b]),
    (r"\blanguage\s+plpgsql\b", seq [b, text "language", plus isSpace, text "plpgsql", b]),
    ("\\bdeclare\\b[\\s\\S]\x7b0,160\x7d\\bbegin\\b",
      seq [b, text "declare", b, upTo (fun _ => true) 160, b, text "begin", b])]

/-- `_SQL_STRONG_PATTERNS`, with their texts. -/
def sqlStrongPatterns : List (String × Pattern) :=
  let b := boundary alphabet
  let text := literal alphabet
  [(r"\bcreate\s+table\b", seq [b, text "create", plus isSpace, text "table", b]),
    (r"\balter\s+table\b", seq [b, text "alter", plus isSpace, text "table", b]),
    (r"\bcreate\s+(?:unique\s+)?index\b",
      seq [b, text "create", plus isSpace, opt (seq [text "unique", plus isSpace]),
        text "index", b]),
    (r"\bdrop\s+table\b", seq [b, text "drop", plus isSpace, text "table", b]),
    (r"\btruncate\s+table\b", seq [b, text "truncate", plus isSpace, text "table", b])]

end Patterns

structure SqlOwnerDecision where
  owner : Parser
  plsqlScore : Nat
  sqlScore : Nat
  reasons : List String
  deriving DecidableEq

variable (alphabet : Matcher.Alphabet)

/-- `classify_sql_owner` -/
def classifySqlOwner (content mode : String) : SqlOwnerDecision :=
  let normalizedMode := S.lower (strip (if mode = "" then "heuristic" else mode))
  if ["sql", "prefer-sql"].contains normalizedMode then ⟨.sql, 0, 1, ["mode:prefer-sql"]⟩
  else if ["plsql", "prefer-plsql"].contains normalizedMode then
    ⟨.plsql, 1, 0, ["mode:prefer-plsql"]⟩
  else
    let masked := maskComments content
    let plsqlHits := ((plsqlStrongPatterns alphabet).filter fun p => Matcher.found p.2 masked).map
      Prod.fst
    let sqlHits := ((sqlStrongPatterns alphabet).filter fun p => Matcher.found p.2 masked).map
      Prod.fst
    let owner : Parser :=
      if plsqlHits.length > sqlHits.length then .plsql
      else if sqlHits.length > plsqlHits.length then .sql
      else if plsqlHits.length > 0 then .plsql
      else .sql
    let reasons := (plsqlHits.take 3).map ("plsql:" ++ ·) ++ (sqlHits.take 3).map ("sql:" ++ ·)
    ⟨owner, plsqlHits.length, sqlHits.length,
      if reasons = [] then ["default:sql"] else reasons⟩

/-! ## The files of a tree -/

structure SourceFile where
  dirs : List String
  name : String
  content : Option String
  deriving DecidableEq

/-- `_EXCLUDED_DIRS` -/
def excludedDirs : List String :=
  ["node_modules", ".git", ".gradle", ".idea", ".venv", "__pycache__", "build", "dist",
    ".dart_tool", ".flutter-plugins", "Pods"]

/-- `_safe_rel_path(os.path.relpath(abs_path, root))` -/
def SourceFile.relPath (file : SourceFile) : String :=
  slashes ("/".intercalate (file.dirs ++ [file.name]))

/-- `_iter_files` -/
def iterFiles (tree : List SourceFile) : List SourceFile :=
  tree.filter fun file => file.dirs.all fun d =>
    !(excludedDirs.contains d) && !(S.matchesExtraIgnore d)

/-- `_read_limited` -/
def readLimited (file : SourceFile) : String :=
  match file.content with
  | some text => String.ofList (text.toList.take (2 * 1024 * 1024))
  | none => ""

/-! ## The loop -/

structure BuildOwnerResult where
  ownedByParser : Parser → Finset String
  deletedByParser : Parser → Finset String
  sqlDecisions : String → Option SqlOwnerDecision
  unassigned : Finset String

/-- The local variables of the loop. -/
structure OwnerMaps where
  owned : Parser → Finset String
  sqlDecisions : String → Option SqlOwnerDecision
  unassigned : Finset String
  sqlCandidates : Finset String
  plsqlCandidates : Finset String
  plsqlExclusiveCandidates : Finset String

def OwnerMaps.empty : OwnerMaps := ⟨fun _ => ∅, fun _ => none, ∅, ∅, ∅, ∅⟩

variable (parserSet : List Parser) (sqlOwnerMode : String)

/-- A file that only an SQL scanner reads is given away by its content. -/
def sqlLike (file : SourceFile) : Bool := sqlScannerExts.contains (lowerExtension S file.relPath)

def sqlDecision (file : SourceFile) : SqlOwnerDecision :=
  classifySqlOwner S alphabet (readLimited file) sqlOwnerMode

/-- The parser whose set a file goes into: the owner, else the parser of its extension. -/
def assignee (file : SourceFile) (baseParser : Parser) : Option Parser :=
  let owner :=
    if sqlLike S file then (sqlDecision S alphabet sqlOwnerMode file).owner else baseParser
  if parserSet.contains owner then some owner
  else if parserSet.contains baseParser then some baseParser
  else none

/-- The candidate sets of `build_owner_maps` after one more file. -/
def OwnerMaps.addCandidates (m : OwnerMaps) (file : SourceFile) : OwnerMaps :=
  let relPath := file.relPath
  if sqlLike S file then
    { m with sqlCandidates := insert relPath m.sqlCandidates
             plsqlCandidates := insert relPath m.plsqlCandidates
             sqlDecisions := Function.update m.sqlDecisions relPath
               (some (sqlDecision S alphabet sqlOwnerMode file)) }
  else if plsqlScannerExts.contains (lowerExtension S relPath) then
    { m with plsqlCandidates := insert relPath m.plsqlCandidates
             plsqlExclusiveCandidates := insert relPath m.plsqlExclusiveCandidates }
  else m

/-- The set that takes the file. -/
def OwnerMaps.assign (m : OwnerMaps) (file : SourceFile) : Option Parser → OwnerMaps
  | some p => { m with owned := Function.update m.owned p (insert file.relPath (m.owned p)) }
  | none => { m with unassigned := insert file.relPath m.unassigned }

/-- The body of the loop. -/
def OwnerMaps.add (m : OwnerMaps) (file : SourceFile) : OwnerMaps :=
  match selectParserForPath S file.relPath with
  | none => m
  | some baseParser =>
    (m.addCandidates S alphabet sqlOwnerMode file).assign file
      (assignee S alphabet parserSet sqlOwnerMode file baseParser)

/-- `build_owner_maps` -/
def buildOwnerMaps (tree : List SourceFile) (parsers : List String) : BuildOwnerResult :=
  let parserSet := selectedParsers parsers
  let m := run (OwnerMaps.add S alphabet parserSet sqlOwnerMode) .empty (iterFiles S tree)
  { ownedByParser := m.owned
    deletedByParser := fun p =>
      if p = .sql ∧ parserSet.contains .sql then m.sqlCandidates \ m.owned .sql
      else if p = .plsql ∧ parserSet.contains .plsql then
        m.plsqlExclusiveCandidates \ m.owned .plsql
      else ∅
    sqlDecisions := m.sqlDecisions
    unassigned := m.unassigned }

/-! ## Applying the manifests -/

/-- `{parser}_changed_owner.json` and `{parser}_deleted_owner.json` -/
structure Manifest where
  parser : Parser
  changed : Finset String
  deleted : Finset String

def BuildOwnerResult.manifest (r : BuildOwnerResult) (p : Parser) : Manifest :=
  ⟨p, r.ownedByParser p, r.deletedByParser p⟩

/-- The data of a path, by the parser that wrote it. -/
abbrev Store := Finset (Parser × String)

/-- Delete, then write. -/
def Manifest.apply (m : Manifest) (store : Store) : Store :=
  store.filter (fun d => d.2 ∉ m.deleted) ∪ m.changed.image (m.parser, ·)

def BuildOwnerResult.applyAll (r : BuildOwnerResult) (order : List Parser) (store : Store) :
    Store :=
  run (fun store p => (r.manifest p).apply store) store order

/-- **The manifests of a selection are safe**: each file that has a parser is in exactly one of the
owned sets and `unassigned`, no parser deletes what another one owns, and in whatever order the
manifests are applied, what every parser owns is in the store. -/
structure Safe (files : List SourceFile) (sel : List Parser) (r : BuildOwnerResult) : Prop where
  exactlyOne : ∀ file ∈ files, selectParserForPath S file.relPath ≠ none →
    ∃! owner : Option Parser, (owner = none ∧ file.relPath ∈ r.unassigned) ∨
      ∃ p ∈ sel, owner = some p ∧ file.relPath ∈ r.ownedByParser p
  apart : ∀ p ∈ sel, ∀ q ∈ sel, p ≠ q → Disjoint (r.ownedByParser p) (r.deletedByParser q)
  ordered : ∀ order : List Parser, (∀ p, p ∈ order ↔ p ∈ sel) → ∀ store, ∀ p ∈ sel,
    ∀ path ∈ r.ownedByParser p, (p, path) ∈ r.applyAll order store

/-- **When they are**: with both database parsers selected, every SQL-like file is decided for
`sql`; with `plsql` alone, files of one `rel_path` are decided alike. -/
def DecidedSafely (files : List SourceFile) (sel : List Parser) : Prop :=
  Parser.plsql ∈ sel →
    if Parser.sql ∈ sel then
      ∀ file ∈ files, sqlLike S file → (sqlDecision S alphabet sqlOwnerMode file).owner = .sql
    else ∀ file ∈ files, ∀ other ∈ files, sqlLike S file → file.relPath = other.relPath →
      (sqlDecision S alphabet sqlOwnerMode file).owner =
        (sqlDecision S alphabet sqlOwnerMode other).owner

/-! ## What the loop collects -/

section Loop

variable {S alphabet parserSet sqlOwnerMode}

/-- The file has a parser, and this is where it goes. -/
def GoesTo (S : Sniffers) (alphabet : Matcher.Alphabet) (parserSet : List Parser)
    (sqlOwnerMode : String) (file : SourceFile) (target : Option Parser) : Prop :=
  ∃ baseParser, selectParserForPath S file.relPath = some baseParser ∧
    assignee S alphabet parserSet sqlOwnerMode file baseParser = target

@[simp] theorem addCandidates_owned (m : OwnerMaps) (file : SourceFile) :
    (m.addCandidates S alphabet sqlOwnerMode file).owned = m.owned := by
  unfold OwnerMaps.addCandidates
  dsimp only
  split
  · rfl
  · split <;> rfl

@[simp] theorem addCandidates_unassigned (m : OwnerMaps) (file : SourceFile) :
    (m.addCandidates S alphabet sqlOwnerMode file).unassigned = m.unassigned := by
  unfold OwnerMaps.addCandidates
  dsimp only
  split
  · rfl
  · split <;> rfl

@[simp] theorem assign_sqlCandidates (m : OwnerMaps) (file : SourceFile) (t : Option Parser) :
    (m.assign file t).sqlCandidates = m.sqlCandidates := by
  cases t <;> rfl

@[simp] theorem assign_plsqlExclusive (m : OwnerMaps) (file : SourceFile) (t : Option Parser) :
    (m.assign file t).plsqlExclusiveCandidates = m.plsqlExclusiveCandidates := by
  cases t <;> rfl

variable {path : String} {p : Parser}

theorem mem_assign_owned (m : OwnerMaps) (file : SourceFile) (t : Option Parser) :
    path ∈ (m.assign file t).owned p ↔ path ∈ m.owned p ∨ (path = file.relPath ∧ t = some p) := by
  cases t with
  | none => simp [OwnerMaps.assign]
  | some q =>
    by_cases hq : p = q
    · subst hq
      simp [OwnerMaps.assign, or_comm]
    · have hne : ¬ q = p := fun h => hq h.symm
      simp [OwnerMaps.assign, Function.update_of_ne hq, hne]

theorem mem_assign_unassigned (m : OwnerMaps) (file : SourceFile) (t : Option Parser) :
    path ∈ (m.assign file t).unassigned ↔
      path ∈ m.unassigned ∨ (path = file.relPath ∧ t = none) := by
  cases t <;> simp [OwnerMaps.assign, or_comm]

theorem mem_owned_add (m : OwnerMaps) (file : SourceFile) :
    path ∈ (m.add S alphabet parserSet sqlOwnerMode file).owned p ↔ path ∈ m.owned p ∨
      (path = file.relPath ∧ GoesTo S alphabet parserSet sqlOwnerMode file (some p)) := by
  unfold OwnerMaps.add GoesTo
  cases hsel : selectParserForPath S file.relPath with
  | none => simp
  | some base => simp [mem_assign_owned]

theorem mem_unassigned_add (m : OwnerMaps) (file : SourceFile) :
    path ∈ (m.add S alphabet parserSet sqlOwnerMode file).unassigned ↔ path ∈ m.unassigned ∨
      (path = file.relPath ∧ GoesTo S alphabet parserSet sqlOwnerMode file none) := by
  unfold OwnerMaps.add GoesTo
  cases hsel : selectParserForPath S file.relPath with
  | none => simp
  | some base => simp [mem_assign_unassigned]

theorem mem_sqlCandidates_add (m : OwnerMaps) (file : SourceFile) :
    path ∈ (m.add S alphabet parserSet sqlOwnerMode file).sqlCandidates ↔
      path ∈ m.sqlCandidates ∨ (path = file.relPath ∧
        selectParserForPath S file.relPath ≠ none ∧ sqlLike S file = true) := by
  unfold OwnerMaps.add
  cases hsel : selectParserForPath S file.relPath with
  | none => simp
  | some base =>
    by_cases hlike : sqlLike S file = true
    · simp [OwnerMaps.addCandidates, hlike, or_comm]
    · rw [assign_sqlCandidates, OwnerMaps.addCandidates, if_neg hlike]
      split <;> simp [hlike]

theorem mem_plsqlExclusive_add (m : OwnerMaps) (file : SourceFile) :
    path ∈ (m.add S alphabet parserSet sqlOwnerMode file).plsqlExclusiveCandidates ↔
      path ∈ m.plsqlExclusiveCandidates ∨ (path = file.relPath ∧
        selectParserForPath S file.relPath ≠ none ∧ sqlLike S file = false ∧
        plsqlScannerExts.contains (lowerExtension S file.relPath) = true) := by
  unfold OwnerMaps.add
  cases hsel : selectParserForPath S file.relPath with
  | none => simp
  | some base =>
    by_cases hlike : sqlLike S file = true
    · simp [OwnerMaps.addCandidates, hlike]
    · rw [assign_plsqlExclusive, OwnerMaps.addCandidates, if_neg hlike]
      split <;> rename_i hext <;> simp_all [or_comm]

variable {tree : List SourceFile} {parsers : List String}

theorem mem_owned :
    path ∈ (buildOwnerMaps S alphabet sqlOwnerMode tree parsers).ownedByParser p ↔
      ∃ file ∈ iterFiles S tree, path = file.relPath ∧
        GoesTo S alphabet (selectedParsers parsers) sqlOwnerMode file (some p) :=
  (run_iff (P := fun m : OwnerMaps => path ∈ m.owned p) mem_owned_add _ _).trans
    (or_iff_right (Finset.notMem_empty path))

theorem mem_unassigned :
    path ∈ (buildOwnerMaps S alphabet sqlOwnerMode tree parsers).unassigned ↔
      ∃ file ∈ iterFiles S tree, path = file.relPath ∧
        GoesTo S alphabet (selectedParsers parsers) sqlOwnerMode file none :=
  (run_iff (P := fun m : OwnerMaps => path ∈ m.unassigned) mem_unassigned_add _ _).trans
    (or_iff_right (Finset.notMem_empty path))

theorem mem_deleted_sql (hsql : Parser.sql ∈ selectedParsers parsers) :
    path ∈ (buildOwnerMaps S alphabet sqlOwnerMode tree parsers).deletedByParser .sql ↔
      (∃ file ∈ iterFiles S tree, path = file.relPath ∧
        selectParserForPath S file.relPath ≠ none ∧ sqlLike S file = true) ∧
      path ∉ (buildOwnerMaps S alphabet sqlOwnerMode tree parsers).ownedByParser .sql := by
  have hif : Parser.sql = .sql ∧ (selectedParsers parsers).contains .sql = true :=
    ⟨rfl, List.contains_iff_mem.mpr hsql⟩
  dsimp only [buildOwnerMaps]
  rw [if_pos hif, Finset.mem_sdiff]
  exact and_congr_left' ((run_iff (P := fun m : OwnerMaps => path ∈ m.sqlCandidates)
    mem_sqlCandidates_add _ _).trans (or_iff_right (Finset.notMem_empty path)))

theorem mem_deleted_plsql
    (h : path ∈ (buildOwnerMaps S alphabet sqlOwnerMode tree parsers).deletedByParser .plsql) :
    Parser.plsql ∈ selectedParsers parsers ∧
      (∃ file ∈ iterFiles S tree, path = file.relPath ∧
        selectParserForPath S file.relPath ≠ none ∧ sqlLike S file = false ∧
        plsqlScannerExts.contains (lowerExtension S file.relPath) = true) ∧
      path ∉ (buildOwnerMaps S alphabet sqlOwnerMode tree parsers).ownedByParser .plsql := by
  dsimp only [buildOwnerMaps] at h
  rw [if_neg (by simp)] at h
  split at h
  · rename_i hif
    rw [Finset.mem_sdiff] at h
    exact ⟨List.contains_iff_mem.mp hif.2,
      ((run_iff (P := fun m : OwnerMaps => path ∈ m.plsqlExclusiveCandidates)
        mem_plsqlExclusive_add _ _).trans (or_iff_right (Finset.notMem_empty path))).mp h.1, h.2⟩
  · exact absurd h (Finset.notMem_empty path)

end Loop

/-! ## Where a file goes -/

section Targets

variable {S alphabet parserSet sqlOwnerMode} {file other : SourceFile}

theorem slashes_slashes (text : String) : slashes (slashes text) = slashes text := by
  unfold slashes
  rw [String.toList_ofList, List.map_map]
  congr 2
  funext c
  by_cases hc : c = '\\' <;> simp [hc]

theorem slashes_relPath (file : SourceFile) : slashes file.relPath = file.relPath :=
  slashes_slashes _

/-- An SQL-like file is read by `sql` first. -/
theorem select_sqlLike (h : sqlLike S file = true) :
    selectParserForPath S file.relPath = some .sql := by
  unfold sqlLike lowerExtension sqlScannerExts at h
  unfold selectParserForPath
  rw [slashes_relPath]
  dsimp only
  rw [List.contains_iff_mem] at h
  simp only [List.mem_cons, List.not_mem_nil, or_false] at h
  rcases h with h | h | h | h <;> rw [h] <;> simp [sqlScannerExts]

theorem select_plsqlExclusive (hlike : sqlLike S file = false)
    (hext : plsqlScannerExts.contains (lowerExtension S file.relPath) = true) :
    selectParserForPath S file.relPath = some .plsql := by
  unfold sqlLike lowerExtension at hlike
  unfold lowerExtension plsqlScannerExts at hext
  unfold selectParserForPath
  rw [slashes_relPath]
  dsimp only
  rw [List.contains_iff_mem] at hext
  simp only [List.mem_cons, List.not_mem_nil, or_false] at hext
  rcases hext with h | h | h | h | h | h | h | h | h | h | h <;> rw [h] at hlike ⊢ <;>
    simp_all [sqlScannerExts]

theorem sqlDecision_owner (S : Sniffers) (alphabet : Matcher.Alphabet) (sqlOwnerMode : String)
    (file : SourceFile) :
    (sqlDecision S alphabet sqlOwnerMode file).owner = .sql ∨
      (sqlDecision S alphabet sqlOwnerMode file).owner = .plsql := by
  unfold sqlDecision classifySqlOwner
  dsimp only
  generalize S.lower (strip _) = mode
  split
  · exact Or.inl rfl
  · split
    · exact Or.inr rfl
    · dsimp only
      generalize (List.map Prod.fst _).length = plsqlScore
      generalize (List.map Prod.fst _).length = sqlScore
      split
      · exact Or.inr rfl
      · split
        · exact Or.inl rfl
        · split
          · exact Or.inr rfl
          · exact Or.inl rfl

theorem sqlLike_congr (h : file.relPath = other.relPath) : sqlLike S file = sqlLike S other := by
  rw [sqlLike, h, sqlLike]

theorem goesTo_plain {t : Option Parser} (hlike : sqlLike S file = false)
    (h : GoesTo S alphabet parserSet sqlOwnerMode file t) :
    ∃ p, selectParserForPath S file.relPath = some p ∧
      t = if p ∈ parserSet then some p else none := by
  obtain ⟨p, hp, rfl⟩ := h
  refine ⟨p, hp, ?_⟩
  unfold assignee
  by_cases hmem : p ∈ parserSet <;> simp [hlike, hmem]

/-- An SQL-like file goes to the parser its content decides for, if it is selected, else to
`sql`. -/
theorem goesTo_sqlLike {t : Option Parser} (hlike : sqlLike S file = true) :
    GoesTo S alphabet parserSet sqlOwnerMode file t ↔
      t = if (sqlDecision S alphabet sqlOwnerMode file).owner ∈ parserSet then
          some (sqlDecision S alphabet sqlOwnerMode file).owner
        else if Parser.sql ∈ parserSet then some .sql else none := by
  unfold GoesTo
  rw [select_sqlLike hlike]
  simp only [Option.some.injEq, exists_eq_left']
  unfold assignee
  simp only [hlike, if_true, List.contains_iff_mem]
  exact eq_comm

variable {files : List SourceFile}

theorem goesTo_unique (hdecided : DecidedSafely S alphabet sqlOwnerMode files parserSet)
    (hfile : file ∈ files) (hother : other ∈ files) (hrel : file.relPath = other.relPath)
    {t u : Option Parser} (ht : GoesTo S alphabet parserSet sqlOwnerMode file t)
    (hu : GoesTo S alphabet parserSet sqlOwnerMode other u) : t = u := by
  cases hlike : sqlLike S file with
  | false =>
    obtain ⟨p, hp, rfl⟩ := goesTo_plain hlike ht
    obtain ⟨q, hq, rfl⟩ := goesTo_plain (sqlLike_congr hrel ▸ hlike) hu
    rw [hrel, hq] at hp
    rw [Option.some.inj hp]
  | true =>
    rw [goesTo_sqlLike hlike] at ht
    rw [goesTo_sqlLike (sqlLike_congr hrel ▸ hlike)] at hu
    by_cases hplsql : Parser.plsql ∈ parserSet
    · have hsame : (sqlDecision S alphabet sqlOwnerMode file).owner =
          (sqlDecision S alphabet sqlOwnerMode other).owner := by
        have h := hdecided hplsql
        split at h
        · rw [h file hfile hlike, h other hother (sqlLike_congr hrel ▸ hlike)]
        · exact h file hfile other hother hlike hrel
      rw [ht, hu, hsame]
    · -- without `plsql`, both decisions lead to `sql` or to nobody
      rcases sqlDecision_owner S alphabet sqlOwnerMode file
        with hf | hf <;>
      rcases sqlDecision_owner S alphabet sqlOwnerMode other
        with ho | ho <;> simp [ht, hu, hf, ho, hplsql]

/-- While `sql` is selected, an SQL-like file decided safely is `sql`'s. -/
theorem goesTo_sql (hdecided : DecidedSafely S alphabet sqlOwnerMode files parserSet)
    (hsql : Parser.sql ∈ parserSet) (hfile : file ∈ files) (hlike : sqlLike S file = true)
    {t : Option Parser} (ht : GoesTo S alphabet parserSet sqlOwnerMode file t) :
    t = some .sql := by
  rw [goesTo_sqlLike hlike] at ht
  by_cases hplsql : Parser.plsql ∈ parserSet
  · have h := hdecided hplsql
    rw [if_pos hsql] at h
    simpa [h file hfile hlike, hsql] using ht
  · rcases sqlDecision_owner S alphabet sqlOwnerMode file
      with hf | hf <;> simpa [hf, hplsql, hsql] using ht

end Targets

/-! ## Safety -/

section Safety

variable {S alphabet parserSet sqlOwnerMode} {tree : List SourceFile} {parsers : List String}

theorem mem_applyAll {r : BuildOwnerResult} {order : List Parser} {p : Parser} {path : String}
    (hp : p ∈ order) (howned : path ∈ r.ownedByParser p)
    (hsafe : ∀ q ∈ order, q ≠ p → path ∉ r.deletedByParser q) (store : Store) :
    (p, path) ∈ r.applyAll order store := by
  have happly : ∀ store, (p, path) ∈ (r.manifest p).apply store := fun store =>
    Finset.mem_union_right _ (Finset.mem_image.mpr ⟨path, howned, rfl⟩)
  obtain ⟨pre, post, rfl⟩ := List.append_of_mem hp
  unfold BuildOwnerResult.applyAll
  rw [run_append, run_cons]
  -- once written, the data stays: the other manifests do not name the path
  refine run_invariant (I := fun store => (p, path) ∈ store)
    (A := fun q => q ≠ p → path ∉ r.deletedByParser q) (fun store q hq hmem => ?_) (happly _) post
    fun q hq => hsafe q (by simp [hq])
  by_cases hqp : q = p
  · rw [hqp]
    exact happly store
  · exact Finset.mem_union_left _ (Finset.mem_filter.mpr ⟨hmem, hq hqp⟩)

theorem deleted_plsql_empty :
    (buildOwnerMaps S alphabet sqlOwnerMode tree parsers).deletedByParser .plsql = ∅ := by
  refine Finset.eq_empty_of_forall_notMem fun path hpath => ?_
  obtain ⟨hplsql, ⟨file, hfile, rfl, -, hlike, hext⟩, hnot⟩ := mem_deleted_plsql hpath
  refine hnot (mem_owned.mpr ⟨file, hfile, rfl, .plsql, select_plsqlExclusive hlike hext, ?_⟩)
  simp [assignee, hlike, hplsql]

theorem deleted_sql_empty (hsql : Parser.sql ∈ selectedParsers parsers)
    (hdecided : DecidedSafely S alphabet sqlOwnerMode (iterFiles S tree)
      (selectedParsers parsers)) :
    (buildOwnerMaps S alphabet sqlOwnerMode tree parsers).deletedByParser .sql = ∅ := by
  refine Finset.eq_empty_of_forall_notMem fun path hpath => ?_
  obtain ⟨⟨file, hfile, rfl, -, hlike⟩, hnot⟩ := (mem_deleted_sql hsql).mp hpath
  have hgoes : GoesTo S alphabet (selectedParsers parsers) sqlOwnerMode file _ :=
    (goesTo_sqlLike hlike).mpr rfl
  exact hnot (mem_owned.mpr ⟨file, hfile, rfl, goesTo_sql hdecided hsql hfile hlike hgoes ▸ hgoes⟩)

theorem deleted_empty (hdecided : DecidedSafely S alphabet sqlOwnerMode (iterFiles S tree)
    (selectedParsers parsers)) (p : Parser) :
    (buildOwnerMaps S alphabet sqlOwnerMode tree parsers).deletedByParser p = ∅ := by
  by_cases hplsql : p = .plsql
  · rw [hplsql]
    exact deleted_plsql_empty
  · by_cases hsql : p = .sql ∧ (selectedParsers parsers).contains .sql = true
    · rw [hsql.1]
      exact deleted_sql_empty (List.contains_iff_mem.mp hsql.2) hdecided
    · dsimp only [buildOwnerMaps]
      rw [if_neg hsql, if_neg fun h => hplsql h.1]

theorem goesTo_exists {file : SourceFile} (h : selectParserForPath S file.relPath ≠ none) :
    ∃ t, GoesTo S alphabet parserSet sqlOwnerMode file t := by
  obtain ⟨base, hbase⟩ := Option.ne_none_iff_exists'.mp h
  exact ⟨_, base, hbase, rfl⟩

theorem found_of_goesTo {file : SourceFile} (hfile : file ∈ iterFiles S tree) {t : Option Parser}
    (h : GoesTo S alphabet (selectedParsers parsers) sqlOwnerMode file t) :
    let r := buildOwnerMaps S alphabet sqlOwnerMode tree parsers
    (t = none ∧ file.relPath ∈ r.unassigned) ∨
      ∃ p ∈ selectedParsers parsers, t = some p ∧ file.relPath ∈ r.ownedByParser p := by
  cases t with
  | none => exact Or.inl ⟨rfl, mem_unassigned.mpr ⟨file, hfile, rfl, h⟩⟩
  | some p =>
    refine Or.inr ⟨p, ?_, rfl, mem_owned.mpr ⟨file, hfile, rfl, h⟩⟩
    obtain ⟨base, -, h⟩ := h
    unfold assignee at h
    dsimp only at h
    generalize (if sqlLike S file = true then _ else _) = owner at h
    split at h <;> rename_i hmem
    · exact Option.some.inj h ▸ List.contains_iff_mem.mp hmem
    · split at h <;> rename_i hmem
      · exact Option.some.inj h ▸ List.contains_iff_mem.mp hmem
      · cases h

/-- **Owner maps are safe exactly when the database files are decided safely.** -/
theorem owner_maps_safe_iff (S : Sniffers) (alphabet : Matcher.Alphabet) (sqlOwnerMode : String)
    (tree : List SourceFile) (parsers : List String) :
    Safe S (iterFiles S tree) (selectedParsers parsers)
        (buildOwnerMaps S alphabet sqlOwnerMode tree parsers) ↔
      DecidedSafely S alphabet sqlOwnerMode (iterFiles S tree) (selectedParsers parsers) := by
  constructor
  · intro hsafe hplsql
    split
    · rename_i hsql
      intro file hfile hlike
      by_contra hne
      have howner := (sqlDecision_owner S alphabet sqlOwnerMode file).resolve_left hne
      have hgoes : GoesTo S alphabet (selectedParsers parsers) sqlOwnerMode file (some .plsql) :=
        (goesTo_sqlLike hlike).mpr (by rw [howner, if_pos hplsql])
      have howned := mem_owned.mpr ⟨file, hfile, rfl, hgoes⟩
      have hbase : selectParserForPath S file.relPath ≠ none := by simp [select_sqlLike hlike]
      have hnot : file.relPath ∉
          (buildOwnerMaps S alphabet sqlOwnerMode tree parsers).ownedByParser .sql := by
        intro hmem
        have hsame := (hsafe.exactlyOne file hfile hbase).unique
          (Or.inr ⟨.sql, hsql, rfl, hmem⟩) (Or.inr ⟨.plsql, hplsql, rfl, howned⟩)
        cases hsame
      exact Finset.disjoint_left.mp (hsafe.apart .plsql hplsql .sql hsql (by decide)) howned
        ((mem_deleted_sql hsql).mpr ⟨⟨file, hfile, rfl, hbase, hlike⟩, hnot⟩)
    · rename_i hsql
      intro file hfile other hother hlike hrel
      have hlike' : sqlLike S other = true := sqlLike_congr hrel ▸ hlike
      have hbase : selectParserForPath S file.relPath ≠ none := by simp [select_sqlLike hlike]
      have hgoes : GoesTo S alphabet (selectedParsers parsers) sqlOwnerMode file _ :=
        (goesTo_sqlLike hlike).mpr rfl
      have hgoes' : GoesTo S alphabet (selectedParsers parsers) sqlOwnerMode other _ :=
        (goesTo_sqlLike hlike').mpr rfl
      have hfound := found_of_goesTo hfile hgoes
      have hfound' := found_of_goesTo hother hgoes'
      rw [← hrel] at hfound'
      have hsame := (hsafe.exactlyOne file hfile hbase).unique hfound hfound'
      rcases sqlDecision_owner S alphabet sqlOwnerMode file
        with hf | hf <;>
      rcases sqlDecision_owner S alphabet sqlOwnerMode other
        with ho | ho <;> simp_all
  · intro hdecided
    have hempty := deleted_empty hdecided
    refine ⟨fun file hfile hbase => ?_, fun p _ q _ _ => ?_, fun order horder store p hp path
      howned => mem_applyAll ((horder p).mpr hp) howned (fun q _ _ => ?_) store⟩
    · obtain ⟨t, ht⟩ : ∃ t, GoesTo S alphabet (selectedParsers parsers) sqlOwnerMode file t :=
        goesTo_exists hbase
      refine ⟨t, found_of_goesTo hfile ht, fun u hu => ?_⟩
      rcases hu with ⟨rfl, hmem⟩ | ⟨p, -, rfl, hmem⟩
      · obtain ⟨other, hother, hrel, hgoes⟩ := mem_unassigned.mp hmem
        exact goesTo_unique hdecided hother hfile hrel.symm hgoes ht
      · obtain ⟨other, hother, hrel, hgoes⟩ := mem_owned.mp hmem
        exact goesTo_unique hdecided hother hfile hrel.symm hgoes ht
    · rw [hempty q]
      exact Finset.disjoint_empty_right _
    · rw [hempty q]
      exact Finset.notMem_empty path

def samplePackage : SourceFile := ⟨["db"], "pkg.sql", some "create package p"⟩

/-- The package is written by `plsql` and deleted by `sql`. -/
theorem owner_maps_unsafe_sample :
    ¬ Safe plainSniffers (iterFiles plainSniffers [samplePackage])
      (selectedParsers ["sql", "plsql"])
      (buildOwnerMaps plainSniffers Matcher.ascii "heuristic" [samplePackage]
        ["sql", "plsql"]) := by
  intro h
  have hapart := h.apart .plsql (by decide) .sql (by decide) (by decide)
  have hdeleted : "db/pkg.sql" ∈ (buildOwnerMaps plainSniffers Matcher.ascii "heuristic"
      [samplePackage] ["sql", "plsql"]).deletedByParser .sql := by decide +kernel
  exact Finset.disjoint_left.mp hapart (by decide +kernel) hdeleted

end Safety

end CortexHarness.Sync.OwnerManifest
