import CortexHarness.Sync.Inventory

/-!
# Which analyzer a path belongs to

Every source path has at most one primary analyzer, by its extension and by what the classifiers
for Android, VB and JP1 read in the tree; the framework overlays take the paths that their detectors
route to them. A `Delivery` is one analyzer started with its manifests of changed and deleted paths,
or without them in a full scan.

Results: `mem_ownedBy`, and `mem_parserDeliveries` and `exists_parserDelivery` for what is started.
-/

namespace CortexHarness.Sync

/-! ## Analyzers -/

/-- The keys of `ANALYZERS`. -/
inductive Parser where
  | cobol | dart | cplus | delphi | java | kotlin | android | vbnet | vb6 | vba | vbscript | python
  | go | perl | shell | jp1 | rust | swift | js | ts | php | csharp | sql | plsql
  deriving DecidableEq

/-- The order of `ANALYZERS`. -/
def analyzers : List Parser :=
  [.cobol, .dart, .cplus, .delphi, .java, .kotlin, .android, .vbnet, .vb6, .vba, .vbscript, .python,
    .go, .perl, .shell, .jp1, .rust, .swift, .js, .ts, .php, .csharp, .sql, .plsql]

theorem mem_analyzers (p : Parser) : p ∈ analyzers := by
  cases p <;> decide

/-- The keys of `FRAMEWORK_ANALYZERS`. -/
inductive Framework where
  | spring | servletJsp | mybatis | struts | flutter | aspnetFramework | aspnetCore | fastapiDjango
  | expressJs | laravel | databaseSql | databasePlsql
  deriving DecidableEq

/-- `FRAMEWORK_ANALYZERS` by `order`. -/
def frameworkAnalyzers : List Framework :=
  [.spring, .servletJsp, .mybatis, .struts, .flutter, .aspnetFramework, .aspnetCore, .fastapiDjango,
    .expressJs, .laravel, .databaseSql, .databasePlsql]

/-- `prerequisite_parsers` -/
def prerequisiteParsers : Framework → List Parser
  | .spring | .mybatis => [.java, .kotlin]
  | .servletJsp | .struts => [.java]
  | .flutter => [.dart]
  | .aspnetFramework | .aspnetCore => [.csharp]
  | .fastapiDjango => [.python]
  | .expressJs => [.js]
  | .laravel => [.php]
  | .databaseSql => [.sql]
  | .databasePlsql => [.plsql]

/-- What `--parsers` may name. -/
inductive Selectable where
  | parser (p : Parser)
  | framework (f : Framework)
  | projectTopology
  deriving DecidableEq

/-- `_selected_parsers`: `auto`, or the named ones with the prerequisites of named frameworks. -/
def selected (parsers : Option (List Selectable)) (x : Selectable) : Bool :=
  match parsers with
  | none => true
  | some names => names.contains x || names.any fun name =>
    match name, x with
    | .framework f, .parser p => (prerequisiteParsers f).contains p
    | _, _ => false

/-! ## Paths -/

/-- What the classifiers of a path compute and read in the tree. -/
structure Sniffers where
  /-- `str.lower` -/
  lower : String → String
  /-- `matches_extra_ignore` -/
  matchesExtraIgnore : String → Bool
  isJp1File : String → Bool
  isAndroidPath : String → Bool
  /-- `VBPathClassifier.select_parser_for_path` -/
  vbParser : String → Option Parser
  /-- `descriptor_spec_for_path(path) is not None` -/
  isDescriptor : String → Bool
  /-- `_group_paths_by_framework` -/
  frameworkPaths : Framework → Finset String → Finset String

/-- A tree with no marker of a platform, and the ASCII part of `str.lower`. -/
def plainSniffers : Sniffers where
  lower text := String.ofList (text.toList.map Char.toLower)
  matchesExtraIgnore _ := false
  isJp1File _ := false
  isAndroidPath _ := false
  vbParser _ := none
  isDescriptor _ := false
  frameworkPaths _ _ := ∅

/-- `os.path.basename` -/
def basename (path : String) : String :=
  String.ofList (path.toList.reverse.takeWhile (· != '/')).reverse

/-- `os.path.splitext(path)[1]` -/
def extension (path : String) : String :=
  let name := (basename path).toList
  let tail := (name.reverse.takeWhile (· != '.')).reverse
  let head := name.take (name.length - tail.length - 1)
  if tail.length = name.length || head.all (· == '.') then "" else String.ofList ('.' :: tail)

variable (S : Sniffers)

/-- `_select_parser_for_path` -/
def selectParserForPath (path : String) : Option Parser :=
  let lower := S.lower path
  let name := basename lower
  let ext := extension lower
  if [".cbl", ".cob", ".cpy", ".copy"].contains ext then some .cobol
  else if [".c", ".cc", ".cpp", ".cxx", ".h", ".hh", ".hpp", ".hxx", ".pc", ".pcc", ".rc",
      ".rc2"].contains ext then some .cplus
  else if [".pas", ".dpr", ".inc"].contains ext then some .delphi
  else if ext = ".py" then some .python
  else if ext = ".go" then some .go
  else if [".pl", ".pm", ".t"].contains ext then some .perl
  else if ext = ".sh" then some .shell
  else if ext = ".txt" && S.isJp1File path then some .jp1
  else if ext = ".rs" then some .rust
  else if ext = ".swift" then some .swift
  else if ext = ".dart" then some .dart
  else if [".js", ".jsx"].contains ext then some .js
  else if [".ts", ".tsx"].contains ext then some .ts
  else if ext = ".php" then some .php
  else if ext = ".cs" then some .csharp
  else if ext = ".sql" then some .sql
  else if [".pls", ".plsql", ".pks", ".pkb", ".pkg", ".pck", ".spc", ".spb", ".trg",
      ".fnc"].contains ext then some .plsql
  else if [".vb", ".vbproj", ".vbp", ".vbw", ".frx", ".bas", ".cls", ".frm", ".vbs", ".wsf",
      ".asp"].contains ext then S.vbParser path
  else if endsWith name ".gradle" || endsWith name ".gradle.kts" then some .android
  else if ext = ".xml" then (if S.isAndroidPath path then some .android else none)
  else if ext = ".java" then some (if S.isAndroidPath path then .android else .java)
  else if [".kt", ".kts"].contains ext then
    some (if S.isAndroidPath path then .android else .kotlin)
  else none

/-- `_FRAMEWORK_BUILD_FILES` -/
def frameworkBuildFiles : List String :=
  ["pom.xml", "build.gradle", "build.gradle.kts", "settings.gradle", "settings.gradle.kts"]

/-- `_FRAMEWORK_CANDIDATE_EXTENSIONS` -/
def frameworkCandidateExtensions : Framework → List String
  | .spring => [".java", ".kt", ".kts", ".xml", ".properties", ".yml", ".yaml", ".json", ".gradle"]
  | .servletJsp => [".java", ".jsp", ".jspx", ".jspf", ".tag", ".tagx", ".xml", ".properties",
      ".gradle"]
  | .mybatis => [".java", ".kt", ".kts", ".xml", ".gradle"]
  | .struts => [".java", ".xml", ".properties", ".yml", ".yaml", ".gradle"]
  | .flutter => [".dart", ".arb", ".json", ".xml", ".plist", ".gradle", ".properties", ".yml",
      ".yaml", ".png", ".jpg", ".jpeg", ".gif", ".webp", ".svg", ".ttf", ".otf"]
  | .aspnetFramework => [".cs", ".csproj", ".sln", ".config", ".asax", ".aspx", ".ascx", ".master",
      ".asmx", ".ashx", ".cshtml", ".resx"]
  | .aspnetCore => [".cs", ".csproj", ".sln", ".cshtml", ".razor", ".json", ".config"]
  | .fastapiDjango => [".py"]
  | .expressJs => [".js", ".jsx"]
  | .laravel => [".php"]
  | .databaseSql => [".sql", ".ddl", ".dml", ".psql"]
  | .databasePlsql => [".pls", ".plsql", ".pks", ".pkb", ".pkg", ".pck", ".spc", ".spb", ".trg",
      ".fnc"]

/-- `_is_framework_candidate` -/
def isFrameworkCandidate (f : Framework) (path : String) : Bool :=
  let lower := S.lower path
  frameworkBuildFiles.contains (basename lower) ||
    (frameworkCandidateExtensions f).contains (extension lower)

/-- `_group_paths_by_parser(paths).get(parser, set())` -/
def ownedBy (p : Parser) (paths : Finset String) : Finset String :=
  paths.filter fun path => selectParserForPath S path = some p

/-! ## Deliveries -/

/-- One analyzer process. -/
inductive Analyzer where
  | primary (p : Parser)
  | overlay (f : Framework)
  | projectTopology
  | embedding (p : Parser)
  deriving DecidableEq

/-- What an analyzer is started with: its changed and deleted manifests, or neither in a full
scan. -/
structure Delivery where
  analyzer : Analyzer
  scan : Finset String
  deleted : Finset String
  full : Bool
  deriving DecidableEq

/-- The paths a run works on. -/
structure Work where
  changed : Finset String
  deleted : Finset String
  impacted : Finset String

variable (parsers : Option (List Selectable)) (full : Bool) (work : Work)

/-- The analyzers that have something to scan or to delete, in the order of `ANALYZERS`. -/
def parserDeliveries (role : Parser → Analyzer) : List Delivery :=
  analyzers.filterMap fun p =>
    let scan := ownedBy S p (work.changed ∪ work.impacted)
    let deleted := ownedBy S p work.deleted
    if !selected parsers (.parser p) || (scan = ∅ && deleted = ∅) then none
    else some { analyzer := role p, scan, deleted, full }

/-- `framework_grouped[framework]` -/
def routedTo (f : Framework) : Finset String :=
  let all := work.changed ∪ work.deleted ∪ work.impacted
  if parsers.isSome && selected parsers (.framework f) then
    S.frameworkPaths f all ∪ all.filter fun path => isFrameworkCandidate S f path
  else S.frameworkPaths f all

def frameworkDeliveries : List Delivery :=
  frameworkAnalyzers.filterMap fun f =>
    let routed := routedTo S parsers work f
    let scan := routed ∩ work.changed ∪ routed ∩ work.impacted
    let deleted := routed ∩ work.deleted
    if !selected parsers (.framework f) || (scan = ∅ && deleted = ∅) then none
    else some { analyzer := .overlay f, scan, deleted, full }

/-- The topology overlay, also when the graph has no module yet. -/
def topologyDeliveries (always bootstrapNeeded : Bool) : List Delivery :=
  let scan := (work.changed ∪ work.impacted).filter fun path => S.isDescriptor path
  let deleted := work.deleted.filter fun path => S.isDescriptor path
  if selected parsers .projectTopology &&
      (always || scan ≠ ∅ || deleted ≠ ∅ || bootstrapNeeded) then
    [{ analyzer := .projectTopology, scan, deleted, full }]
  else []

/-! ## What is started -/

variable {S parsers full work} {p : Parser} {path : String} {role : Parser → Analyzer}
  {d : Delivery}

theorem mem_ownedBy {paths : Finset String} :
    path ∈ ownedBy S p paths ↔ path ∈ paths ∧ selectParserForPath S path = some p :=
  Finset.mem_filter

theorem mem_parserDeliveries (h : d ∈ parserDeliveries S parsers full work role) :
    d.scan ⊆ work.changed ∪ work.impacted ∧ d.deleted ⊆ work.deleted := by
  obtain ⟨p, -, hd⟩ := List.mem_filterMap.mp h
  dsimp only at hd
  split at hd
  · cases hd
  · cases hd
    exact ⟨Finset.filter_subset _ _, Finset.filter_subset _ _⟩

/-- A selected analyzer is started with every path it owns. -/
theorem exists_parserDelivery (hsel : selected parsers (.parser p) = true)
    (hp : selectParserForPath S path = some p)
    (hpath : path ∈ work.changed ∪ work.impacted ∨ path ∈ work.deleted) :
    ∃ d ∈ parserDeliveries S parsers full work role, d.analyzer = role p ∧
      d.scan = ownedBy S p (work.changed ∪ work.impacted) ∧
        d.deleted = ownedBy S p work.deleted := by
  refine ⟨⟨role p, ownedBy S p (work.changed ∪ work.impacted), ownedBy S p work.deleted, full⟩,
    List.mem_filterMap.mpr ⟨p, mem_analyzers p, ?_⟩, rfl, rfl, rfl⟩
  have hnot : ¬ (ownedBy S p (work.changed ∪ work.impacted) = ∅ ∧
      ownedBy S p work.deleted = ∅) := by
    rintro ⟨hscan, hdeleted⟩
    rcases hpath with h | h
    · exact Finset.notMem_empty path (hscan ▸ mem_ownedBy.mpr ⟨h, hp⟩)
    · exact Finset.notMem_empty path (hdeleted ▸ mem_ownedBy.mpr ⟨h, hp⟩)
  simp only [hsel, Bool.not_true, Bool.false_or, Bool.and_eq_true, decide_eq_true_eq, if_neg hnot]

theorem parserDeliveries_owned (h : d ∈ parserDeliveries S parsers full work role) :
    ∃ p, d.analyzer = role p ∧ selected parsers (.parser p) = true ∧
      (∀ path ∈ d.scan, selectParserForPath S path = some p) ∧
      ∀ path ∈ d.deleted, selectParserForPath S path = some p := by
  obtain ⟨p, -, hd⟩ := List.mem_filterMap.mp h
  dsimp only at hd
  split at hd
  · cases hd
  · rename_i hcond
    cases hd
    refine ⟨p, rfl, ?_, fun path hpath => (mem_ownedBy.mp hpath).2, fun path hpath =>
      (mem_ownedBy.mp hpath).2⟩
    by_contra hsel
    exact hcond (by simp [Bool.eq_false_iff.mpr hsel])

theorem mem_frameworkDeliveries (h : d ∈ frameworkDeliveries S parsers full work) :
    (∃ f, d.analyzer = .overlay f) ∧ d.scan ⊆ work.changed ∪ work.impacted ∧
      d.deleted ⊆ work.deleted := by
  obtain ⟨f, -, hd⟩ := List.mem_filterMap.mp h
  dsimp only at hd
  split at hd
  · cases hd
  · cases hd
    exact ⟨⟨f, rfl⟩, Finset.union_subset_union Finset.inter_subset_right Finset.inter_subset_right,
      Finset.inter_subset_right⟩

theorem mem_topologyDeliveries {always bootstrapNeeded : Bool}
    (h : d ∈ topologyDeliveries S parsers full work always bootstrapNeeded) :
    d.analyzer = .projectTopology ∧ d.scan ⊆ work.changed ∪ work.impacted ∧
      d.deleted ⊆ work.deleted := by
  unfold topologyDeliveries at h
  dsimp only at h
  split at h
  · rw [List.mem_singleton.mp h]
    exact ⟨rfl, Finset.filter_subset _ _, Finset.filter_subset _ _⟩
  · cases h

theorem exists_frameworkDelivery {f : Framework} (hsel : selected parsers (.framework f) = true)
    (hrouted : path ∈ routedTo S parsers work f) (hdeleted : path ∈ work.deleted) :
    ∃ d ∈ frameworkDeliveries S parsers full work, path ∈ d.deleted := by
  have hmem : path ∈ routedTo S parsers work f ∩ work.deleted :=
    Finset.mem_inter.mpr ⟨hrouted, hdeleted⟩
  refine ⟨⟨.overlay f, routedTo S parsers work f ∩ work.changed ∪
    routedTo S parsers work f ∩ work.impacted, routedTo S parsers work f ∩ work.deleted, full⟩,
    List.mem_filterMap.mpr ⟨f, by cases f <;> decide, ?_⟩, hmem⟩
  have hnot : routedTo S parsers work f ∩ work.deleted ≠ ∅ := Finset.ne_empty_of_mem hmem
  simp [hsel, hnot]

theorem exists_topologyDelivery {always bootstrapNeeded : Bool}
    (hsel : selected parsers .projectTopology = true) (hpath : S.isDescriptor path = true)
    (hdeleted : path ∈ work.deleted) :
    ∃ d ∈ topologyDeliveries S parsers full work always bootstrapNeeded, path ∈ d.deleted := by
  have hmem : path ∈ work.deleted.filter fun path => S.isDescriptor path :=
    Finset.mem_filter.mpr ⟨hdeleted, hpath⟩
  refine ⟨⟨.projectTopology, (work.changed ∪ work.impacted).filter fun path => S.isDescriptor path,
    work.deleted.filter fun path => S.isDescriptor path, full⟩, ?_, hmem⟩
  unfold topologyDeliveries
  have hnot : work.deleted.filter (fun path => S.isDescriptor path) ≠ ∅ :=
    Finset.ne_empty_of_mem hmem
  simp [hsel, hnot]

end CortexHarness.Sync
