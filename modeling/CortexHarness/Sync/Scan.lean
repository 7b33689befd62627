import CortexHarness.Library.Fallible
import CortexHarness.Sync.Routing

/-!
# What a sync run works on

The first half of `_run_incremental`, up to the changed and the deleted paths: the state file and the
inventories of the cache are loaded, the kind of run is decided, Git is asked for candidates, the
tree is captured and compared with the recorded inventory. Everything a run reads of its
surroundings is its `Reading`.

* `markDirty` and `markClean` are the two writes of the state file;
* `recoverable` decides whether a dirty state can be replayed, and from which paths;
* `Scan` is what the first half computes, and `scan` computes it or raises before the inventory is
  captured.

Results: `scan_ok` collects what a scan is made of; `mem_inventory`, `inventory_entry` and
`inventory_under` say what the captured inventory holds.
-/

namespace CortexHarness.Sync

open Tabulate Fallible

/-! ## The state file -/

/-- `IncrementalSyncState`; a repository is recorded by its `last_good_sha`. -/
structure IncrementalSyncState where
  lastGoodSha : String := ""
  dirty : Bool := false
  snapshotId : String := ""
  inventoryPath : String := ""
  dirtyInventoryPaths : Finset String := ∅
  repositories : Finmap fun _ : String => String := ∅
  workingTreePaths : Finset String := ∅
  migrationRequired : Bool := false
  deriving DecidableEq

/-- The state file and the cache of one project. -/
structure Disk where
  state : IncrementalSyncState := {}
  cache : Generations := ∅
  deriving DecidableEq

/-- `mark_dirty`, before it is saved. -/
def markDirty (state : IncrementalSyncState) (dirtyInventoryPath : Option String) :
    IncrementalSyncState :=
  { state with
    dirty := true
    dirtyInventoryPaths := state.dirtyInventoryPaths ∪ dirtyInventoryPath.toFinset }

/-- `mark_clean`, before it is saved. -/
def markClean (state : IncrementalSyncState) (lastGoodSha snapshotId inventoryPath : String)
    (repositories : Finmap fun _ : String => String) (workingTreePaths : Finset String) :
    IncrementalSyncState :=
  { state with
    dirty := false
    dirtyInventoryPaths := ∅
    lastGoodSha := lastGoodSha
    snapshotId := snapshotId
    inventoryPath := inventoryPath
    repositories := repositories
    workingTreePaths := workingTreePaths
    migrationRequired := false }

/-! ## What Git reports -/

/-- `DiffEntry.status` -/
inductive Status where
  | added
  | modified
  | deleted
  | renamed
  deriving DecidableEq

structure DiffEntry where
  status : Status
  oldPath : Option String
  newPath : Option String
  deriving DecidableEq

/-- The path that `collect_changed_and_deleted` takes as changed. -/
def DiffEntry.changed (e : DiffEntry) : Option String :=
  match e.status with
  | .deleted => none
  | _ => e.newPath.filter (· != "")

/-- The path that `collect_changed_and_deleted` takes as deleted. -/
def DiffEntry.deleted (e : DiffEntry) : Option String :=
  match e.status with
  | .deleted | .renamed => e.oldPath.filter (· != "")
  | _ => none

/-- One repository of the tree. -/
structure RepositoryReading where
  sourcePrefix : String
  currentSha : String
  /-- `git diff <sha> HEAD`, or none where Git fails -/
  diff : String → Option (List DiffEntry)
  /-- staged, unstaged and untracked entries -/
  worktree : List DiffEntry
  /-- the files of `HEAD` that are still in the index; no run reads them -/
  tracked : Finset String := ∅

inductive WarningCode where
  | notGitRepository
  | gitmodulesUnreadable
  | submoduleUninitialized
  | submoduleCycle
  | submoduleUnreadable
  deriving DecidableEq

structure TopologyWarning where
  code : WarningCode
  path : String

structure GitReading where
  /-- the commit of `HEAD`, none while it is unborn -/
  head : Option String
  scopes : List RepositoryReading
  warnings : List TopologyWarning := []

/-- What one run reads of its surroundings. -/
structure Reading where
  /-- the file names below the root -/
  tree : Finset String
  files : Files
  git : Option GitReading
  sniffers : Sniffers
  /-- the answer of the impact query -/
  impacted : Finset String := ∅
  topologyBootstrapNeeded : Bool := false
  /-- the tree after the analyzers -/
  finalTree : Finset String
  finalFiles : Files

/-! ## The command line -/

inductive Detection where
  | hybrid
  | committed
  | hash
  deriving DecidableEq

inductive SyncMode where
  | both
  | graph
  | embedding
  deriving DecidableEq

structure Args where
  fullScan : Bool := false
  syncMode : SyncMode := .both
  changeDetection : Detection := .hybrid
  parsers : Option (List Selectable) := none
  reconcile : Bool := false
  strict : Bool := false
  beforeSha : String := ""
  recursiveSubmodules : Bool := true
  /-- `not no_graph and prepare_graph_args(args)` -/
  graphPrepared : Bool := true
  qdrantUrl : Bool := true
  /-- `_normalize_project_path(root, summary_path)` -/
  summaryPath : Option String := none

def Args.graphSelected (args : Args) : Bool := args.syncMode != .embedding

def Args.embeddingSelected (args : Args) : Bool := args.syncMode != .graph

def Args.graphReady (args : Args) : Bool := args.graphSelected && args.graphPrepared

variable (snapshotIdOf : Entries → String) (args : Args) (disk : Disk) (reading : Reading)

/-! ## The recorded inventories -/

/-- `previous_inventory` -/
def previousInventory : Option SourceInventory :=
  if disk.state.inventoryPath = "" then none
  else (loadInventoryGeneration snapshotIdOf disk.cache disk.state.inventoryPath).toOption

/-- The paths of the inventory file, if it can be loaded. -/
def pathsAt (path : String) : Finset String :=
  (entriesOf (loadInventoryGeneration snapshotIdOf disk.cache path).toOption).keys

/-- The paths of the inventories that a dirty state is recovered from. -/
def recoverable : Except SyncError (Finset String) :=
  let recorded := disk.state.dirtyInventoryPaths.biUnion (pathsAt snapshotIdOf disk)
  let unavailable := disk.state.dirtyInventoryPaths.filter fun path =>
    (loadInventoryGeneration snapshotIdOf disk.cache path).toOption = none
  let previous := previousInventory snapshotIdOf disk
  if !disk.state.dirty then .ok recorded
  else if disk.state.inventoryPath ≠ "" ∧ previous = none then .error .lastGoodInventoryUnavailable
  else if unavailable ≠ ∅ then .error .incompleteRecoveryInventory
  else if disk.state.dirtyInventoryPaths = ∅ then
    match previous with
    | some inventory => .ok inventory.entries.keys
    | none => if args.fullScan then .ok ∅ else .error .noRecoveryInventory
  else .ok recorded

/-- `full_scan`: requested, or no trustworthy baseline. -/
def needsFullScan : Bool :=
  args.fullScan || disk.state.migrationRequired || (previousInventory snapshotIdOf disk).isNone ||
    (args.beforeSha == "" && disk.state.lastGoodSha == "" && reading.git.isSome)

/-- `effective_detection` -/
def effectiveDetection : Except SyncError Detection :=
  match reading.git with
  | some git => .ok (if git.head.isNone then .hash else args.changeDetection)
  | none =>
    match args.changeDetection with
    | .committed => .error .gitRequired
    | _ => .ok .hash

/-- The services that strict mode misses. -/
def missingServices : Bool :=
  args.strict && ((args.graphSelected && !args.graphReady) ||
    (args.embeddingSelected && !args.qdrantUrl))

/-! ## Repositories -/

/-- The repositories that are asked. -/
def scopes : List RepositoryReading :=
  match reading.git with
  | none => []
  | some git => if args.recursiveSubmodules then git.scopes else git.scopes.take 1

/-- `topology_warnings` -/
def topologyWarnings : List TopologyWarning :=
  match reading.git with
  | none => []
  | some git => if args.recursiveSubmodules then git.warnings else []

/-- The paths of the warnings with one of these codes. -/
def warnedPaths (warnings : List TopologyWarning) (code : WarningCode) : Finset String :=
  ((warnings.filter fun w => w.code == code && w.path != "").map (·.path)).toFinset

/-- `ignored_prefixes` -/
def ignoredPrefixes : Finset String :=
  match reading.git with
  | none => ∅
  | some git =>
    if args.recursiveSubmodules then ∅
    else ((git.scopes.drop 1).map (·.sourcePrefix)).toFinset ∪
      ((git.warnings.map (·.path)).filter (· != "")).toFinset

/-- `unreadable_prefixes` -/
def unreadablePrefixes : Finset String :=
  warnedPaths (topologyWarnings args reading) .submoduleUnreadable

/-- `preserved_prefixes` -/
def preservedPrefixes : Finset String :=
  warnedPaths (topologyWarnings args reading) .submoduleUninitialized ∪ ignoredPrefixes args reading

/-- The commit a repository is at. -/
def currentSha (scope : RepositoryReading) : String :=
  if scope.sourcePrefix = "." then (reading.git.bind (·.head)).getD "" else scope.currentSha

/-- `prior_sha` -/
def priorSha (scope : RepositoryReading) : String :=
  let recorded := (disk.state.repositories.lookup scope.sourcePrefix).getD ""
  if scope.sourcePrefix = "." then
    if args.beforeSha ≠ "" then args.beforeSha
    else if recorded ≠ "" then recorded
    else disk.state.lastGoodSha
  else recorded

/-- `repository_state` -/
def repositoryState : Finmap fun _ : String => String :=
  let kept := preservedPrefixes args reading ∪ unreadablePrefixes args reading
  let asked := scopes args reading
  tabulate (kept ∪ (asked.map (·.sourcePrefix)).toFinset) fun name =>
    match asked.find? fun scope => scope.sourcePrefix == name with
    | some scope => some (currentSha reading scope)
    | none => disk.state.repositories.lookup name

/-! ## Candidates -/

/-- `_SOURCE_EXTENSIONS` -/
def sourceExtensions : List String :=
  [".cbl", ".cob", ".cpy", ".copy", ".c", ".cc", ".cpp", ".cxx", ".h", ".hh", ".hpp", ".hxx", ".pc",
    ".pcc", ".rc", ".rc2", ".pas", ".dpr", ".inc", ".py", ".go", ".pl", ".pm", ".t", ".sh", ".rs",
    ".swift", ".dart", ".arb", ".js", ".jsx", ".ts", ".tsx", ".php", ".cs", ".sql", ".pls", ".plsql",
    ".pks", ".pkb", ".pkg", ".pck", ".spc", ".spb", ".trg", ".fnc", ".vb", ".vbproj", ".vbp",
    ".vbw", ".frx", ".bas", ".cls", ".frm", ".vbs", ".wsf", ".asp", ".java", ".kt", ".kts", ".xml",
    ".gradle", ".properties", ".yml", ".yaml", ".json", ".jsp", ".jspx", ".jspf", ".tag", ".tagx"]

/-- `_SKIP_DIRS` -/
def skipDirs : List String :=
  ["node_modules", ".git", "__pycache__", ".tox", ".mypy_cache", ".pytest_cache", ".venv", "venv",
    ".idea", ".vscode", "dist", "build", ".next", ".nuxt", "target", "bin", "obj", ".cache",
    ".gradle", ".dart_tool"]

/-- The directories of a path. -/
def directoryNames (path : String) : List String :=
  ((path.toList.splitOnP (· == '/')).dropLast).map String.ofList

/-- A file name that an analyzer may want. -/
def isSourceName (S : Sniffers) (path : String) : Bool :=
  let lower := S.lower path
  sourceExtensions.contains (extension lower) || endsWith lower ".gradle.kts" ||
    S.isDescriptor path || (extension lower == ".txt" && S.isJp1File path)

/-- `_walk_all_source_files`: the user's ignored directories are left out here only. -/
def walkAllSourceFiles (S : Sniffers) (tree : Finset String) : Finset String :=
  tree.filter fun path => ((directoryNames path).all fun name =>
    !(skipDirs.contains name || startsWith name "." || S.matchesExtraIgnore name)) &&
      isSourceName S path

/-- `_is_source_candidate` -/
def isSourceCandidate (path : String) : Bool :=
  if args.summaryPath = some path then false
  else if (directoryNames path).any fun name => skipDirs.contains name || startsWith name "." then
    false
  else isSourceName reading.sniffers path

/-- `_scope_path` -/
def scopePath (scope : RepositoryReading) (path : String) : String :=
  if scope.sourcePrefix = "." then path else directoryOf scope.sourcePrefix ++ path

/-- What Git reports on one repository, or on several. -/
structure Candidates where
  committed : Finset String := ∅
  committedDeleted : Finset String := ∅
  worktree : Finset String := ∅
  worktreeDeleted : Finset String := ∅
  /-- repositories whose baseline commit is missing -/
  missing : Finset String := ∅

def Candidates.union (a b : Candidates) : Candidates where
  committed := a.committed ∪ b.committed
  committedDeleted := a.committedDeleted ∪ b.committedDeleted
  worktree := a.worktree ∪ b.worktree
  worktreeDeleted := a.worktreeDeleted ∪ b.worktreeDeleted
  missing := a.missing ∪ b.missing

/-- The paths of these entries in the tree. -/
def mapped (scope : RepositoryReading) (side : DiffEntry → Option String)
    (entries : List DiffEntry) : Finset String :=
  ((entries.filterMap side).map (scopePath scope)).toFinset

/-- The working tree entries that count. -/
def workEntries (scope : RepositoryReading) : List DiffEntry :=
  let others := ((scopes args reading).map (·.sourcePrefix)).filter (· != ".")
  scope.worktree.filter fun e =>
    match (e.newPath.filter (· != "")).or (e.oldPath.filter (· != "")) with
    | none => false
    | some path => isSourceCandidate args reading (scopePath scope path) &&
      !(scope.sourcePrefix == "." && args.recursiveSubmodules &&
        others.any fun other => startsWith path (directoryOf other))

/-- The commits of one repository since the recorded one. -/
def committedCandidates (full : Bool) (detection : Detection) (scope : RepositoryReading) :
    Except SyncError Candidates :=
  let prior := priorSha args disk scope
  if full || detection == .hash || prior == "" then .ok {}
  else match scope.diff prior with
    | some entries => .ok {
        committed := mapped scope DiffEntry.changed entries
        committedDeleted := mapped scope DiffEntry.deleted entries }
    | none =>
      if args.strict || detection == .committed then .error .missingRepositoryBaseline
      else .ok { missing := {scope.sourcePrefix} }

/-- The candidates of one repository. -/
def scopeCandidates (full : Bool) (detection : Detection) (scope : RepositoryReading) :
    Except SyncError Candidates := do
  let commits ← committedCandidates args disk full detection scope
  let work := workEntries args reading scope
  if detection = .committed ∧ work ≠ [] then .error .dirtyWorktree
  else if detection = .hybrid then .ok (commits.union {
    worktree := mapped scope DiffEntry.changed work
    worktreeDeleted := mapped scope DiffEntry.deleted work })
  else .ok commits

/-- The candidates of all repositories. -/
def collectCandidates (full : Bool) (detection : Detection) : Except SyncError Candidates := do
  let all ← (scopes args reading).mapM (scopeCandidates args disk reading full detection)
  return all.foldl Candidates.union { missing := unreadablePrefixes args reading }

/-! ## The scan -/

/-- What the first half of a run computes. -/
structure Scan where
  full : Bool
  recovery : Bool
  detection : Detection
  /-- `all_source_paths` -/
  sourcePaths : Finset String
  /-- `force_hash_paths` -/
  forced : Finset String
  /-- `current_inventory` -/
  inventory : SourceInventory
  changed : Finset String
  deleted : Finset String
  workingTreePaths : Finset String

/-- `all_source_paths` -/
def sourcePaths (tree : Finset String) : Finset String :=
  ((walkAllSourceFiles reading.sniffers tree).filter fun path =>
    ¬ UnderPreserved (preservedPrefixes args reading) path) \ args.summaryPath.toFinset

/-- `force_hash_paths` -/
def forceHashPaths (full : Bool) (detection : Detection) (candidates : Candidates) :
    Finset String :=
  let all := sourcePaths args reading reading.tree
  let eligible := all ∪ (entriesOf (previousInventory snapshotIdOf disk)).keys
  let some := candidates.committed ∩ eligible ∪ candidates.worktree ∩ eligible ∪
    disk.state.workingTreePaths ∩ eligible ∪
    all.filter fun path => ∃ name ∈ candidates.missing, name = "." ∨ path = name ∨
      startsWith path (directoryOf name) = true
  (if full || detection == .hash || args.reconcile || disk.state.dirty then all else some).filter
    fun path => ¬ UnderPreserved (preservedPrefixes args reading) path

/-- `changed_paths` and `deleted_paths` -/
def workPaths (full : Bool) (detection : Detection) (candidates : Candidates)
    (recovered : Finset String) (inventory : SourceInventory) : Finset String × Finset String :=
  let previous := previousInventory snapshotIdOf disk
  let all := sourcePaths args reading reading.tree
  let eligible := all ∪ (entriesOf previous).keys
  let (inventoryChanged, inventoryDeleted) := diffSourceInventories previous inventory
  let recoveryDeleted := recovered.filter fun path => path ∉ inventory.entries ∧
    ¬ UnderPreserved (preservedPrefixes args reading) path
  if full || disk.state.dirty then
    (all, if disk.state.dirty then inventoryDeleted ∪ recoveryDeleted else ∅)
  else match detection with
    | .hybrid | .hash => (inventoryChanged, inventoryDeleted)
    | .committed => (candidates.committed ∩ eligible, candidates.committedDeleted ∩ eligible)

/-- `_run_incremental` up to the changed and deleted paths. -/
def scan : Except SyncError Scan := do
  let previous := previousInventory snapshotIdOf disk
  let recovered ← recoverable snapshotIdOf args disk
  let full := needsFullScan snapshotIdOf args disk reading
  if missingServices args then .error .missingServices
  let detection ← effectiveDetection args reading
  if args.strict && !(topologyWarnings args reading).isEmpty then .error .repositoryCoverage
  let candidates ← collectCandidates args disk reading full detection
  let all := sourcePaths args reading reading.tree
  let eligible := all ∪ (entriesOf previous).keys
  let forced := forceHashPaths snapshotIdOf args disk reading full detection candidates
  let captured ← captureSourceInventory snapshotIdOf reading.files all previous forced
  let inventory := preserveInventoryPrefixes snapshotIdOf captured previous
    (preservedPrefixes args reading)
  let (changed, deleted) :=
    workPaths snapshotIdOf args disk reading full detection candidates recovered inventory
  return {
    full := full
    recovery := disk.state.dirty
    detection := detection
    sourcePaths := all
    forced := forced
    inventory := inventory
    changed := changed
    deleted := deleted
    workingTreePaths := (candidates.worktree ∪ candidates.worktreeDeleted) ∩ eligible ∪
      disk.state.workingTreePaths.filter (UnderPreserved (preservedPrefixes args reading)) }

/-! ## What a scan is made of -/

variable {snapshotIdOf args disk reading} {sc : Scan} {path : String}

/-- A scan that raises nothing. -/
theorem scan_ok (h : scan snapshotIdOf args disk reading = .ok sc) :
    ∃ recovered candidates captured,
      recoverable snapshotIdOf args disk = .ok recovered ∧
      collectCandidates args disk reading sc.full sc.detection = .ok candidates ∧
      captureSourceInventory snapshotIdOf reading.files sc.sourcePaths
        (previousInventory snapshotIdOf disk) sc.forced = .ok captured ∧
      sc.full = needsFullScan snapshotIdOf args disk reading ∧
      sc.recovery = disk.state.dirty ∧
      effectiveDetection args reading = .ok sc.detection ∧
      sc.sourcePaths = sourcePaths args reading reading.tree ∧
      sc.forced = forceHashPaths snapshotIdOf args disk reading sc.full sc.detection candidates ∧
      sc.inventory = preserveInventoryPrefixes snapshotIdOf captured
        (previousInventory snapshotIdOf disk) (preservedPrefixes args reading) ∧
      (sc.changed, sc.deleted) = workPaths snapshotIdOf args disk reading sc.full sc.detection
        candidates recovered sc.inventory := by
  unfold scan at h
  obtain ⟨recovered, hrecovered, h⟩ := bind_ok.mp h
  dsimp only at h
  split at h
  · cases h
  · obtain ⟨detection, hdetection, h⟩ := bind_ok.mp h
    split at h
    · cases h
    · obtain ⟨candidates, hcandidates, h⟩ := bind_ok.mp h
      obtain ⟨captured, hcaptured, h⟩ := bind_ok.mp h
      cases h
      exact ⟨recovered, candidates, captured, hrecovered, hcandidates, hcaptured, rfl, rfl,
        hdetection, rfl, rfl, rfl, rfl⟩

theorem mem_sourcePaths {tree : Finset String} (h : path ∈ sourcePaths args reading tree) :
    ¬ UnderPreserved (preservedPrefixes args reading) path :=
  (Finset.mem_filter.mp (Finset.mem_sdiff.mp h).1).2

/-- What the walk finds counts in the working tree, too. -/
theorem candidate_of_mem {tree : Finset String} (h : path ∈ sourcePaths args reading tree) :
    isSourceCandidate args reading path = true := by
  obtain ⟨hwalk, hsummary⟩ := Finset.mem_sdiff.mp h
  obtain ⟨hdirs, hname⟩ := (Bool.and_eq_true _ _).mp
    (Finset.mem_filter.mp (Finset.mem_filter.mp hwalk).1).2
  have hne : ¬ args.summaryPath = some path := fun hs =>
    hsummary (Option.mem_toFinset.mpr hs)
  have hkept : ¬ ((directoryNames path).any fun name =>
      skipDirs.contains name || startsWith name ".") = true := by
    intro hany
    obtain ⟨name, hmem, hskip⟩ := List.any_eq_true.mp hany
    have hall := List.all_eq_true.mp hdirs name hmem
    rw [hskip] at hall
    cases hall
  unfold isSourceCandidate
  rw [if_neg hne, if_neg hkept, hname]

variable (args reading) in
/-- A file of the walk. -/
def Present (path : String) : Prop :=
  path ∈ sourcePaths args reading reading.tree ∧ (reading.files path).isSome = true

/-- Outside the preserved prefixes the inventory holds the files of the walk. -/
theorem mem_inventory (h : scan snapshotIdOf args disk reading = .ok sc)
    (hpath : ¬ UnderPreserved (preservedPrefixes args reading) path) :
    path ∈ sc.inventory.entries ↔ Present args reading path := by
  obtain ⟨-, -, captured, -, -, hcaptured, -, -, -, hsource, -, hinventory, -⟩ := scan_ok h
  have hnot : ¬ (Carried (preservedPrefixes args reading) path ∧
      path ∈ entriesOf (previousInventory snapshotIdOf disk)) := fun hc => hpath hc.1.under
  rw [← Finmap.lookup_isSome, hinventory, lookup_preserved, if_neg hnot, Finmap.lookup_isSome,
    mem_captured hcaptured, hsource]
  rfl

/-- The entry of a file: the recorded one where it is trusted, else what was read. -/
theorem inventory_entry (h : scan snapshotIdOf args disk reading = .ok sc)
    (hpath : ¬ UnderPreserved (preservedPrefixes args reading) path) {e : InventoryEntry}
    (he : sc.inventory.entries.lookup path = some e) :
    Present args reading path ∧ ∃ file, reading.files path = some file ∧
      fingerprint file ((entriesOf (previousInventory snapshotIdOf disk)).lookup path)
        (decide (path ∈ sc.forced)) = .ok e := by
  obtain ⟨-, -, captured, -, -, hcaptured, -, -, -, -, -, hinventory, -⟩ := scan_ok h
  have hnot : ¬ (Carried (preservedPrefixes args reading) path ∧
      path ∈ entriesOf (previousInventory snapshotIdOf disk)) := fun hc => hpath hc.1.under
  refine ⟨(mem_inventory h hpath).mp (Finmap.mem_iff.mpr ⟨e, he⟩), ?_⟩
  rw [hinventory, lookup_preserved, if_neg hnot] at he
  exact (captured_entry hcaptured he).2

/-- Under a preserved prefix the inventory holds at most what was recorded. -/
theorem inventory_under (h : scan snapshotIdOf args disk reading = .ok sc)
    (hpath : UnderPreserved (preservedPrefixes args reading) path) {e : InventoryEntry}
    (he : sc.inventory.entries.lookup path = some e) :
    (entriesOf (previousInventory snapshotIdOf disk)).lookup path = some e := by
  obtain ⟨-, -, captured, -, -, hcaptured, -, -, -, hsource, -, hinventory, -⟩ := scan_ok h
  rw [hinventory, lookup_preserved] at he
  split at he
  · exact he
  · have hin := (captured_entry hcaptured he).1
    rw [hsource] at hin
    exact absurd hpath (mem_sourcePaths hin)

theorem inventory_snapshotId (h : scan snapshotIdOf args disk reading = .ok sc) :
    sc.inventory.snapshotId = snapshotIdOf sc.inventory.entries := by
  obtain ⟨-, -, captured, -, -, hcaptured, -, -, -, -, -, hinventory, -⟩ := scan_ok h
  have hcap : captured.snapshotId = snapshotIdOf captured.entries := by
    unfold captureSourceInventory at hcaptured
    split at hcaptured
    · cases hcaptured
      rfl
    · cases hcaptured
  rw [hinventory]
  unfold preserveInventoryPrefixes
  split
  · exact hcap
  · split
    · exact hcap
    · rfl

theorem mem_committed_foldl {all : List Candidates} {start : Candidates} :
    path ∈ (all.foldl Candidates.union start).committed ↔
      path ∈ start.committed ∨ ∃ c ∈ all, path ∈ c.committed := by
  induction all generalizing start with
  | nil => simp
  | cons c rest ih =>
    rw [List.foldl_cons, ih]
    simp only [Candidates.union, Finset.mem_union, List.mem_cons, exists_eq_or_imp, or_assoc]

/-! ## The four branches -/

variable (args reading) in
/-- `deleted_paths` of a recovery, beside those of the inventory. -/
def recoveryDeleted (recovered : Finset String) (inventory : SourceInventory) : Finset String :=
  recovered.filter fun path => path ∉ inventory.entries ∧
    ¬ UnderPreserved (preservedPrefixes args reading) path

theorem paths_dirty (h : scan snapshotIdOf args disk reading = .ok sc)
    (hdirty : disk.state.dirty = true) : ∃ recovered,
      recoverable snapshotIdOf args disk = .ok recovered ∧ sc.changed = sc.sourcePaths ∧
      sc.deleted = removedKeys (entriesOf (previousInventory snapshotIdOf disk))
        sc.inventory.entries ∪ recoveryDeleted args reading recovered sc.inventory := by
  obtain ⟨recovered, candidates, -, hrecovered, -, -, -, -, -, hsource, -, -, hpaths⟩ := scan_ok h
  refine ⟨recovered, hrecovered, ?_⟩
  unfold workPaths at hpaths
  simp only [hdirty, Bool.or_true, if_true, Prod.mk.injEq, diffSourceInventories] at hpaths
  rw [hsource]
  exact hpaths

theorem paths_full (h : scan snapshotIdOf args disk reading = .ok sc)
    (hdirty : disk.state.dirty = false) (hfull : sc.full = true) :
    sc.changed = sc.sourcePaths ∧ sc.deleted = ∅ := by
  obtain ⟨recovered, candidates, -, -, -, -, -, -, -, hsource, -, -, hpaths⟩ := scan_ok h
  unfold workPaths at hpaths
  simp only [hdirty, hfull, Bool.or_false, if_true, Bool.false_eq_true, if_false,
    Prod.mk.injEq] at hpaths
  rw [hsource]
  exact hpaths

/-- A hybrid or hash run works on the difference of the inventories. -/
theorem paths_diff (h : scan snapshotIdOf args disk reading = .ok sc)
    (hdirty : disk.state.dirty = false) (hfull : sc.full = false)
    (hdetection : sc.detection ≠ .committed) :
    (sc.changed, sc.deleted) =
      diffSourceInventories (previousInventory snapshotIdOf disk) sc.inventory := by
  obtain ⟨recovered, candidates, -, -, -, -, -, -, -, -, -, -, hpaths⟩ := scan_ok h
  unfold workPaths at hpaths
  simp only [hdirty, hfull, Bool.or_false, Bool.false_eq_true, if_false] at hpaths
  rw [hpaths]
  cases hd : sc.detection with
  | hybrid => rfl
  | hash => rfl
  | committed => exact absurd hd hdetection

/-- `eligible_paths` -/
def eligiblePaths (snapshotIdOf : Entries → String) (args : Args) (disk : Disk)
    (reading : Reading) : Finset String :=
  sourcePaths args reading reading.tree ∪ (entriesOf (previousInventory snapshotIdOf disk)).keys

theorem paths_committed (h : scan snapshotIdOf args disk reading = .ok sc)
    (hdirty : disk.state.dirty = false) (hfull : sc.full = false)
    (hdetection : sc.detection = .committed) : ∃ candidates,
      collectCandidates args disk reading false .committed = .ok candidates ∧
      sc.changed = candidates.committed ∩ eligiblePaths snapshotIdOf args disk reading ∧
      sc.deleted = candidates.committedDeleted ∩
        eligiblePaths snapshotIdOf args disk reading := by
  obtain ⟨recovered, candidates, -, -, hcandidates, -, -, -, -, -, -, -, hpaths⟩ := scan_ok h
  rw [hfull, hdetection] at hcandidates
  refine ⟨candidates, hcandidates, ?_⟩
  unfold workPaths at hpaths
  simp only [hdirty, hfull, hdetection, Bool.or_false, Bool.false_eq_true, if_false,
    Prod.mk.injEq] at hpaths
  exact hpaths

end CortexHarness.Sync
