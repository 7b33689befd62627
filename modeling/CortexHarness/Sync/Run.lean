import CortexHarness.Library.Run
import CortexHarness.Sync.Scan

/-!
# A run of incremental sync

The second half of `_run_incremental`: the analyzers are started one after the other, the tree is
compared with what was captured, and the inventory becomes the new baseline. A run may stop at any
step: an exception goes through the failure path, which records the captured inventory and marks the
state dirty, and an interruption (`KeyboardInterrupt`, or a killed process) goes through none.

* `Faults` says what stops a run, `Attempt` is one run with what it reads and what stops it;
* `planned` are the deliveries of a run, `startAnalyzers` starts them;
* `outcome` is the run, with the state file and the cache it leaves.

Results:
* `outcome_clean`: what a run that ends by `mark_clean` has done;
* `previous_after_clean`: the next run compares the tree with the inventory of the last clean one.
-/

namespace CortexHarness.Sync

open Tabulate Fallible Run

/-! ## What stops a run -/

/-- How a run stops: an exception, or an interruption that no `except Exception` sees. -/
inductive Abort where
  | raised
  | killed
  deriving DecidableEq

/-- How an analyzer process ends; after `CalledProcessError` the run goes on. -/
inductive StepResult where
  | done
  | childFailed
  | aborted (how : Abort)
  deriving DecidableEq

/-- How the write of the dirty inventory ends: `OSError` and `ValueError` are caught. -/
inductive DirtyWrite where
  | written
  | caught
  | aborted (how : Abort)
  deriving DecidableEq

/-- What stops a run, step by step. -/
structure Faults where
  /-- before the inventory is captured -/
  early : Option Abort := none
  /-- between the inventory and the analyzers -/
  setup : Option Abort := none
  analyzer : Nat → StepResult := fun _ => .done
  verify : Option Abort := none
  writeInventory : Option Abort := none
  saveClean : Option Abort := none
  /-- while the failure record and the debug artifact are made -/
  report : Option Abort := none
  writeDirty : DirtyWrite := .written
  saveDirty : Option Abort := none

/-- How a run ends. -/
inductive Ending where
  /-- by `mark_clean` -/
  | clean
  /-- a graph-only or embedding-only scan keeps the shared baseline -/
  | preserved
  /-- through the whole failure path -/
  | failed
  /-- interrupted, or stopped inside the failure path -/
  | crashed
  deriving DecidableEq

structure Outcome where
  disk : Disk
  ending : Ending
  /-- what was scanned, once the inventory was captured -/
  scanned : Option Scan
  /-- the analyzers that were started -/
  delivered : List Delivery

/-- One run. -/
structure Attempt where
  args : Args
  reading : Reading
  faults : Faults := {}

/-! ## The deliveries -/

variable (args : Args) (reading : Reading) (sc : Scan)

/-- `changed_paths`, `deleted_paths` and `impacted_paths` -/
def workOf : Work where
  changed := sc.changed
  deleted := sc.deleted
  impacted :=
    if !sc.full && !sc.recovery && args.graphReady && sc.changed ≠ ∅ then reading.impacted else ∅

/-- `run_embedding_pass` -/
def embeddingPass : Bool :=
  args.embeddingSelected && (args.qdrantUrl || (args.syncMode == .both && !args.graphReady))

/-- Every analyzer that the run starts, in order. -/
def planned : List Delivery :=
  let S := reading.sniffers
  let full := sc.full && !sc.recovery
  let work := workOf args reading sc
  let bootstrapNeeded := !sc.full && !sc.recovery && reading.topologyBootstrapNeeded
  (if args.graphReady then
    parserDeliveries S args.parsers full work .primary ++
      frameworkDeliveries S args.parsers full work ++
        topologyDeliveries S args.parsers full work (sc.full || sc.recovery) bootstrapNeeded
  else []) ++
    if embeddingPass args then parserDeliveries S args.parsers full work .embedding else []

/-- Start the analyzers: the ones that were started, and whether one has failed. -/
def startAnalyzers (result : Nat → StepResult) :
    Nat → List Delivery → List Delivery × Except Abort Bool
  | _, [] => ([], .ok false)
  | i, d :: rest =>
    match result i with
    | .aborted how => ([d], .error how)
    | .childFailed => (d :: (startAnalyzers result (i + 1) rest).1,
        (startAnalyzers result (i + 1) rest).2.map fun _ => true)
    | .done => (d :: (startAnalyzers result (i + 1) rest).1,
        (startAnalyzers result (i + 1) rest).2)

/-! ## The ends of a run -/

/-- `write_inventory_generation` in the failure path: the cache and the file, if it is written. -/
def dirtyInventory (faults : Faults) (disk : Disk) (current : Option SourceInventory) :
    Option (Generations × String) :=
  match current, faults.writeDirty with
  | some inventory, .written => (writeInventoryGeneration disk.cache inventory).toOption
  | _, _ => none

/-- The failure path: record the captured inventory, mark the state dirty. -/
def failurePath (faults : Faults) (disk : Disk) (state : IncrementalSyncState)
    (current : Option SourceInventory) : Disk × Ending :=
  match faults.report, current, faults.writeDirty with
  | some _, _, _ => (disk, .crashed)
  | none, some _, .aborted _ => (disk, .crashed)
  | none, _, _ =>
    let recorded := dirtyInventory faults disk current
    let cache := (recorded.map Prod.fst).getD disk.cache
    if current.isSome || state.dirty then
      match faults.saveDirty with
      | some _ => ({ disk with cache := cache }, .crashed)
      | none => ({ state := markDirty state (recorded.map Prod.snd), cache := cache }, .failed)
    else ({ disk with cache := cache }, .failed)

/-- An exception takes the failure path, an interruption ends the process. -/
def stop (faults : Faults) (how : Abort) (disk : Disk) (state : IncrementalSyncState)
    (current : Option SourceInventory) : Disk × Ending :=
  match how with
  | .killed => (disk, .crashed)
  | .raised => failurePath faults disk state current

/-- `last_good_sha` of a clean state. -/
def lastGoodShaAfter (disk : Disk) : String :=
  match reading.git.bind (·.head) with
  | none => disk.state.lastGoodSha
  | some sha =>
    if (scopes args reading).any fun scope => scope.sourcePrefix == "." then sha else "HEAD"

variable (snapshotIdOf : Entries → String)

/-- The tree is still what was captured. -/
def verified (paths : Finset String) : Bool :=
  (validateInventoryUnchanged snapshotIdOf reading.finalFiles sc.inventory paths).isOk &&
    sourcePaths args reading reading.finalTree =
      sc.inventory.entries.keys.filter fun path =>
        ¬ UnderPreserved (preservedPrefixes args reading) path

/-- `verification_paths` -/
def verificationPaths : Finset String :=
  let all := sc.full || sc.recovery || sc.detection == .hash || args.reconcile
  (if all then sc.inventory.entries.keys else sc.changed ∪ (workOf args reading sc).impacted).filter
    fun path => ¬ UnderPreserved (preservedPrefixes args reading) path

/-- The state that `mark_clean` makes. -/
def cleanState (disk : Disk) (inventoryPath : String) : IncrementalSyncState :=
  markClean disk.state (lastGoodShaAfter args reading disk) sc.inventory.snapshotId inventoryPath
    (repositoryState args disk reading) sc.workingTreePaths

/-- Write the inventory and mark the state clean. -/
def publish (faults : Faults) (disk : Disk) : Disk × Ending :=
  let current := some sc.inventory
  match faults.writeInventory, writeInventoryGeneration disk.cache sc.inventory with
  | some how, _ => stop faults how disk disk.state current
  | none, .error _ => failurePath faults disk disk.state current
  | none, .ok (cache, path) =>
    let state := cleanState args reading sc disk path
    match faults.saveClean with
    | some how => stop faults how { disk with cache := cache } state current
    | none => ({ state, cache }, .clean)

/-- Compare the tree with what was captured, then publish. -/
def verifyAndPublish (faults : Faults) (disk : Disk) (paths : Finset String) (advances : Bool) :
    Disk × Ending :=
  let current := some sc.inventory
  match faults.verify with
  | some how => stop faults how disk disk.state current
  | none =>
    if !verified args reading sc snapshotIdOf paths then failurePath faults disk disk.state current
    else if advances then publish args reading sc faults disk
    else (disk, .preserved)

/-- Nothing to do. -/
def Scan.Quiet : Prop := sc.changed = ∅ ∧ sc.deleted = ∅ ∧ sc.recovery = false

instance : Decidable sc.Quiet := inferInstanceAs (Decidable (_ ∧ _))

/-- The run once the inventory is captured. -/
def afterScan (faults : Faults) (disk : Disk) : Outcome :=
  let current := some sc.inventory
  let finish := fun (delivered : List Delivery) (r : Disk × Ending) =>
    Outcome.mk r.1 r.2 (some sc) delivered
  match faults.setup with
  | some how => finish [] (stop faults how disk disk.state current)
  | none =>
    if sc.Quiet then
      finish [] (verifyAndPublish args reading sc snapshotIdOf faults disk sc.forced true)
    else
      let started := startAnalyzers faults.analyzer 0 (planned args reading sc)
      match started.2 with
      | .error how => finish started.1 (stop faults how disk disk.state current)
      | .ok true => finish started.1 (failurePath faults disk disk.state current)
      | .ok false => finish started.1 (verifyAndPublish args reading sc snapshotIdOf faults disk
          (verificationPaths args reading sc) (args.syncMode == .both))

/-- `_run_incremental` -/
def outcome (disk : Disk) (a : Attempt) : Outcome :=
  let early := fun r : Disk × Ending => Outcome.mk r.1 r.2 none []
  match a.faults.early, scan snapshotIdOf a.args disk a.reading with
  | some how, _ => early (stop a.faults how disk disk.state none)
  | none, .error _ => early (failurePath a.faults disk disk.state none)
  | none, .ok sc => afterScan a.args a.reading sc snapshotIdOf a.faults disk

/-- The state file and the cache after a run. -/
def after (disk : Disk) (a : Attempt) : Disk := (outcome snapshotIdOf disk a).disk

/-- What holds of every run of a sequence, on the disk it starts from. -/
def Along (Q : Disk → Attempt → Prop) : Disk → List Attempt → Prop
  | _, [] => True
  | disk, a :: rest => Q disk a ∧ Along Q (after snapshotIdOf disk a) rest

/-! ## What a run has done -/

variable {args reading sc snapshotIdOf} {disk : Disk} {a : Attempt} {faults : Faults}
  {state : IncrementalSyncState} {current : Option SourceInventory} {how : Abort}

theorem along_congr {Q Q' : Disk → Attempt → Prop} (h : ∀ disk a, Q disk a ↔ Q' disk a)
    (disk : Disk) (attempts : List Attempt) :
    Along snapshotIdOf Q disk attempts ↔ Along snapshotIdOf Q' disk attempts := by
  induction attempts generalizing disk with
  | nil => exact Iff.rfl
  | cons a rest ih => exact and_congr (h disk a) (ih _)

theorem failurePath_ending :
    (failurePath faults disk state current).2 = .failed ∨
      (failurePath faults disk state current).2 = .crashed := by
  unfold failurePath
  split
  · exact Or.inr rfl
  · exact Or.inr rfl
  · dsimp only
    split
    · split
      · exact Or.inr rfl
      · exact Or.inl rfl
    · exact Or.inl rfl

theorem failurePath_not_clean : (failurePath faults disk state current).2 ≠ .clean := by
  rcases @failurePath_ending disk faults state current with h | h <;> simp [h]

theorem stop_not_clean : (stop faults how disk state current).2 ≠ .clean := by
  cases how with
  | raised => exact failurePath_not_clean
  | killed => simp [stop]

theorem startAnalyzers_ok {result : Nat → StepResult} {ds : List Delivery} {i : Nat} {b : Bool}
    (h : (startAnalyzers result i ds).2 = .ok b) : (startAnalyzers result i ds).1 = ds := by
  induction ds generalizing i b with
  | nil => rfl
  | cons d rest ih =>
    unfold startAnalyzers at h ⊢
    cases hr : result i with
    | aborted how =>
      rw [hr] at h
      cases h
    | childFailed =>
      rw [hr] at h
      dsimp only at h ⊢
      cases hrest : (startAnalyzers result (i + 1) rest).2 with
      | error how =>
        rw [hrest] at h
        cases h
      | ok b' => rw [ih hrest]
    | done =>
      rw [hr] at h
      dsimp only at h ⊢
      rw [ih h]

/-- An analyzer is started with paths of the run. -/
theorem mem_planned {d : Delivery} (h : d ∈ planned args reading sc) :
    d.scan ⊆ (workOf args reading sc).changed ∪ (workOf args reading sc).impacted ∧
      d.deleted ⊆ (workOf args reading sc).deleted := by
  unfold planned at h
  dsimp only at h
  rcases List.mem_append.mp h with h | h
  · split at h
    · rcases List.mem_append.mp h with h | h
      · rcases List.mem_append.mp h with h | h
        · exact mem_parserDeliveries h
        · exact (mem_frameworkDeliveries h).2
      · exact (mem_topologyDeliveries h).2
    · cases h
  · split at h
    · exact mem_parserDeliveries h
    · cases h

theorem planned_owned {d : Delivery} (h : d ∈ planned args reading sc) {p : Parser}
    (hrole : d.analyzer = .primary p ∨ d.analyzer = .embedding p) :
    selected args.parsers (.parser p) = true ∧
      (∀ path ∈ d.scan, selectParserForPath reading.sniffers path = some p) ∧
      ∀ path ∈ d.deleted, selectParserForPath reading.sniffers path = some p := by
  have hparser : d ∈ parserDeliveries reading.sniffers args.parsers (sc.full && !sc.recovery)
      (workOf args reading sc) .primary ∨ d ∈ parserDeliveries reading.sniffers args.parsers
      (sc.full && !sc.recovery) (workOf args reading sc) .embedding := by
    unfold planned at h
    dsimp only at h
    rcases List.mem_append.mp h with h | h
    · split at h
      · rcases List.mem_append.mp h with h | h
        · rcases List.mem_append.mp h with h | h
          · exact Or.inl h
          · obtain ⟨⟨f, hf⟩, -⟩ := mem_frameworkDeliveries h
            simp [hf] at hrole
        · simp [(mem_topologyDeliveries h).1] at hrole
      · cases h
    · split at h
      · exact Or.inr h
      · cases h
  rcases hparser with h | h
  · obtain ⟨q, hq, howned⟩ := parserDeliveries_owned h
    have : q = p := by simpa [hq] using hrole
    exact this ▸ howned
  · obtain ⟨q, hq, howned⟩ := parserDeliveries_owned h
    have : q = p := by simpa [hq] using hrole
    exact this ▸ howned

theorem exists_planned (hboth : args.syncMode = .both) {p : Parser} {path : String}
    (hsel : selected args.parsers (.parser p) = true)
    (hp : selectParserForPath reading.sniffers path = some p)
    (hpath : path ∈ (workOf args reading sc).changed ∪ (workOf args reading sc).impacted ∨
      path ∈ (workOf args reading sc).deleted) :
    ∃ d ∈ planned args reading sc, (d.analyzer = .primary p ∨ d.analyzer = .embedding p) ∧
      d.scan = ownedBy reading.sniffers p
        ((workOf args reading sc).changed ∪ (workOf args reading sc).impacted) ∧
      d.deleted = ownedBy reading.sniffers p (workOf args reading sc).deleted := by
  unfold planned
  dsimp only
  by_cases hready : args.graphReady = true
  · obtain ⟨d, hd, hrole, hmanifests⟩ := @exists_parserDelivery reading.sniffers args.parsers
      (sc.full && !sc.recovery) (workOf args reading sc) p path .primary hsel hp hpath
    refine ⟨d, List.mem_append_left _ ?_, Or.inl hrole, hmanifests⟩
    rw [if_pos hready]
    exact List.mem_append_left _ (List.mem_append_left _ hd)
  · have hpass : embeddingPass args = true := by
      simp [embeddingPass, Args.embeddingSelected, hboth, hready]
    obtain ⟨d, hd, hrole, hmanifests⟩ := @exists_parserDelivery reading.sniffers args.parsers
      (sc.full && !sc.recovery) (workOf args reading sc) p path .embedding hsel hp hpath
    refine ⟨d, List.mem_append_right _ ?_, Or.inr hrole, hmanifests⟩
    rw [if_pos hpass]
    exact hd

theorem publish_clean (h : (publish args reading sc faults disk).2 = .clean) :
    ∃ cache path, writeInventoryGeneration disk.cache sc.inventory = .ok (cache, path) ∧
      (publish args reading sc faults disk).1 =
        { state := cleanState args reading sc disk path, cache := cache } := by
  unfold publish at h ⊢
  dsimp only at h ⊢
  split at h
  · exact absurd h stop_not_clean
  · exact absurd h failurePath_not_clean
  · rename_i cache path _ hwrite
    split at h
    · exact absurd h stop_not_clean
    · exact ⟨cache, path, hwrite, rfl⟩

theorem verifyAndPublish_clean {paths : Finset String} {advances : Bool}
    (h : (verifyAndPublish args reading sc snapshotIdOf faults disk paths advances).2 = .clean) :
    advances = true ∧ ∃ cache path,
      writeInventoryGeneration disk.cache sc.inventory = .ok (cache, path) ∧
      (verifyAndPublish args reading sc snapshotIdOf faults disk paths advances).1 =
        { state := cleanState args reading sc disk path, cache := cache } := by
  unfold verifyAndPublish at h ⊢
  dsimp only at h ⊢
  split at h
  · exact absurd h stop_not_clean
  · split at h
    · exact absurd h failurePath_not_clean
    · rename_i hverified
      split at h
      · rename_i hadvances
        rw [if_neg hverified, if_pos hadvances]
        exact ⟨hadvances, publish_clean h⟩
      · cases h

/-- **A run that ends by `mark_clean`** has captured an inventory, started every analyzer of its
plan unless there was nothing to do, and recorded the inventory as the new baseline. -/
theorem outcome_clean (h : (outcome snapshotIdOf disk a).ending = .clean) :
    ∃ sc cache path, scan snapshotIdOf a.args disk a.reading = .ok sc ∧
      (outcome snapshotIdOf disk a).scanned = some sc ∧
      writeInventoryGeneration disk.cache sc.inventory = .ok (cache, path) ∧
      (outcome snapshotIdOf disk a).disk =
        { state := cleanState a.args a.reading sc disk path, cache := cache } ∧
      ((sc.Quiet ∧ (outcome snapshotIdOf disk a).delivered = []) ∨
        (¬ sc.Quiet ∧ a.args.syncMode = .both ∧
          (outcome snapshotIdOf disk a).delivered = planned a.args a.reading sc)) := by
  unfold outcome at h ⊢
  dsimp only at h ⊢
  split at h
  · exact absurd h stop_not_clean
  · exact absurd h failurePath_not_clean
  · rename_i sc _ hscan
    refine ⟨sc, ?_⟩
    unfold afterScan at h ⊢
    dsimp only at h ⊢
    split at h
    · exact absurd h stop_not_clean
    · split at h
      · rename_i hquiet
        obtain ⟨-, cache, path, hwrite, hdisk⟩ := verifyAndPublish_clean h
        simp only [if_pos hquiet]
        exact ⟨cache, path, hscan, trivial, hwrite, hdisk, Or.inl ⟨hquiet, trivial⟩⟩
      · rename_i hquiet
        simp only [if_neg hquiet]
        split at h
        · exact absurd h stop_not_clean
        · exact absurd h failurePath_not_clean
        · rename_i hstarted
          obtain ⟨hadv, cache, path, hwrite, hdisk⟩ := verifyAndPublish_clean h
          exact ⟨cache, path, hscan, rfl, hwrite, hdisk,
            Or.inr ⟨hquiet, by simpa using hadv, startAnalyzers_ok hstarted⟩⟩

/-- **The next run starts from the inventory of a clean one.** -/
theorem previous_after_clean (h : (outcome snapshotIdOf disk a).ending = .clean) :
    ∃ sc, (outcome snapshotIdOf disk a).scanned = some sc ∧
      previousInventory snapshotIdOf (after snapshotIdOf disk a) = some sc.inventory := by
  obtain ⟨sc, cache, path, hscan, hscanned, hwrite, hdisk, -⟩ := outcome_clean h
  refine ⟨sc, hscanned, ?_⟩
  unfold after previousInventory
  rw [hdisk]
  have hpath : path ≠ "" := written_path hwrite ▸ generationPath_ne_empty _
  show (if path = "" then none else (loadInventoryGeneration snapshotIdOf cache path).toOption) = _
  rw [if_neg hpath, load_written (inventory_snapshotId hscan) hwrite]
  rfl

/-! ## Small trees -/

/-- A tree of source files with these hashes. -/
def sampleReading (hashes : List (String × String)) (git : Option GitReading := none) :
    Reading where
  tree := (hashes.map Prod.fst).toFinset
  files path := (hashes.lookup path).map fun sha => ⟨⟨sha.length, 1⟩, sha, ⟨sha.length, 1⟩⟩
  git := git
  sniffers := {
    lower := id
    matchesExtraIgnore := fun _ => false
    isJp1File := fun _ => false
    isAndroidPath := fun _ => false
    vbParser := fun _ => none
    isDescriptor := fun _ => false
    frameworkPaths := fun _ _ => ∅ }
  finalTree := (hashes.map Prod.fst).toFinset
  finalFiles path := (hashes.lookup path).map fun sha => ⟨⟨sha.length, 1⟩, sha, ⟨sha.length, 1⟩⟩

/-- A snapshot id that tells small inventories apart. -/
def sampleSnapshotId (entries : Entries) : String :=
  let shaAt := fun path => ((entries.lookup path).map (·.sha256)).getD "-"
  shaAt "a.py" ++ "," ++ shaAt "b.py"

def sampleAttempt : Attempt := { args := {}, reading := sampleReading [("a.py", "1")] }

theorem previous_after_clean_sample :
    ∃ sc, (outcome sampleSnapshotId {} sampleAttempt).scanned = some sc ∧
      previousInventory sampleSnapshotId (after sampleSnapshotId {} sampleAttempt) =
        some sc.inventory :=
  previous_after_clean (by decide +kernel)

end CortexHarness.Sync
