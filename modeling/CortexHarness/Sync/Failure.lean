import CortexHarness.Sync.Run

/-!
# What a stopped run leaves

A recovery compares the tree with the inventories of the state file. A run that stops keeps them all
and, through the failure path, adds the one it has captured; only after `mark_clean` has changed the
state in memory are the old ones gone.

* `recoveryPaths` are the paths that a recovery finds;
* `Kept` says that one state file forgets nothing of another;
* `Handled` says that nothing interrupts the run, nor its failure path.

Results: `failurePath_kept` and `failurePath_recorded`; `afterScan_ends` collects how a run ends once
the inventory is captured.
-/

namespace CortexHarness.Sync

open Tabulate Fallible

variable (snapshotIdOf : Entries → String)

/-- The paths that the inventories of the state file hold. -/
def recoveryPaths (disk : Disk) : Finset String :=
  (entriesOf (previousInventory snapshotIdOf disk)).keys ∪
    if disk.state.dirty then disk.state.dirtyInventoryPaths.biUnion (pathsAt snapshotIdOf disk)
    else ∅

/-- What is loaded from one cache is loaded from the other. -/
def Grows (cache cache' : Generations) : Prop :=
  ∀ name inventory, loadInventoryGeneration snapshotIdOf cache name = .ok inventory →
    loadInventoryGeneration snapshotIdOf cache' name = .ok inventory

/-- Nothing is forgotten. -/
structure Kept (disk disk' : Disk) : Prop where
  cache : Grows snapshotIdOf disk.cache disk'.cache
  inventoryPath : disk'.state.inventoryPath = disk.state.inventoryPath
  dirty : disk.state.dirty = true → disk'.state.dirty = true
  dirtyInventoryPaths : disk.state.dirtyInventoryPaths ⊆ disk'.state.dirtyInventoryPaths

/-- Nothing interrupts the run after its inventory is captured, and nothing stops the failure
path. -/
structure Handled (faults : Faults) : Prop where
  setup : faults.setup ≠ some .killed
  analyzer : ∀ i, faults.analyzer i ≠ .aborted .killed
  verify : faults.verify ≠ some .killed
  writeInventory : faults.writeInventory ≠ some .killed
  saveClean : faults.saveClean ≠ some .killed
  report : faults.report = none
  writeDirty : ∀ how, faults.writeDirty ≠ .aborted how
  saveDirty : faults.saveDirty = none

/-- The failure path records this inventory. -/
def Records (faults : Faults) (disk : Disk) (inventory : SourceInventory) : Prop :=
  faults.writeDirty = .written ∧ (writeInventoryGeneration disk.cache inventory).isOk = true

variable {snapshotIdOf} {disk disk' : Disk} {cache cache' : Generations} {path : String}
  {inventory : SourceInventory} {faults : Faults} {state : IncrementalSyncState}
  {current : Option SourceInventory} {how : Abort}

theorem grows_refl : Grows snapshotIdOf cache cache := fun _ _ h => h

theorem grows_written (h : writeInventoryGeneration cache inventory = .ok (cache', path)) :
    Grows snapshotIdOf cache cache' :=
  fun _ _ hload => load_kept h hload

theorem kept_refl : Kept snapshotIdOf disk disk := ⟨grows_refl, rfl, id, subset_rfl⟩

theorem pathsAt_grows (h : Grows snapshotIdOf disk.cache disk'.cache) (name : String) :
    pathsAt snapshotIdOf disk name ⊆ pathsAt snapshotIdOf disk' name := by
  unfold pathsAt
  cases hload : loadInventoryGeneration snapshotIdOf disk.cache name with
  | error e => simp [Except.toOption]
  | ok inventory => rw [h name inventory hload]

theorem recoveryPaths_kept (h : Kept snapshotIdOf disk disk') :
    recoveryPaths snapshotIdOf disk ⊆ recoveryPaths snapshotIdOf disk' := by
  unfold recoveryPaths
  refine Finset.union_subset_union ?_ ?_
  · unfold previousInventory
    rw [h.inventoryPath]
    split
    · exact subset_rfl
    · exact pathsAt_grows h.cache _
  · split
    · rename_i hdirty
      rw [if_pos (h.dirty hdirty)]
      intro path hpath
      obtain ⟨name, hname, hpath⟩ := Finset.mem_biUnion.mp hpath
      exact Finset.mem_biUnion.mpr
        ⟨name, h.dirtyInventoryPaths hname, pathsAt_grows h.cache name hpath⟩
    · exact Finset.empty_subset _

/-! ## The failure path -/

theorem dirtyInventory_grows (faults : Faults) (disk : Disk) (current : Option SourceInventory) :
    Grows snapshotIdOf disk.cache
      (((dirtyInventory faults disk current).map Prod.fst).getD disk.cache) := by
  unfold dirtyInventory
  split
  · rename_i inventory _
    cases hwrite : writeInventoryGeneration disk.cache inventory with
    | error e => exact grows_refl
    | ok r => exact @grows_written _ disk.cache r.1 r.2 inventory hwrite
  · exact grows_refl

theorem failurePath_disk (faults : Faults) (disk : Disk) (state : IncrementalSyncState)
    (current : Option SourceInventory) : ∃ cache, Grows snapshotIdOf disk.cache cache ∧
    ((failurePath faults disk state current).1 = { disk with cache := cache } ∨
      ∃ recorded, (failurePath faults disk state current).1 =
        { state := markDirty state recorded, cache := cache }) := by
  unfold failurePath
  split
  · exact ⟨disk.cache, grows_refl, Or.inl rfl⟩
  · exact ⟨disk.cache, grows_refl, Or.inl rfl⟩
  · rename_i current _ _ _ _ _
    refine ⟨_, dirtyInventory_grows faults disk current, ?_⟩
    dsimp only
    split
    · split
      · exact Or.inl rfl
      · exact Or.inr ⟨_, rfl⟩
    · exact Or.inl rfl

/-- **The failure path keeps what is recorded.** -/
theorem failurePath_kept :
    Kept snapshotIdOf disk (failurePath faults disk disk.state current).1 := by
  obtain ⟨cache, hgrows, h | ⟨recorded, h⟩⟩ :=
    @failurePath_disk snapshotIdOf faults disk disk.state current
  · rw [h]
    exact ⟨hgrows, rfl, id, subset_rfl⟩
  · rw [h]
    exact ⟨hgrows, rfl, fun _ => rfl, Finset.subset_union_left⟩

/-- **A failure path that nothing stops marks the state dirty, and records what was captured.** -/
theorem failurePath_recorded (h : Handled faults)
    (hid : inventory.snapshotId = snapshotIdOf inventory.entries) :
    ∃ cache recorded, Grows snapshotIdOf disk.cache cache ∧
      (failurePath faults disk state (some inventory)).1 =
        { state := markDirty state recorded, cache := cache } ∧
      (Records faults disk inventory → ∃ name, recorded = some name ∧
        loadInventoryGeneration snapshotIdOf cache name = .ok inventory) := by
  refine ⟨_, (dirtyInventory faults disk (some inventory)).map Prod.snd,
    dirtyInventory_grows faults disk (some inventory), ?_, ?_⟩
  · unfold failurePath
    rw [h.report]
    split
    · rename_i hreport
      cases hreport
    · rename_i hwrite
      exact absurd hwrite (h.writeDirty _)
    · simp only [h.saveDirty, Option.isSome_some, Bool.true_or, if_true]
  · rintro ⟨hwritten, hok⟩
    cases hwrite : writeInventoryGeneration disk.cache inventory with
    | error e =>
      rw [hwrite] at hok
      cases hok
    | ok r =>
      refine ⟨r.2, ?_, ?_⟩
      · simp [dirtyInventory, hwritten, hwrite, Except.toOption]
      · simp only [dirtyInventory, hwritten, hwrite, Except.toOption, Option.map_some,
          Option.getD_some]
        exact load_written hid hwrite

/-! ## The ends of a run -/

variable (snapshotIdOf) in
/-- A run that stops before the state is changed. -/
structure Stopped (faults : Faults) (disk : Disk) (inventory : SourceInventory)
    (r : Disk × Ending) : Prop where
  ending : r.2 = .failed ∨ r.2 = .crashed
  kept : Kept snapshotIdOf disk r.1
  dirty : Handled faults → r.1.state.dirty = true
  recorded : Handled faults → Records faults disk inventory →
    inventory.entries.keys ⊆ recoveryPaths snapshotIdOf r.1

variable (snapshotIdOf) in
/-- A run that stops while the clean state is saved, and marks that state dirty: the inventories
that were recorded before are forgotten. -/
structure Unsaved (faults : Faults) (inventory : SourceInventory) (r : Disk × Ending) : Prop where
  ending : r.2 = .failed ∨ r.2 = .crashed
  saveClean : faults.saveClean ≠ none
  dirty : r.1.state.dirty = true
  recorded : inventory.entries.keys ⊆ recoveryPaths snapshotIdOf r.1

theorem pathsAt_loaded (h : loadInventoryGeneration snapshotIdOf disk.cache path = .ok inventory) :
    pathsAt snapshotIdOf disk path = inventory.entries.keys := by
  unfold pathsAt
  rw [h]
  rfl

theorem failurePath_stopped (hid : inventory.snapshotId = snapshotIdOf inventory.entries) :
    Stopped snapshotIdOf faults disk inventory
      (failurePath faults disk disk.state (some inventory)) := by
  refine ⟨failurePath_ending, failurePath_kept, fun h => ?_, fun h hrecords => ?_⟩
  · obtain ⟨cache, recorded, -, heq, -⟩ :=
      @failurePath_recorded snapshotIdOf disk inventory faults disk.state h hid
    rw [heq]
    rfl
  · obtain ⟨cache, recorded, -, heq, hnamed⟩ :=
      @failurePath_recorded snapshotIdOf disk inventory faults disk.state h hid
    obtain ⟨name, rfl, hload⟩ := hnamed hrecords
    clear hnamed
    rw [heq]
    unfold recoveryPaths
    refine (Finset.Subset.trans ?_ Finset.subset_union_right)
    show _ ⊆ (disk.state.dirtyInventoryPaths ∪ {name}).biUnion _
    rw [← @pathsAt_loaded snapshotIdOf { state := markDirty disk.state (some name), cache }
      name inventory hload]
    exact Finset.subset_biUnion_of_mem _ (Finset.mem_union_right _ (Finset.mem_singleton_self _))

theorem stop_stopped (hid : inventory.snapshotId = snapshotIdOf inventory.entries)
    (hhow : Handled faults → how ≠ .killed) :
    Stopped snapshotIdOf faults disk inventory
      (stop faults how disk disk.state (some inventory)) := by
  cases how with
  | raised => exact failurePath_stopped hid
  | killed =>
    exact ⟨Or.inr rfl, kept_refl, fun h => absurd rfl (hhow h), fun h => absurd rfl (hhow h)⟩

variable {args : Args} {reading : Reading} {sc : Scan}

theorem recoveryPaths_cleanState (hpath : path ≠ "") {recorded : Option String}
    (hload : loadInventoryGeneration snapshotIdOf cache path = .ok sc.inventory) :
    sc.inventory.entries.keys ⊆ recoveryPaths snapshotIdOf
      { state := markDirty (cleanState args reading sc disk path) recorded, cache := cache } := by
  have hprevious : previousInventory snapshotIdOf
      { state := markDirty (cleanState args reading sc disk path) recorded, cache := cache } =
        some sc.inventory := by
    unfold previousInventory
    show (if path = "" then none else (loadInventoryGeneration snapshotIdOf cache path).toOption) = _
    rw [if_neg hpath, hload]
    rfl
  unfold recoveryPaths
  rw [hprevious]
  exact Finset.subset_union_left

theorem publish_ends (hid : sc.inventory.snapshotId = snapshotIdOf sc.inventory.entries) :
    let r := publish args reading sc faults disk
    r.2 = .clean ∨ Stopped snapshotIdOf faults disk sc.inventory r ∨
      Unsaved snapshotIdOf faults sc.inventory r := by
  dsimp only
  unfold publish
  dsimp only
  split
  · rename_i how _ hfault
    exact Or.inr (Or.inl (stop_stopped hid fun h => by simpa [hfault] using h.writeInventory))
  · exact Or.inr (Or.inl (failurePath_stopped hid))
  · rename_i cache path _ hwritten
    split
    · rename_i how hsave
      have hgrows := @grows_written snapshotIdOf disk.cache cache path sc.inventory hwritten
      have hload := load_written hid hwritten
      have hpath : path ≠ "" := written_path hwritten ▸ generationPath_ne_empty _
      have hne : faults.saveClean ≠ none := by simp [hsave]
      cases how with
      | killed =>
        exact Or.inr (Or.inl ⟨Or.inr rfl, ⟨hgrows, rfl, id, subset_rfl⟩,
          fun h => absurd hsave h.saveClean, fun h => absurd hsave h.saveClean⟩)
      | raised =>
        obtain ⟨cache', hgrows', hleft | ⟨recorded, hmarked⟩⟩ := @failurePath_disk snapshotIdOf
          faults { disk with cache := cache } (cleanState args reading sc disk path)
            (some sc.inventory)
        · by_cases h : Handled faults
          · obtain ⟨cache'', recorded, hgrows'', hmarked, -⟩ :=
              @failurePath_recorded snapshotIdOf { disk with cache := cache } sc.inventory faults
                (cleanState args reading sc disk path) h hid
            refine Or.inr (Or.inr ⟨failurePath_ending, hne, ?_, ?_⟩)
            · exact congrArg (·.state.dirty) hmarked
            · exact hmarked ▸ recoveryPaths_cleanState hpath (hgrows'' _ _ hload)
          · refine Or.inr (Or.inl ⟨failurePath_ending, ?_, fun h' => absurd h' h,
              fun h' => absurd h' h⟩)
            show Kept snapshotIdOf disk (failurePath faults _ _ _).1
            rw [hleft]
            exact ⟨fun name inventory h => hgrows' _ _ (hgrows _ _ h), rfl, id, subset_rfl⟩
        · refine Or.inr (Or.inr ⟨failurePath_ending, hne, ?_, ?_⟩)
          · exact congrArg (·.state.dirty) hmarked
          · exact hmarked ▸ recoveryPaths_cleanState hpath (hgrows' _ _ hload)
    · exact Or.inl rfl

theorem verifyAndPublish_ends (hid : sc.inventory.snapshotId = snapshotIdOf sc.inventory.entries)
    {paths : Finset String} {advances : Bool} :
    let r := verifyAndPublish args reading sc snapshotIdOf faults disk paths advances
    r.2 = .clean ∨ Stopped snapshotIdOf faults disk sc.inventory r ∨
      (Unsaved snapshotIdOf faults sc.inventory r ∧ advances = true) ∨
      (r = (disk, .preserved) ∧ advances = false) := by
  dsimp only
  unfold verifyAndPublish
  dsimp only
  split
  · rename_i how hfault
    exact Or.inr (Or.inl (stop_stopped hid fun h => by simpa [hfault] using h.verify))
  · split
    · exact Or.inr (Or.inl (failurePath_stopped hid))
    · cases advances with
      | false => exact Or.inr (Or.inr (Or.inr ⟨rfl, rfl⟩))
      | true =>
        rcases @publish_ends snapshotIdOf disk faults args reading sc hid with h | h | h
        · exact Or.inl h
        · exact Or.inr (Or.inl h)
        · exact Or.inr (Or.inr (Or.inl ⟨h, rfl⟩))

theorem startAnalyzers_subset {result : Nat → StepResult} {ds : List Delivery} {i : Nat} :
    (startAnalyzers result i ds).1 ⊆ ds := by
  induction ds generalizing i with
  | nil => exact List.Subset.refl _
  | cons d rest ih =>
    unfold startAnalyzers
    split
    · exact List.cons_subset_cons _ (List.nil_subset _)
    · exact List.cons_subset_cons _ ih
    · exact List.cons_subset_cons _ ih

theorem startAnalyzers_error {result : Nat → StepResult} {ds : List Delivery} {i : Nat}
    (h : (startAnalyzers result i ds).2 = .error how) : ∃ j, result j = .aborted how := by
  induction ds generalizing i with
  | nil => cases h
  | cons d rest ih =>
    unfold startAnalyzers at h
    split at h
    · rename_i how' hresult
      cases h
      exact ⟨i, hresult⟩
    · cases hrest : (startAnalyzers result (i + 1) rest).2 with
      | error how' =>
        rw [hrest] at h
        cases h
        exact ih hrest
      | ok b =>
        rw [hrest] at h
        cases h
    · exact ih h

/-- Every analyzer of the plan was started, or there was nothing to do. -/
def Worked (args : Args) (reading : Reading) (sc : Scan) (o : Outcome) : Prop :=
  (sc.Quiet ∧ o.delivered = []) ∨
    (¬ sc.Quiet ∧ args.syncMode = .both ∧ o.delivered = planned args reading sc)

/-- **How a run ends once the inventory is captured.** -/
theorem afterScan_ends (hid : sc.inventory.snapshotId = snapshotIdOf sc.inventory.entries) :
    let o := afterScan args reading sc snapshotIdOf faults disk
    o.scanned = some sc ∧ o.delivered ⊆ planned args reading sc ∧
      (o.ending = .clean ∧ Worked args reading sc o ∨
        Stopped snapshotIdOf faults disk sc.inventory (o.disk, o.ending) ∨
        Unsaved snapshotIdOf faults sc.inventory (o.disk, o.ending) ∧ Worked args reading sc o ∨
        o.ending = .preserved ∧ o.disk = disk ∧ args.syncMode ≠ .both) := by
  dsimp only
  unfold afterScan
  dsimp only
  split
  · rename_i how hfault
    exact ⟨rfl, List.nil_subset _, Or.inr (Or.inl (stop_stopped hid fun h => by
      simpa [hfault] using h.setup))⟩
  · split
    · rename_i hquiet
      refine ⟨rfl, List.nil_subset _, ?_⟩
      rcases @verifyAndPublish_ends snapshotIdOf disk faults args reading sc hid sc.forced true
        with h | h | ⟨h, -⟩ | ⟨-, h⟩
      · exact Or.inl ⟨h, Or.inl ⟨hquiet, rfl⟩⟩
      · exact Or.inr (Or.inl h)
      · exact Or.inr (Or.inr (Or.inl ⟨h, Or.inl ⟨hquiet, rfl⟩⟩))
      · cases h
    · rename_i hquiet
      split
      · rename_i how hstarted
        refine ⟨rfl, startAnalyzers_subset, Or.inr (Or.inl (stop_stopped hid fun h => ?_))⟩
        obtain ⟨j, hj⟩ := startAnalyzers_error hstarted
        rintro rfl
        exact h.analyzer j hj
      · exact ⟨rfl, startAnalyzers_subset, Or.inr (Or.inl (failurePath_stopped hid))⟩
      · rename_i hstarted
        refine ⟨rfl, startAnalyzers_subset, ?_⟩
        have hall := startAnalyzers_ok hstarted
        rcases @verifyAndPublish_ends snapshotIdOf disk faults args reading sc hid
          (verificationPaths args reading sc) (args.syncMode == .both)
          with h | h | ⟨h, hboth⟩ | ⟨h, hboth⟩
        · have hboth := (verifyAndPublish_clean h).1
          exact Or.inl ⟨h, Or.inr ⟨hquiet, by simpa using hboth, hall⟩⟩
        · exact Or.inr (Or.inl h)
        · exact Or.inr (Or.inr (Or.inl ⟨h, Or.inr ⟨hquiet, by simpa using hboth, hall⟩⟩))
        · refine Or.inr (Or.inr (Or.inr ⟨congrArg Prod.snd h, congrArg Prod.fst h, ?_⟩))
          simpa using hboth

theorem stop_kept : Kept snapshotIdOf disk (stop faults how disk disk.state current).1 := by
  cases how with
  | raised => exact failurePath_kept
  | killed => exact kept_refl

/-- A run stops before the inventory is captured, with nothing delivered or forgotten, or goes on
from its scan. -/
theorem outcome_ends (disk : Disk) (a : Attempt) :
    let o := outcome snapshotIdOf disk a
    (o.scanned = none ∧ o.delivered = [] ∧ Kept snapshotIdOf disk o.disk ∧ o.ending ≠ .clean) ∨
      ∃ sc, scan snapshotIdOf a.args disk a.reading = .ok sc ∧
        o = afterScan a.args a.reading sc snapshotIdOf a.faults disk := by
  dsimp only
  unfold outcome
  dsimp only
  split
  · exact Or.inl ⟨rfl, rfl, stop_kept, stop_not_clean⟩
  · exact Or.inl ⟨rfl, rfl, failurePath_kept, failurePath_not_clean⟩
  · rename_i sc _ hscan
    exact Or.inr ⟨sc, hscan, rfl⟩

end CortexHarness.Sync
