import CortexHarness.Sync.Failure
import CortexHarness.Sync.Changes
import CortexHarness.Sync.Deletions

/-!
# Dirty recovery

What a run hands to an analyzer is in the graph even if the run fails. A recovery finds it again
only through the inventories of the state file; a run that is killed while the state is clean adds
none.

* `owedAfter` are the paths that were delivered since the last clean run and not delivered as
  deletions since;
* `RecoveryComplete` says of one run that what is owed and gone is delivered as a deletion, and that
  a run that stops leaves a dirty state that knows what it has delivered;
* `RecoveryCovered` is the condition.

Results:
* `owed_step`: under the condition, what is owed stays known to the state file;
* **`recovery_complete`**: every sequence of runs that meet the condition recovers completely;
* **`killed_run_forgotten`**: a run that is killed.
-/

namespace CortexHarness.Sync

open Tabulate Fallible

variable (snapshotIdOf : Entries → String)

/-- The paths that the started analyzers were to scan. -/
def Outcome.delivers (o : Outcome) (path : String) : Prop := ∃ d ∈ o.delivered, path ∈ d.scan

/-- The paths that the started analyzers were to delete. -/
def Outcome.deletes (o : Outcome) (path : String) : Prop := ∃ d ∈ o.delivered, path ∈ d.deleted

/-- What is owed after a run: nothing after a clean one, else also what it has delivered, but for
what it has delivered as a deletion. -/
def owedAfter (disk : Disk) (owed : String → Prop) (a : Attempt) (path : String) : Prop :=
  let o := outcome snapshotIdOf disk a
  o.ending ≠ .clean ∧ (owed path ∨ o.delivers path) ∧ ¬ o.deletes path

/-- What holds of every run of a sequence, on the disk and the debt it starts from. -/
def AlongOwed (Q : Disk → (String → Prop) → Attempt → Prop) :
    Disk → (String → Prop) → List Attempt → Prop
  | _, _, [] => True
  | disk, owed, a :: rest => Q disk owed a ∧
      AlongOwed Q (after snapshotIdOf disk a) (owedAfter snapshotIdOf disk owed a) rest

/-- **A recovery is complete**: a run that ends by `mark_clean` delivers what is owed and gone as a
deletion, and one that fails or is interrupted after its inventory is captured leaves a dirty state
whose inventories hold what it has delivered. -/
structure RecoveryComplete (disk : Disk) (owed : String → Prop) (a : Attempt) : Prop where
  deletions : (outcome snapshotIdOf disk a).ending = .clean →
    ∀ sc, (outcome snapshotIdOf disk a).scanned = some sc →
      ∀ path, owed path → path ∉ sc.inventory.entries →
        ¬ UnderPreserved (preservedPrefixes a.args a.reading) path →
          (outcome snapshotIdOf disk a).deletes path
  dirty : (outcome snapshotIdOf disk a).scanned.isSome = true →
    (outcome snapshotIdOf disk a).ending = .failed ∨
      (outcome snapshotIdOf disk a).ending = .crashed →
    (after snapshotIdOf disk a).state.dirty = true ∧
      ∀ path, (outcome snapshotIdOf disk a).delivers path →
        path ∈ recoveryPaths snapshotIdOf (after snapshotIdOf disk a)

/-! ## The condition -/

/-- The paths that a run may hand to an analyzer as changed. -/
def Scannable (disk : Disk) (a : Attempt) (path : String) : Prop :=
  path ∈ sourcePaths a.args a.reading a.reading.tree ∨ path ∈ a.reading.impacted ∨
    path ∈ reportedChanges disk a ∩ eligiblePaths snapshotIdOf a.args disk a.reading

/-- The paths of the inventory that a run captures. -/
def Captured (disk : Disk) (a : Attempt) (path : String) : Prop :=
  Present a.args a.reading path ∨ (Carried (preservedPrefixes a.args a.reading) path ∧
    path ∈ entriesOf (previousInventory snapshotIdOf disk))

/-- Every path that is captured is recorded already. -/
def NothingNew (disk : Disk) (a : Attempt) : Prop :=
  ∀ path, Captured snapshotIdOf disk a path → path ∈ recoveryPaths snapshotIdOf disk

/-- A selected analyzer takes the deletion of a path. -/
def Routed (a : Attempt) (path : String) : Prop :=
  (∃ p, selected a.args.parsers (.parser p) = true ∧
    selectParserForPath a.reading.sniffers path = some p) ∨
  (a.args.graphReady = true ∧
    ((∃ f, selected a.args.parsers (.framework f) = true ∧ ∀ work : Work, path ∈ work.deleted →
        path ∈ routedTo a.reading.sniffers a.args.parsers work f) ∨
      (selected a.args.parsers .projectTopology = true ∧
        a.reading.sniffers.isDescriptor path = true)))

/-- The condition of a complete recovery. -/
structure RecoveryCovered (disk : Disk) (owed : String → Prop) (a : Attempt) : Prop where
  /-- what the run may deliver is captured or recorded -/
  known : ∀ path, Scannable snapshotIdOf disk a path →
    Captured snapshotIdOf disk a path ∨ path ∈ recoveryPaths snapshotIdOf disk
  /-- the failure path goes through and records what is new, or the state is dirty and nothing is
  new -/
  failure : (disk.state.dirty = true ∧ NothingNew snapshotIdOf disk a) ∨
    (Handled a.faults ∧ (NothingNew snapshotIdOf disk a ∨
      ∀ sc, scan snapshotIdOf a.args disk a.reading = .ok sc → Records a.faults disk sc.inventory))
  /-- a run for one store finds nothing new -/
  oneStore : a.args.syncMode = .both ∨ NothingNew snapshotIdOf disk a
  /-- a run that comes to save the clean state finds what is owed and gone, and routes it -/
  gone : (outcome snapshotIdOf disk a).ending = .clean ∨ a.faults.saveClean ≠ none →
    ∀ path, owed path → ¬ Present a.args a.reading path →
      ¬ UnderPreserved (preservedPrefixes a.args a.reading) path →
        Routed a path ∧ (disk.state.dirty = true ∨
          (needsFullScan snapshotIdOf a.args disk a.reading = false ∧
            (effectiveDetection a.args a.reading ≠ .ok .committed ∨
              path ∈ reportedDeletions disk a)))
  /-- the clean state is saved, or everything is in the tree -/
  saved : a.faults.saveClean = none ∨ (preservedPrefixes a.args a.reading = ∅ ∧
    ∀ path, Scannable snapshotIdOf disk a path → Present a.args a.reading path)

variable {snapshotIdOf} {disk : Disk} {owed : String → Prop} {a : Attempt} {sc : Scan}
  {path : String}

/-! ## What a run delivers -/

theorem mem_inventory_iff (hscan : scan snapshotIdOf a.args disk a.reading = .ok sc) :
    path ∈ sc.inventory.entries ↔ Captured snapshotIdOf disk a path := by
  obtain ⟨-, -, captured, -, -, hcaptured, -, -, -, hsource, -, hinventory, -⟩ := scan_ok hscan
  unfold Captured
  rw [← Finmap.lookup_isSome, hinventory, lookup_preserved]
  by_cases hkept : Carried (preservedPrefixes a.args a.reading) path ∧
      path ∈ entriesOf (previousInventory snapshotIdOf disk)
  · rw [if_pos hkept, Finmap.lookup_isSome]
    exact iff_of_true hkept.2 (Or.inr hkept)
  · rw [if_neg hkept, Finmap.lookup_isSome, mem_captured hcaptured, hsource]
    exact (or_iff_left hkept).symm

theorem scannable_of_planned (hscan : scan snapshotIdOf a.args disk a.reading = .ok sc)
    {d : Delivery} (hd : d ∈ planned a.args a.reading sc) (hpath : path ∈ d.scan) :
    Scannable snapshotIdOf disk a path := by
  obtain ⟨-, -, -, -, -, -, -, -, -, hsource, -⟩ := scan_ok hscan
  rcases Finset.mem_union.mp ((mem_planned hd).1 hpath) with hchanged | himpacted
  · cases hdirty : disk.state.dirty with
    | true =>
      obtain ⟨-, -, hall, -⟩ := paths_dirty hscan hdirty
      exact Or.inl (hsource ▸ hall ▸ hchanged)
    | false =>
      cases hf : sc.full with
      | true => exact Or.inl (hsource ▸ (paths_full hscan hdirty hf).1 ▸ hchanged)
      | false =>
        by_cases hcommitted : sc.detection = .committed
        · obtain ⟨all, hall, hpaths, -⟩ := paths_committed hscan hdirty hf hcommitted
          have hreported : reportedChanges disk a = all.committed := by
            unfold reportedChanges
            rw [hall]
          refine Or.inr (Or.inr ?_)
          rw [hreported, ← hpaths]
          exact hchanged
        · have hdiff : sc.changed = changedKeys InventoryEntry.sha256
              (entriesOf (previousInventory snapshotIdOf disk)) sc.inventory.entries :=
            congrArg Prod.fst (paths_diff hscan hdirty hf hcommitted)
          obtain ⟨e, he, hne⟩ := mem_changedKeys.mp
            (hdiff ▸ show path ∈ sc.changed from hchanged)
          exact Or.inl (present_of_differs hscan he hne).2.1
  · unfold workOf at himpacted
    dsimp only at himpacted
    split at himpacted
    · exact Or.inr (Or.inl himpacted)
    · exact absurd himpacted (Finset.notMem_empty _)

/-- What the inventories of the state file hold and the tree lacks is deleted, but for what a full
or a committed run of a clean state overlooks. -/
theorem gone_deleted (hscan : scan snapshotIdOf a.args disk a.reading = .ok sc)
    (hknown : path ∈ recoveryPaths snapshotIdOf disk) (hgone : path ∉ sc.inventory.entries)
    (hpath : ¬ UnderPreserved (preservedPrefixes a.args a.reading) path)
    (hfound : disk.state.dirty = true ∨
      (needsFullScan snapshotIdOf a.args disk a.reading = false ∧
        (effectiveDetection a.args a.reading ≠ .ok .committed ∨
          path ∈ reportedDeletions disk a))) : path ∈ sc.deleted := by
  obtain ⟨-, -, -, -, -, -, hfull, -, hdetection, -⟩ := scan_ok hscan
  have hremoved : path ∈ entriesOf (previousInventory snapshotIdOf disk) →
      path ∈ removedKeys (entriesOf (previousInventory snapshotIdOf disk)) sc.inventory.entries :=
    fun hold => mem_removedKeys.mpr ⟨hold, hgone⟩
  cases hdirty : disk.state.dirty with
  | true =>
    obtain ⟨recovered, hrecovered, -, hdeleted⟩ := paths_dirty hscan hdirty
    rw [hdeleted]
    unfold recoveryPaths at hknown
    rw [hdirty, if_pos rfl] at hknown
    rcases Finset.mem_union.mp hknown with hold | hrecorded
    · exact Finset.mem_union_left _ (hremoved (Finmap.mem_keys.mp hold))
    · refine Finset.mem_union_right _ (Finset.mem_filter.mpr ⟨?_, hgone, hpath⟩)
      -- Some inventory is recorded, so that the recovery reads them all.
      have hsome : disk.state.dirtyInventoryPaths ≠ ∅ := by
        intro hnone
        rw [hnone] at hrecorded
        exact absurd hrecorded (Finset.notMem_empty _)
      unfold recoverable at hrecovered
      simp only [hdirty, Bool.not_true, Bool.false_eq_true, if_false, hsome] at hrecovered
      split at hrecovered
      · cases hrecovered
      · split at hrecovered
        · cases hrecovered
        · cases hrecovered
          exact hrecorded
  | false =>
    obtain ⟨hplain, hreported⟩ := hfound.resolve_left (by simp [hdirty])
    have hold : path ∈ entriesOf (previousInventory snapshotIdOf disk) := by
      unfold recoveryPaths at hknown
      rw [hdirty] at hknown
      simpa [Finmap.mem_keys] using hknown
    rw [← hfull] at hplain
    by_cases hcommitted : sc.detection = .committed
    · obtain ⟨all, hall, -, hdeleted⟩ := paths_committed hscan hdirty hplain hcommitted
      have hmem : path ∈ all.committedDeleted := by
        have h := hreported.resolve_left (by simp [hdetection, hcommitted])
        unfold reportedDeletions at h
        rwa [hall] at h
      rw [hdeleted]
      exact Finset.mem_inter.mpr ⟨hmem, Finset.mem_union_right _ (Finmap.mem_keys.mpr hold)⟩
    · have hdiff : sc.deleted = removedKeys (entriesOf (previousInventory snapshotIdOf disk))
          sc.inventory.entries := congrArg Prod.snd (paths_diff hscan hdirty hplain hcommitted)
      rw [hdiff]
      exact hremoved hold

theorem routed_deleted (hboth : a.args.syncMode = .both) (hrouted : Routed a path)
    (hdeleted : path ∈ sc.deleted) :
    ∃ d ∈ planned a.args a.reading sc, path ∈ d.deleted := by
  have hwork : path ∈ (workOf a.args a.reading sc).deleted := hdeleted
  rcases hrouted with ⟨p, hsel, hp⟩ | ⟨hready, ⟨f, hsel, hroute⟩ | ⟨hsel, hdescriptor⟩⟩
  · obtain ⟨d, hd, -, -, hdel⟩ := exists_planned hboth hsel hp (Or.inr hwork)
    exact ⟨d, hd, hdel ▸ mem_ownedBy.mpr ⟨hwork, hp⟩⟩
  · obtain ⟨d, hd, hmem⟩ := @exists_frameworkDelivery a.reading.sniffers a.args.parsers
      (sc.full && !sc.recovery) _ path f hsel (hroute _ hwork) hwork
    refine ⟨d, List.mem_append_left _ ?_, hmem⟩
    rw [if_pos hready]
    exact List.mem_append_left _ (List.mem_append_right _ hd)
  · obtain ⟨d, hd, hmem⟩ := @exists_topologyDelivery a.reading.sniffers a.args.parsers
      (sc.full && !sc.recovery) _ path (sc.full || sc.recovery)
      (!sc.full && !sc.recovery && a.reading.topologyBootstrapNeeded) hsel hdescriptor hwork
    refine ⟨d, List.mem_append_left _ ?_, hmem⟩
    rw [if_pos hready]
    exact List.mem_append_right _ hd

/-- What is owed and gone is delivered as a deletion once every analyzer was started. -/
theorem owed_deleted (hscan : scan snapshotIdOf a.args disk a.reading = .ok sc)
    (hcov : RecoveryCovered snapshotIdOf disk owed a)
    (howed : ∀ path, owed path → path ∈ recoveryPaths snapshotIdOf disk)
    (hends : (outcome snapshotIdOf disk a).ending = .clean ∨ a.faults.saveClean ≠ none)
    (hworked : Worked a.args a.reading sc (outcome snapshotIdOf disk a)) (hpath : owed path)
    (hgone : path ∉ sc.inventory.entries)
    (hunder : ¬ UnderPreserved (preservedPrefixes a.args a.reading) path) :
    (outcome snapshotIdOf disk a).deletes path := by
  have habsent : ¬ Present a.args a.reading path :=
    fun hin => hgone ((mem_inventory hscan hunder).mpr hin)
  obtain ⟨hrouted, hfound⟩ := hcov.gone hends path hpath habsent hunder
  have hdeleted := gone_deleted hscan (howed path hpath) hgone hunder hfound
  rcases hworked with ⟨hquiet, -⟩ | ⟨-, hboth, hplanned⟩
  · rw [hquiet.2.1] at hdeleted
    exact absurd hdeleted (Finset.notMem_empty _)
  · obtain ⟨d, hd, hmem⟩ := routed_deleted hboth hrouted hdeleted
    exact ⟨d, hplanned ▸ hd, hmem⟩

/-- A run that stops before the state is changed leaves it dirty, and knows all it knew or has
captured. -/
theorem stopped_keeps (hscan : scan snapshotIdOf a.args disk a.reading = .ok sc)
    (hcov : RecoveryCovered snapshotIdOf disk owed a) {r : Disk × Ending}
    (h : Stopped snapshotIdOf a.faults disk sc.inventory r) :
    r.1.state.dirty = true ∧ ∀ path, Captured snapshotIdOf disk a path ∨
      path ∈ recoveryPaths snapshotIdOf disk → path ∈ recoveryPaths snapshotIdOf r.1 := by
  have hkept := recoveryPaths_kept h.kept
  have hnothing : NothingNew snapshotIdOf disk a → ∀ path, Captured snapshotIdOf disk a path ∨
      path ∈ recoveryPaths snapshotIdOf disk → path ∈ recoveryPaths snapshotIdOf r.1 := by
    rintro hnew path (hcaptured | hknown)
    · exact hkept (hnew path hcaptured)
    · exact hkept hknown
  rcases hcov.failure with ⟨hdirty, hnew⟩ | ⟨hhandled, hnew | hrecords⟩
  · exact ⟨h.kept.dirty hdirty, hnothing hnew⟩
  · exact ⟨h.dirty hhandled, hnothing hnew⟩
  · refine ⟨h.dirty hhandled, ?_⟩
    rintro path (hcaptured | hknown)
    · exact h.recorded hhandled (hrecords sc hscan)
        (Finmap.mem_keys.mpr ((mem_inventory_iff hscan).mpr hcaptured))
    · exact hkept hknown

/-- **One run**: under the condition the recovery is complete, and what is owed stays known to the
state file. -/
theorem owed_step (hcov : RecoveryCovered snapshotIdOf disk owed a)
    (howed : ∀ path, owed path → path ∈ recoveryPaths snapshotIdOf disk) :
    RecoveryComplete snapshotIdOf disk owed a ∧
      ∀ path, owedAfter snapshotIdOf disk owed a path →
        path ∈ recoveryPaths snapshotIdOf (after snapshotIdOf disk a) := by
  rcases outcome_ends disk a with ⟨hnone, hdelivered, hkept, hends⟩ | ⟨sc, hscan, hafter⟩
  · -- Nothing was delivered.
    refine ⟨⟨fun hclean => absurd hclean hends, fun hsome => ?_⟩, fun path hpath => ?_⟩
    · rw [hnone] at hsome
      cases hsome
    · obtain ⟨-, hold | ⟨d, hd, -⟩, -⟩ := hpath
      · exact recoveryPaths_kept hkept (howed path hold)
      · rw [hdelivered] at hd
        cases hd
  · obtain ⟨hscanned, hplanned, hcases⟩ := @afterScan_ends snapshotIdOf disk a.faults a.args
      a.reading sc (inventory_snapshotId hscan)
    rw [← hafter] at hscanned hplanned hcases
    -- Whatever is delivered is captured or recorded.
    have hdelivers : ∀ path, (outcome snapshotIdOf disk a).delivers path →
        Scannable snapshotIdOf disk a path := by
      rintro path ⟨d, hd, hmem⟩
      exact scannable_of_planned hscan (hplanned hd) hmem
    rcases hcases with ⟨hclean, hworked⟩ | hstopped | ⟨hunsaved, hworked⟩ | ⟨hpreserved, hsame, hone⟩
    · refine ⟨⟨fun _ sc' hsc path hpath hgone hunder => ?_, fun _ hends => ?_⟩,
        fun path hpath => absurd hclean hpath.1⟩
      · rw [hscanned] at hsc
        cases hsc
        exact owed_deleted hscan hcov howed (Or.inl hclean) hworked hpath hgone hunder
      · rw [hclean] at hends
        simp at hends
    · have hstops : (outcome snapshotIdOf disk a).ending ≠ .clean := by
        rcases hstopped.ending with h | h <;> simp [show (outcome snapshotIdOf disk a).ending = _
          from h]
      obtain ⟨hdirty, hknown⟩ := stopped_keeps hscan hcov hstopped
      refine ⟨⟨fun hclean => absurd hclean hstops, fun _ _ => ⟨hdirty, fun path hpath =>
        hknown path (hcov.known path (hdelivers path hpath))⟩⟩, fun path hpath => ?_⟩
      rcases hpath.2.1 with hold | hnew
      · exact hknown path (Or.inr (howed path hold))
      · exact hknown path (hcov.known path (hdelivers path hnew))
    · have hstops : (outcome snapshotIdOf disk a).ending ≠ .clean := by
        rcases hunsaved.ending with h | h <;> simp [show (outcome snapshotIdOf disk a).ending = _
          from h]
      obtain ⟨hnone, hpresent⟩ := hcov.saved.resolve_left hunsaved.saveClean
      have hunder : ∀ path, ¬ UnderPreserved (preservedPrefixes a.args a.reading) path := by
        rintro path ⟨scope, hscope, -⟩
        rw [hnone] at hscope
        exact absurd hscope (Finset.notMem_empty _)
      have hfresh : ∀ path, (outcome snapshotIdOf disk a).delivers path →
          path ∈ recoveryPaths snapshotIdOf (after snapshotIdOf disk a) := fun path hpath =>
        hunsaved.recorded (Finmap.mem_keys.mpr ((mem_inventory hscan (hunder path)).mpr
          (hpresent path (hdelivers path hpath))))
      refine ⟨⟨fun hclean => absurd hclean hstops, fun _ _ => ⟨hunsaved.dirty, hfresh⟩⟩,
        fun path hpath => ?_⟩
      obtain ⟨-, hold | hnew, hkept⟩ := hpath
      · by_contra hlost
        have hgone : path ∉ sc.inventory.entries := fun hin =>
          hlost (hunsaved.recorded (Finmap.mem_keys.mpr hin))
        exact hkept (owed_deleted hscan hcov howed (Or.inr hunsaved.saveClean) hworked hold hgone
          (hunder path))
      · exact hfresh path hnew
    · refine ⟨⟨fun hclean => ?_, fun _ hends => ?_⟩, fun path hpath => ?_⟩
      · rw [hpreserved] at hclean
        cases hclean
      · rw [hpreserved] at hends
        simp at hends
      · have hnew := hcov.oneStore.resolve_left hone
        unfold after
        rw [hsame]
        rcases hpath.2.1 with hold | hdelivered
        · exact howed path hold
        · exact (hcov.known path (hdelivers path hdelivered)).elim (hnew path) id

/-- **Every sequence of runs that meet the condition recovers completely.** -/
theorem recovery_complete (snapshotIdOf : Entries → String) (disk : Disk)
    (attempts : List Attempt)
    (hcov : AlongOwed snapshotIdOf (RecoveryCovered snapshotIdOf) disk (fun _ => False) attempts) :
    AlongOwed snapshotIdOf (RecoveryComplete snapshotIdOf) disk (fun _ => False) attempts := by
  have hrun : ∀ (attempts : List Attempt) (disk : Disk) (owed : String → Prop),
      (∀ path, owed path → path ∈ recoveryPaths snapshotIdOf disk) →
      AlongOwed snapshotIdOf (RecoveryCovered snapshotIdOf) disk owed attempts →
        AlongOwed snapshotIdOf (RecoveryComplete snapshotIdOf) disk owed attempts := by
    intro attempts
    induction attempts with
    | nil => exact fun _ _ _ _ => trivial
    | cons a rest ih =>
      rintro disk owed howed ⟨hone, hrest⟩
      obtain ⟨hcomplete, hnext⟩ := owed_step hone howed
      exact ⟨hcomplete, ih _ _ hnext hrest⟩
  exact hrun attempts disk _ (fun _ h => h.elim) hcov

/-! ## A run that is killed, and one that fails -/

/-- The first scan, without `b.py`. -/
def smallScan : Attempt where
  args := {}
  reading := sampleReading [("a.py", "1")]

/-- `b.py` is added, and the analyzers end like this. -/
def addedRun (result : StepResult) : Attempt where
  args := {}
  reading := sampleReading [("a.py", "1"), ("b.py", "2")]
  faults := { analyzer := fun _ => result }

/-- The disks of the runs. -/
def smallDisk : Disk := after sampleSnapshotId {} smallScan

def addedDisk (result : StepResult) : Disk := after sampleSnapshotId smallDisk (addedRun result)

theorem smallScan_clean : (outcome sampleSnapshotId {} smallScan).ending = .clean := by
  decide +kernel

theorem killed_run :
    let run := outcome sampleSnapshotId smallDisk (addedRun (.aborted .killed))
    let last := outcome sampleSnapshotId (addedDisk (.aborted .killed)) smallScan
    run.ending = .crashed ∧ run.delivered.any (fun d => decide ("b.py" ∈ d.scan)) = true ∧
      run.delivered.all (fun d => decide (d.deleted = ∅)) = true ∧
      last.ending = .clean ∧ last.delivered = [] ∧
      last.scanned.any (fun sc => decide ("b.py" ∉ sc.inventory.entries)) = true ∧
      preservedPrefixes smallScan.args smallScan.reading = ∅ := by
  decide +kernel

/-- **A killed run is forgotten**: what it has delivered is not deleted when it is gone. -/
theorem killed_run_forgotten :
    ¬ ∀ (snapshotIdOf : Entries → String) (disk : Disk) (attempts : List Attempt),
      AlongOwed snapshotIdOf (RecoveryComplete snapshotIdOf) disk (fun _ => False) attempts := by
  intro h
  obtain ⟨-, -, hlast, -⟩ := h sampleSnapshotId {}
    [smallScan, addedRun (.aborted .killed), smallScan]
  change RecoveryComplete sampleSnapshotId (addedDisk (.aborted .killed))
    (owedAfter sampleSnapshotId smallDisk _ (addedRun (.aborted .killed))) smallScan at hlast
  obtain ⟨hcrashed, hscan, hdeleted, hclean, hnone, hscanned, hprefixes⟩ := killed_run
  obtain ⟨sc, hsc, hgone⟩ := (Option.any_eq_true _ _).mp hscanned
  obtain ⟨d, hd, hmem⟩ := List.any_eq_true.mp hscan
  have howed : owedAfter sampleSnapshotId smallDisk (owedAfter sampleSnapshotId {} (fun _ => False)
      smallScan) (addedRun (.aborted .killed)) "b.py" := by
    refine ⟨by simp [hcrashed], Or.inr ⟨d, hd, of_decide_eq_true hmem⟩, ?_⟩
    rintro ⟨d', hd', hdel⟩
    rw [of_decide_eq_true (List.all_eq_true.mp hdeleted d' hd')] at hdel
    exact Finset.notMem_empty _ hdel
  have hunder : ¬ UnderPreserved (preservedPrefixes smallScan.args smallScan.reading) "b.py" := by
    rw [hprefixes]
    rintro ⟨scope, hscope, -⟩
    exact Finset.notMem_empty _ hscope
  obtain ⟨d', hd', -⟩ := hlast.deletions hclean sc hsc "b.py" howed (of_decide_eq_true hgone) hunder
  rw [hnone] at hd'
  cases hd'

/-- Without Git, no commit reports a path. -/
theorem sampleReading_reports {disk : Disk} {a : Attempt} {hashes : List (String × String)}
    (h : a.reading = sampleReading hashes) : reportedChanges disk a = ∅ := by
  unfold reportedChanges collectCandidates scopes
  rw [h]
  rfl

/-- Every file of a sample is captured. -/
theorem sampleReading_known {disk : Disk} {a : Attempt} {hashes : List (String × String)}
    (h : a.reading = sampleReading hashes) {path : String}
    (hpath : Scannable sampleSnapshotId disk a path) : Present a.args a.reading path := by
  rcases hpath with hpath | hpath | hpath
  · refine ⟨hpath, ?_⟩
    have htree : path ∈ a.reading.tree :=
      (Finset.mem_filter.mp (Finset.mem_filter.mp (Finset.mem_sdiff.mp hpath).1).1).1
    rw [h] at htree ⊢
    obtain ⟨⟨path, sha⟩, hmem, rfl⟩ := List.mem_map.mp (List.mem_toFinset.mp htree)
    show ((hashes.lookup path).map _).isSome = true
    rw [Option.isSome_map, List.lookup_isSome_iff]
    exact ⟨(path, sha), hmem, by simp⟩
  · rw [h] at hpath
    exact absurd hpath (Finset.notMem_empty _)
  · rw [sampleReading_reports h, Finset.empty_inter] at hpath
    exact absurd hpath (Finset.notMem_empty _)

theorem failed_run :
    let run := outcome sampleSnapshotId smallDisk (addedRun .childFailed)
    (addedDisk .childFailed).state.dirty = true ∧
      run.delivered.all (fun d => decide (d.scan ⊆ {"b.py"})) = true ∧
      selectParserForPath smallScan.reading.sniffers "b.py" = some .python ∧
      ((scan sampleSnapshotId {} {} smallScan.reading).toOption.all fun sc =>
        (writeInventoryGeneration ∅ sc.inventory).isOk) = true ∧
      ((scan sampleSnapshotId {} smallDisk (addedRun .childFailed).reading).toOption.all fun sc =>
        (writeInventoryGeneration smallDisk.cache sc.inventory).isOk) = true ∧
      ((scan sampleSnapshotId {} (addedDisk .childFailed) smallScan.reading).toOption.all fun sc =>
        (writeInventoryGeneration (addedDisk .childFailed).cache sc.inventory).isOk) = true := by
  decide +kernel

theorem sample_covered {disk : Disk} {owed : String → Prop} {a : Attempt}
    {hashes : List (String × String)} (h : a.reading = sampleReading hashes)
    (hboth : a.args.syncMode = .both) (hhandled : Handled a.faults)
    (hwritten : a.faults.writeDirty = .written) (hsaved : a.faults.saveClean = none)
    (hrecords : ((scan sampleSnapshotId a.args disk a.reading).toOption.all fun sc =>
      (writeInventoryGeneration disk.cache sc.inventory).isOk) = true)
    (hgone : ∀ path, owed path → Routed a path ∧ disk.state.dirty = true) :
    RecoveryCovered sampleSnapshotId disk owed a where
  known path hpath := Or.inl (Or.inl (sampleReading_known h hpath))
  failure := by
    refine Or.inr ⟨hhandled, Or.inr fun sc hsc => ⟨hwritten, ?_⟩⟩
    rw [hsc] at hrecords
    exact hrecords
  oneStore := Or.inl hboth
  gone _ path hpath _ _ := ⟨(hgone path hpath).1, Or.inl (hgone path hpath).2⟩
  saved := Or.inl hsaved

theorem failed_run_recovered :
    AlongOwed sampleSnapshotId (RecoveryComplete sampleSnapshotId) {} (fun _ => False)
      [smallScan, addedRun .childFailed, smallScan] := by
  obtain ⟨hdirty, hdelivered, hparser, hfirst, hsecond, hthird⟩ := failed_run
  have hhandled : ∀ result, (∀ how, result ≠ .aborted how) →
      Handled { analyzer := fun _ => result } := by
    intro result hresult
    constructor <;> simp [hresult]
  refine recovery_complete sampleSnapshotId {} _ ⟨?_, ?_, ?_, trivial⟩
  · exact sample_covered rfl rfl (hhandled .done (by simp)) rfl rfl hfirst fun _ h => h.elim
  · exact sample_covered rfl rfl (hhandled .childFailed (by simp)) rfl rfl hsecond fun _ h =>
      absurd smallScan_clean h.1
  · refine sample_covered rfl rfl (hhandled .done (by simp)) rfl rfl hthird fun path hpath => ?_
    -- What is owed is what the second run has delivered.
    obtain ⟨-, hold | ⟨d, hd, hmem⟩, -⟩ := hpath
    · exact absurd smallScan_clean hold.1
    · have hb := of_decide_eq_true (List.all_eq_true.mp hdelivered d hd) hmem
      rw [Finset.mem_singleton.mp hb]
      exact ⟨Or.inl ⟨.python, rfl, hparser⟩, hdirty⟩

end CortexHarness.Sync
