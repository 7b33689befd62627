import CortexHarness.Sync.Changes

/-!
# Delivered work

A clean run advances the inventory as a whole, also for the paths whose analyzer it has not started.

* `Advanced` says that a run records new content for a path of the walk;
* `BaselineDelivered` says of one run that the analyzer of every such path was started with it;
* `AdvancesCovered` is the condition: the analyzer is selected, and a committed run is told of the
  path.

Results:
* `parserDelivery_iff`: which paths an analyzer of a run is started with;
* `baseline_delivered_run`: a clean run delivers what it records exactly under the condition;
* **`baseline_delivered_iff`**: so does a sequence of runs;
* **`unselected_change_recorded`**: a run for Java records a Python file.
-/

namespace CortexHarness.Sync

open Tabulate

variable (snapshotIdOf : Entries → String)

/-- **The baseline covers only delivered work**: if the run ends by `mark_clean`, the analyzer that
owns a path of the new inventory with another hash than in the recorded one was started with it. -/
def BaselineDelivered (disk : Disk) (a : Attempt) : Prop :=
  (outcome snapshotIdOf disk a).ending = .clean →
    ∀ sc, (outcome snapshotIdOf disk a).scanned = some sc →
      ∀ path e p, sc.inventory.entries.lookup path = some e →
        recordedSha snapshotIdOf disk path ≠ some e.sha256 →
        selectParserForPath a.reading.sniffers path = some p →
          ∃ d ∈ (outcome snapshotIdOf disk a).delivered,
            (d.analyzer = .primary p ∨ d.analyzer = .embedding p) ∧ path ∈ d.scan

/-! ## The condition -/

/-- The paths that the run hashes whatever their size and modification time. -/
def forcedPaths (disk : Disk) (a : Attempt) : Finset String :=
  let full := needsFullScan snapshotIdOf a.args disk a.reading
  match effectiveDetection a.args a.reading with
  | .error _ => ∅
  | .ok detection =>
    match collectCandidates a.args disk a.reading full detection with
    | .ok candidates => forceHashPaths snapshotIdOf a.args disk a.reading full detection candidates
    | .error _ => ∅

/-- A file of the walk whose fingerprint has another hash than the recorded one. -/
def Advanced (disk : Disk) (a : Attempt) (path : String) : Prop :=
  Present a.args a.reading path ∧ ∃ file e, a.reading.files path = some file ∧
    fingerprint file ((entriesOf (previousInventory snapshotIdOf disk)).lookup path)
      (decide (path ∈ forcedPaths snapshotIdOf disk a)) = .ok e ∧
    recordedSha snapshotIdOf disk path ≠ some e.sha256

/-- A committed run is told of a path by the commits, or by the impact query about the others. -/
def Told (disk : Disk) (a : Attempt) (path : String) : Prop :=
  path ∈ reportedChanges disk a ∨
    a.args.graphReady = true ∧ path ∈ a.reading.impacted ∧
      reportedChanges disk a ∩ eligiblePaths snapshotIdOf a.args disk a.reading ≠ ∅

/-- For every path that is recorded anew, its analyzer is selected, and a committed run that neither
recovers nor scans everything is told of the path. -/
def AdvancesCovered (disk : Disk) (a : Attempt) : Prop :=
  (outcome snapshotIdOf disk a).ending = .clean →
    ∀ path p, Advanced snapshotIdOf disk a path →
      selectParserForPath a.reading.sniffers path = some p →
        selected a.args.parsers (.parser p) = true ∧
          (disk.state.dirty = false → needsFullScan snapshotIdOf a.args disk a.reading = false →
            effectiveDetection a.args a.reading = .ok .committed → Told snapshotIdOf disk a path)

variable {snapshotIdOf} {disk : Disk} {a : Attempt} {sc : Scan} {path : String}

theorem advanced_iff (hscan : scan snapshotIdOf a.args disk a.reading = .ok sc) :
    Advanced snapshotIdOf disk a path ↔ ∃ e, sc.inventory.entries.lookup path = some e ∧
      recordedSha snapshotIdOf disk path ≠ some e.sha256 := by
  obtain ⟨-, candidates, -, -, hcandidates, -, hfull, -, hdetection, -, hforced, -⟩ := scan_ok hscan
  have hforced : forcedPaths snapshotIdOf disk a = sc.forced := by
    unfold forcedPaths
    simp only [hdetection, ← hfull, hcandidates, hforced]
  unfold Advanced
  rw [hforced]
  constructor
  · rintro ⟨hin, file, e, hfile, hprint, hne⟩
    have hpath := mem_sourcePaths hin.1
    obtain ⟨e', he'⟩ := Finmap.mem_iff.mp ((mem_inventory hscan hpath).mpr hin)
    obtain ⟨-, file', hfile', hprint'⟩ := inventory_entry hscan hpath he'
    rw [hfile] at hfile'
    cases hfile'
    rw [hprint] at hprint'
    cases hprint'
    exact ⟨e, he', hne⟩
  · rintro ⟨e, he, hne⟩
    obtain ⟨hpath, hin⟩ := present_of_differs hscan he hne
    obtain ⟨-, file, hfile, hprint⟩ := inventory_entry hscan hpath he
    exact ⟨hin, file, e, hfile, hprint, hne⟩

/-! ## The manifests of an analyzer -/

/-- In a run for graph and vectors, an analyzer is started with a path exactly if it is selected, it
owns the path, and the path is changed or impacted. -/
theorem parserDelivery_iff (hboth : a.args.syncMode = .both) {p : Parser}
    (hp : selectParserForPath a.reading.sniffers path = some p) :
    (∃ d ∈ planned a.args a.reading sc,
        (d.analyzer = .primary p ∨ d.analyzer = .embedding p) ∧ path ∈ d.scan) ↔
      selected a.args.parsers (.parser p) = true ∧
        path ∈ (workOf a.args a.reading sc).changed ∪ (workOf a.args a.reading sc).impacted := by
  constructor
  · rintro ⟨d, hd, hrole, hpath⟩
    exact ⟨(planned_owned hd hrole).1, (mem_planned hd).1 hpath⟩
  · rintro ⟨hsel, hpath⟩
    obtain ⟨d, hd, hrole, hscan, -⟩ := exists_planned hboth hsel hp (Or.inl hpath)
    exact ⟨d, hd, hrole, hscan ▸ mem_ownedBy.mpr ⟨hpath, hp⟩⟩

theorem worked_iff (hscan : scan snapshotIdOf a.args disk a.reading = .ok sc)
    (h : Advanced snapshotIdOf disk a path) :
    (¬ sc.Quiet ∧
        path ∈ (workOf a.args a.reading sc).changed ∪ (workOf a.args a.reading sc).impacted) ↔
      (disk.state.dirty = false → needsFullScan snapshotIdOf a.args disk a.reading = false →
        effectiveDetection a.args a.reading = .ok .committed → Told snapshotIdOf disk a path) := by
  obtain ⟨e, he, hne⟩ := (advanced_iff hscan).mp h
  obtain ⟨-, -, -, -, -, -, hfull, hrecovery, hdetection, hsource, -⟩ := scan_ok hscan
  have hin : path ∈ sc.sourcePaths := hsource ▸ h.1.1
  have hchanged : path ∈ sc.changed → ¬ sc.Quiet ∧
      path ∈ (workOf a.args a.reading sc).changed ∪ (workOf a.args a.reading sc).impacted :=
    fun hmem => ⟨fun hquiet => Finset.notMem_empty path (hquiet.1 ▸ hmem),
      Finset.mem_union_left _ hmem⟩
  rw [← hfull, hdetection]
  cases hdirty : disk.state.dirty with
  | true =>
    obtain ⟨-, -, hall, -⟩ := paths_dirty hscan hdirty
    exact iff_of_true (hchanged (hall ▸ hin)) (fun h => by cases h)
  | false =>
    cases hf : sc.full with
    | true =>
      exact iff_of_true (hchanged ((paths_full hscan hdirty hf).1 ▸ hin)) (fun _ h => by cases h)
    | false =>
      by_cases hcommitted : sc.detection = .committed
      · obtain ⟨all, hall, hpaths, -⟩ := paths_committed hscan hdirty hf hcommitted
        have hreported : reportedChanges disk a = all.committed := by
          unfold reportedChanges
          rw [hall]
        have heligible : path ∈ eligiblePaths snapshotIdOf a.args disk a.reading :=
          Finset.mem_union_left _ h.1.1
        have himpacted : (workOf a.args a.reading sc).impacted =
            if a.args.graphReady = true ∧ sc.changed ≠ ∅ then a.reading.impacted else ∅ := by
          simp [workOf, hf, hrecovery, hdirty]
        simp only [hcommitted, Told, hreported, forall_const, ← hpaths]
        constructor
        · rintro ⟨-, hmem⟩
          rcases Finset.mem_union.mp hmem with hmem | hmem
          · exact Or.inl (Finset.mem_inter.mp (hpaths ▸ show path ∈ sc.changed from hmem)).1
          · rw [himpacted] at hmem
            split at hmem
            · rename_i hasked
              exact Or.inr ⟨hasked.1, hmem, hasked.2⟩
            · exact absurd hmem (Finset.notMem_empty _)
        · rintro (hmem | ⟨hready, hmem, hsome⟩)
          · exact hchanged (hpaths ▸ Finset.mem_inter.mpr ⟨hmem, heligible⟩)
          · refine ⟨fun hquiet => hsome hquiet.1, Finset.mem_union_right _ ?_⟩
            rw [himpacted, if_pos ⟨hready, hsome⟩]
            exact hmem
      · have hdiff : sc.changed = changedKeys InventoryEntry.sha256
            (entriesOf (previousInventory snapshotIdOf disk)) sc.inventory.entries :=
          congrArg Prod.fst (paths_diff hscan hdirty hf hcommitted)
        refine iff_of_true (hchanged ?_) fun _ _ h => absurd (Except.ok.inj h) hcommitted
        rw [hdiff]
        exact mem_changedKeys.mpr ⟨e, he, hne⟩

/-- **A clean run delivers what it records exactly under the condition.** -/
theorem baseline_delivered_run :
    BaselineDelivered snapshotIdOf disk a ↔ AdvancesCovered snapshotIdOf disk a := by
  unfold BaselineDelivered AdvancesCovered
  refine imp_congr_right fun hclean => ?_
  obtain ⟨sc, -, -, hscan, hscanned, -, -, hdelivered⟩ := outcome_clean hclean
  have hone : ∀ path p, Advanced snapshotIdOf disk a path →
      selectParserForPath a.reading.sniffers path = some p →
      ((∃ d ∈ (outcome snapshotIdOf disk a).delivered,
          (d.analyzer = .primary p ∨ d.analyzer = .embedding p) ∧ path ∈ d.scan) ↔
        selected a.args.parsers (.parser p) = true ∧
          (disk.state.dirty = false → needsFullScan snapshotIdOf a.args disk a.reading = false →
            effectiveDetection a.args a.reading = .ok .committed →
              Told snapshotIdOf disk a path)) := by
    intro path p hadv hp
    rw [← worked_iff hscan hadv]
    rcases hdelivered with ⟨hquiet, hnone⟩ | ⟨hquiet, hboth, hplanned⟩
    · rw [hnone]
      simp [hquiet]
    · rw [hplanned, parserDelivery_iff hboth hp]
      simp [hquiet]
  constructor
  · intro h path p hadv hp
    obtain ⟨e, he, hne⟩ := (advanced_iff hscan).mp hadv
    exact (hone path p hadv hp).mp (h sc hscanned path e p he hne hp)
  · intro h sc' hsc path e p he hne hp
    rw [hscanned] at hsc
    cases hsc
    have hadv := (advanced_iff hscan).mpr ⟨e, he, hne⟩
    exact (hone path p hadv hp).mpr (h path p hadv hp)

/-- **A sequence of runs delivers what it records exactly if each of its clean runs selects the
analyzer of every path that it records anew, and is told of the path if it only reads the
commits.** -/
theorem baseline_delivered_iff (snapshotIdOf : Entries → String) (disk : Disk)
    (attempts : List Attempt) :
    Along snapshotIdOf (BaselineDelivered snapshotIdOf) disk attempts ↔
      Along snapshotIdOf (AdvancesCovered snapshotIdOf) disk attempts :=
  along_congr (fun _ _ => baseline_delivered_run) disk attempts

/-! ## A run for some parsers -/

/-- A run for Java after `a.py` is edited. -/
def javaRun : Attempt where
  args := { parsers := some [.parser .java] }
  reading := sampleReading [("a.py", "22")]

theorem javaRun_run :
    let disk := after sampleSnapshotId {} { args := {}, reading := sampleReading [("a.py", "1")] }
    let run := outcome sampleSnapshotId disk javaRun
    run.ending = .clean ∧ run.delivered = [] ∧
      recordedSha sampleSnapshotId disk "a.py" = some "1" ∧
      selectParserForPath javaRun.reading.sniffers "a.py" = some .python ∧
      run.scanned.any (fun sc =>
        sc.inventory.entries.lookup "a.py" == some ⟨2, 1, "22", "."⟩) = true := by
  decide +kernel

/-- **A run for Java records a Python file that no analyzer was started with.** -/
theorem unselected_change_recorded :
    ¬ ∀ (snapshotIdOf : Entries → String) (disk : Disk) (attempts : List Attempt),
      Along snapshotIdOf (BaselineDelivered snapshotIdOf) disk attempts := by
  intro h
  obtain ⟨-, hdelivered, -⟩ := h sampleSnapshotId {}
    [{ args := {}, reading := sampleReading [("a.py", "1")] }, javaRun]
  obtain ⟨hclean, hnone, hrecorded, hparser, hscanned⟩ := javaRun_run
  obtain ⟨sc, hsc, hentry⟩ := (Option.any_eq_true _ _).mp hscanned
  obtain ⟨d, hd, -⟩ := hdelivered hclean sc hsc "a.py" _ .python (beq_iff_eq.mp hentry)
    (by rw [hrecorded]; decide) hparser
  rw [hnone] at hd
  cases hd

end CortexHarness.Sync
