import CortexHarness.Sync.Run

/-!
# Deleted files

A clean run replaces the recorded inventory; a path that drops out of it and is not among the
deleted paths of the run stays in the graph, and no later run can find it.

* `DeletionsKept` says of one run that no deletion is lost;
* `DeletionsCovered` is the condition: a recovery, a comparison of inventories, or nothing gone that
  the commits do not report.

Results:
* `deletions_kept_run`: a clean run loses no deletion exactly under the condition;
* **`deletions_kept_iff`**: so does a sequence of runs;
* **`full_scan_forgets`**: a full scan after a file is gone.
-/

namespace CortexHarness.Sync

open Tabulate

variable (snapshotIdOf : Entries → String)

/-- A recorded path that is gone: no file of the walk, and under no preserved prefix. -/
def Gone (disk : Disk) (a : Attempt) (path : String) : Prop :=
  path ∈ entriesOf (previousInventory snapshotIdOf disk) ∧ ¬ Present a.args a.reading path ∧
    ¬ UnderPreserved (preservedPrefixes a.args a.reading) path

/-- **No deletion is lost**: if the run ends by `mark_clean`, every path of the recorded inventory
that the new one lacks, and that is under no preserved prefix, is among its deleted paths. -/
def DeletionsKept (disk : Disk) (a : Attempt) : Prop :=
  (outcome snapshotIdOf disk a).ending = .clean →
    ∀ sc, (outcome snapshotIdOf disk a).scanned = some sc →
      ∀ path ∈ entriesOf (previousInventory snapshotIdOf disk), path ∉ sc.inventory.entries →
        ¬ UnderPreserved (preservedPrefixes a.args a.reading) path → path ∈ sc.deleted

/-- The paths that the commits since the recorded ones delete. -/
def reportedDeletions (disk : Disk) (a : Attempt) : Finset String :=
  match collectCandidates a.args disk a.reading false .committed with
  | .ok candidates => candidates.committedDeleted
  | .error _ => ∅

/-- The run recovers a dirty state, or compares inventories, or nothing is gone but what the commits
report. -/
def DeletionsCovered (disk : Disk) (a : Attempt) : Prop :=
  (outcome snapshotIdOf disk a).ending = .clean →
    disk.state.dirty = true ∨
    (needsFullScan snapshotIdOf a.args disk a.reading = false ∧
      effectiveDetection a.args a.reading ≠ .ok .committed) ∨
    ∀ path, Gone snapshotIdOf disk a path →
      needsFullScan snapshotIdOf a.args disk a.reading = false ∧ path ∈ reportedDeletions disk a

variable {snapshotIdOf} {disk : Disk} {a : Attempt}

theorem gone_iff {sc : Scan} (h : scan snapshotIdOf a.args disk a.reading = .ok sc)
    {path : String} : Gone snapshotIdOf disk a path ↔
      path ∈ entriesOf (previousInventory snapshotIdOf disk) ∧ path ∉ sc.inventory.entries ∧
        ¬ UnderPreserved (preservedPrefixes a.args a.reading) path := by
  unfold Gone
  constructor
  · rintro ⟨hold, hgone, hpath⟩
    exact ⟨hold, fun hin => hgone ((mem_inventory h hpath).mp hin), hpath⟩
  · rintro ⟨hold, hgone, hpath⟩
    exact ⟨hold, fun hin => hgone ((mem_inventory h hpath).mpr hin), hpath⟩

/-- **A clean run loses no deletion exactly under the condition.** -/
theorem deletions_kept_run :
    DeletionsKept snapshotIdOf disk a ↔ DeletionsCovered snapshotIdOf disk a := by
  unfold DeletionsKept DeletionsCovered
  refine imp_congr_right fun hclean => ?_
  obtain ⟨sc, -, -, hscan, hscanned, -⟩ := outcome_clean hclean
  obtain ⟨-, -, -, -, -, -, hfull, -, hdetection, -⟩ := scan_ok hscan
  have hone : (∀ sc', (outcome snapshotIdOf disk a).scanned = some sc' →
      ∀ path ∈ entriesOf (previousInventory snapshotIdOf disk), path ∉ sc'.inventory.entries →
        ¬ UnderPreserved (preservedPrefixes a.args a.reading) path → path ∈ sc'.deleted) ↔
      ∀ path, Gone snapshotIdOf disk a path → path ∈ sc.deleted := by
    rw [hscanned]
    constructor
    · intro h path hgone
      obtain ⟨hold, hnew, hpath⟩ := (gone_iff hscan).mp hgone
      exact h sc rfl path hold hnew hpath
    · rintro h _ ⟨⟩ path hold hnew hpath
      exact h path ((gone_iff hscan).mpr ⟨hold, hnew, hpath⟩)
  have hremoved : ∀ path, Gone snapshotIdOf disk a path →
      path ∈ removedKeys (entriesOf (previousInventory snapshotIdOf disk)) sc.inventory.entries :=
    fun path hgone =>
      mem_removedKeys.mpr ⟨((gone_iff hscan).mp hgone).1, ((gone_iff hscan).mp hgone).2.1⟩
  rw [hone, ← hfull, hdetection]
  cases hdirty : disk.state.dirty with
  | true =>
    -- A recovery.
    obtain ⟨recovered, -, -, hdeleted⟩ := paths_dirty hscan hdirty
    refine iff_of_true (fun path hgone => ?_) (Or.inl rfl)
    rw [hdeleted]
    exact Finset.mem_union_left _ (hremoved path hgone)
  | false =>
    cases hf : sc.full with
    | true =>
      -- A full scan deletes nothing.
      simp [(paths_full hscan hdirty hf).2]
    | false =>
      by_cases hcommitted : sc.detection = .committed
      · -- A committed run deletes what the commits report.
        obtain ⟨candidates, hcandidates, -, hdeleted⟩ := paths_committed hscan hdirty hf hcommitted
        have hreported : reportedDeletions disk a = candidates.committedDeleted := by
          unfold reportedDeletions
          rw [hcandidates]
        simp only [Bool.false_eq_true, false_or, hcommitted, ne_eq, not_true_eq_false, and_false,
          true_and, hreported, hdeleted, Finset.mem_inter]
        refine forall_congr' fun path => imp_congr_right fun hgone => ?_
        refine and_iff_left (Finset.mem_union_right _ ?_)
        exact Finmap.mem_keys.mpr ((gone_iff hscan).mp hgone).1
      · -- The others delete what the new inventory lacks.
        have hdiff : sc.deleted = removedKeys (entriesOf (previousInventory snapshotIdOf disk))
            sc.inventory.entries := congrArg Prod.snd (paths_diff hscan hdirty hf hcommitted)
        refine iff_of_true (fun path hgone => ?_) (Or.inr (Or.inl ⟨rfl, ?_⟩))
        · rw [hdiff]
          exact hremoved path hgone
        · exact fun h => hcommitted (Except.ok.inj h)

/-- **A sequence of runs loses no deletion exactly if each of its clean runs is a recovery, compares
inventories, or finds nothing gone but what the commits report.** -/
theorem deletions_kept_iff (snapshotIdOf : Entries → String) (disk : Disk)
    (attempts : List Attempt) :
    Along snapshotIdOf (DeletionsKept snapshotIdOf) disk attempts ↔
      Along snapshotIdOf (DeletionsCovered snapshotIdOf) disk attempts :=
  along_congr (fun _ _ => deletions_kept_run) disk attempts

/-! ## A full scan -/

/-- The first scan. -/
def firstScan : Attempt where
  args := {}
  reading := sampleReading [("a.py", "1"), ("b.py", "2")]

/-- A full scan after `b.py` is gone. -/
def laterFullScan : Attempt where
  args := { fullScan := true }
  reading := sampleReading [("a.py", "1")]

theorem laterFullScan_run :
    let disk := after sampleSnapshotId {} firstScan
    let run := outcome sampleSnapshotId disk laterFullScan
    run.ending = .clean ∧ "b.py" ∈ entriesOf (previousInventory sampleSnapshotId disk) ∧
      ¬ UnderPreserved (preservedPrefixes laterFullScan.args laterFullScan.reading) "b.py" ∧
      ∃ sc, run.scanned = some sc ∧ "b.py" ∉ sc.inventory.entries ∧ "b.py" ∉ sc.deleted := by
  have h : (outcome sampleSnapshotId (after sampleSnapshotId {} firstScan)
      laterFullScan).ending = .clean ∧
      "b.py" ∈ entriesOf (previousInventory sampleSnapshotId
        (after sampleSnapshotId {} firstScan)) ∧
      ¬ UnderPreserved (preservedPrefixes laterFullScan.args laterFullScan.reading) "b.py" ∧
      ((outcome sampleSnapshotId (after sampleSnapshotId {} firstScan) laterFullScan).scanned.any
        fun sc => decide ("b.py" ∉ sc.inventory.entries ∧ "b.py" ∉ sc.deleted)) = true := by
    decide +kernel
  obtain ⟨hclean, hold, hpath, hnew⟩ := h
  obtain ⟨sc, hsc, hlost⟩ := (Option.any_eq_true _ _).mp hnew
  exact ⟨hclean, hold, hpath, sc, hsc, of_decide_eq_true hlost⟩

/-- **A full scan forgets a file that is gone.** -/
theorem full_scan_forgets :
    ¬ ∀ (snapshotIdOf : Entries → String) (disk : Disk) (attempts : List Attempt),
      Along snapshotIdOf (DeletionsKept snapshotIdOf) disk attempts := by
  intro h
  obtain ⟨-, hkept, -⟩ := h sampleSnapshotId {} [firstScan, laterFullScan]
  obtain ⟨hclean, hold, hpath, sc, hsc, hnew, hdeleted⟩ := laterFullScan_run
  exact hdeleted (hkept hclean sc hsc "b.py" hold hnew hpath)

end CortexHarness.Sync
