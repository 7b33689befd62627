import CortexHarness.Sync.Run

/-!
# Changed files

Every clean run records an inventory of contents, but a committed run takes its work from the
commits. What a hybrid run has recorded of an uncommitted file is no commit, so that a committed run
after the file is reverted records other content without working on it.

* `StatFaithful` and `GitReports` are what is relied on: size and modification time tell contents
  apart, and Git reports its differences;
* `ChangesKept` says of one run that no change is lost;
* `InventoryCommitted` compares the recorded inventory with the commits.

Results:
* `changes_kept_run`: a clean run loses no change exactly under the condition;
* **`changes_kept_iff`**: so does a sequence of runs;
* **`reverted_change_lost`**: a reverted file.
-/

namespace CortexHarness.Sync

open Tabulate Fallible

variable (snapshotIdOf : Entries → String)

/-- The recorded hash of a path. -/
def recordedSha (disk : Disk) (path : String) : Option String :=
  ((entriesOf (previousInventory snapshotIdOf disk)).lookup path).map (·.sha256)

/-- **No change is lost**: if the run ends by `mark_clean`, every path of the new inventory with
another hash than in the recorded one is among its changed paths. -/
def ChangesKept (disk : Disk) (a : Attempt) : Prop :=
  (outcome snapshotIdOf disk a).ending = .clean →
    ∀ sc, (outcome snapshotIdOf disk a).scanned = some sc →
      ∀ path e, sc.inventory.entries.lookup path = some e →
        recordedSha snapshotIdOf disk path ≠ some e.sha256 → path ∈ sc.changed

/-! ## What is relied on -/

/-- A file with the size and the modification time that are recorded has the recorded content. -/
def StatFaithful (disk : Disk) (a : Attempt) : Prop :=
  ∀ path e file, (entriesOf (previousInventory snapshotIdOf disk)).lookup path = some e →
    a.reading.files path = some file → e.size = file.before.size →
      e.mtimeNs = file.before.mtimeNs → e.sha256 = file.sha256

/-- The hash of a file in a commit of a repository. -/
abbrev Commits := (repository sha path : String) → Option String

/-- **Git reports its differences.** -/
structure GitReports (commits : Commits) (a : Attempt) : Prop where
  /-- a repository tracks nothing inside its submodules -/
  inside : ∀ scope ∈ scopes a.args a.reading, ∀ path ∈ scope.tracked, path ≠ "" ∧
    (scope.sourcePrefix = "." → ∀ other ∈ scopes a.args a.reading, other.sourcePrefix ≠ "." →
      startsWith path (directoryOf other.sourcePrefix) = false)
  /-- a tracked file with other content than in `HEAD` is an entry of the working tree -/
  worktree : ∀ scope ∈ scopes a.args a.reading, ∀ path ∈ scope.tracked, ∀ file,
    a.reading.files (scopePath scope path) = some file →
      commits scope.sourcePrefix (currentSha a.reading scope) path = some file.sha256 ∨
        ∃ e ∈ scope.worktree, e.newPath = some path
  /-- a tracked file with other content in `HEAD` than in another commit is in their diff -/
  diff : ∀ scope ∈ scopes a.args a.reading, ∀ sha entries, scope.diff sha = some entries →
    ∀ path ∈ scope.tracked,
      commits scope.sourcePrefix (currentSha a.reading scope) path =
        commits scope.sourcePrefix sha path ∨ ∃ e ∈ entries, e.changed = some path

/-! ## The condition -/

/-- The paths that the commits since the recorded ones change. -/
def reportedChanges (disk : Disk) (a : Attempt) : Finset String :=
  match collectCandidates a.args disk a.reading false .committed with
  | .ok candidates => candidates.committed
  | .error _ => ∅

/-- The commit that a repository was recorded at, `HEAD` if it was not. -/
def recordedCommit (disk : Disk) (a : Attempt) (scope : RepositoryReading) : String :=
  if priorSha a.args disk scope = "" then currentSha a.reading scope else priorSha a.args disk scope

/-- For every file that the commits do not report, the recorded hash is that of the recorded commit,
or that of the file if it is in no repository. -/
def InventoryCommitted (commits : Commits) (disk : Disk) (a : Attempt) : Prop :=
  ∀ path file, Present a.args a.reading path → a.reading.files path = some file →
    path ∉ reportedChanges disk a →
      (∀ scope ∈ scopes a.args a.reading, ∀ rel ∈ scope.tracked, scopePath scope rel = path →
        recordedSha snapshotIdOf disk path =
          commits scope.sourcePrefix (recordedCommit disk a scope) rel) ∧
      ((∀ scope ∈ scopes a.args a.reading, ∀ rel ∈ scope.tracked, scopePath scope rel ≠ path) →
        recordedSha snapshotIdOf disk path = some file.sha256)

/-- The run recovers a dirty state, is a full scan or compares inventories, or the recorded inventory
is that of the recorded commits. -/
def ChangesCovered (commits : Commits) (disk : Disk) (a : Attempt) : Prop :=
  (outcome snapshotIdOf disk a).ending = .clean →
    disk.state.dirty = true ∨ needsFullScan snapshotIdOf a.args disk a.reading = true ∨
      effectiveDetection a.args a.reading ≠ .ok .committed ∨
        InventoryCommitted snapshotIdOf commits disk a

variable {snapshotIdOf} {commits : Commits} {disk : Disk} {a : Attempt} {sc : Scan}

/-! ## A committed run -/

theorem inventory_sha (hscan : scan snapshotIdOf a.args disk a.reading = .ok sc)
    (hstat : StatFaithful snapshotIdOf disk a) {path : String} {file : FileReading}
    (hfile : a.reading.files path = some file)
    (hpath : ¬ UnderPreserved (preservedPrefixes a.args a.reading) path) {e : InventoryEntry}
    (he : sc.inventory.entries.lookup path = some e) : e.sha256 = file.sha256 := by
  obtain ⟨-, file', hfile', hprint⟩ := inventory_entry hscan hpath he
  rw [hfile] at hfile'
  cases hfile'
  unfold fingerprint at hprint
  split at hprint
  · rename_i prior htrusted
    cases hprint
    obtain ⟨hrecorded, hcond⟩ := Option.filter_eq_some_iff.mp htrusted
    simp only [Bool.and_eq_true, beq_iff_eq] at hcond
    exact hstat path e file hrecorded hfile hcond.1.2 hcond.2
  · split at hprint
    · cases hprint
      rfl
    · cases hprint

theorem collectCandidates_committed {all : Candidates}
    (h : collectCandidates a.args disk a.reading false .committed = .ok all)
    {scope : RepositoryReading} (hs : scope ∈ scopes a.args a.reading) :
    workEntries a.args a.reading scope = [] ∧ (priorSha a.args disk scope ≠ "" →
      ∃ entries, scope.diff (priorSha a.args disk scope) = some entries ∧
        mapped scope DiffEntry.changed entries ⊆ all.committed) := by
  unfold collectCandidates at h
  obtain ⟨results, hresults, h⟩ := bind_ok.mp h
  cases h
  obtain ⟨c, hc, hscope⟩ := mapM_item hresults scope hs
  obtain ⟨commits, hcommits, hscope⟩ := bind_ok.mp hscope
  dsimp only at hscope
  split at hscope
  · cases hscope
  · rename_i hwork
    refine ⟨not_not.mp fun hne => hwork ⟨rfl, hne⟩, fun hprior => ?_⟩
    cases hscope
    unfold committedCandidates at hcommits
    have hasked : ¬ (false || Detection.committed == .hash || priorSha a.args disk scope == "") =
        true := by simpa using hprior
    rw [if_neg hasked] at hcommits
    split at hcommits
    · rename_i entries hentries
      refine ⟨entries, hentries, fun path hpath => mem_committed_foldl.mpr (Or.inr ⟨c, hc, ?_⟩)⟩
      cases hcommits
      exact hpath
    · simp at hcommits

/-- In a committed run every tracked file that is not reported has the content of the recorded
commit. -/
theorem tracked_sha (hgit : GitReports commits a) {all : Candidates}
    (hall : collectCandidates a.args disk a.reading false .committed = .ok all)
    {scope : RepositoryReading} (hs : scope ∈ scopes a.args a.reading) {path : String}
    (htracked : path ∈ scope.tracked) {file : FileReading}
    (hfile : a.reading.files (scopePath scope path) = some file)
    (hcandidate : isSourceCandidate a.args a.reading (scopePath scope path) = true)
    (hreported : scopePath scope path ∉ all.committed) :
    commits scope.sourcePrefix (recordedCommit disk a scope) path = some file.sha256 := by
  obtain ⟨hclean, hdiff⟩ := collectCandidates_committed hall hs
  obtain ⟨hne, hinside⟩ := hgit.inside scope hs path htracked
  have hhead : commits scope.sourcePrefix (currentSha a.reading scope) path =
      some file.sha256 := by
    refine (hgit.worktree scope hs path htracked file hfile).resolve_right ?_
    rintro ⟨e, he, hname⟩
    -- The entry would count, and a committed run raises on it.
    refine List.filter_eq_nil_iff.mp hclean e he ?_
    have hnested : (scope.sourcePrefix == "." && a.args.recursiveSubmodules &&
        (((scopes a.args a.reading).map (·.sourcePrefix)).filter (· != ".")).any fun other =>
          startsWith path (directoryOf other)) = false := by
      by_cases hroot : scope.sourcePrefix = "."
      · have hany : ((((scopes a.args a.reading).map (·.sourcePrefix)).filter (· != ".")).any
            fun other => startsWith path (directoryOf other)) = false := by
          refine List.any_eq_false.mpr fun other hother => ?_
          obtain ⟨hmem, hother⟩ := List.mem_filter.mp hother
          obtain ⟨nested, hnested, rfl⟩ := List.mem_map.mp hmem
          rw [hinside hroot nested hnested (by simpa using hother)]
          exact Bool.false_ne_true
        rw [hany, Bool.and_false]
      · rw [beq_false_of_ne hroot, Bool.false_and, Bool.false_and]
    have hnamed : (some path).filter (· != "") = some path :=
      Option.filter_some_pos (by simpa using hne)
    rw [hname, hnamed]
    show (isSourceCandidate a.args a.reading (scopePath scope path) && !_) = true
    rw [hcandidate, hnested]
    rfl
  unfold recordedCommit
  split
  · exact hhead
  · rename_i hprior
    obtain ⟨entries, hentries, hmapped⟩ := hdiff hprior
    rcases hgit.diff scope hs _ entries hentries path htracked with heq | ⟨e, he, hchanged⟩
    · rw [← heq, hhead]
    · refine absurd (hmapped ?_) hreported
      exact List.mem_toFinset.mpr (List.mem_map_of_mem (List.mem_filterMap.mpr ⟨e, he, hchanged⟩))

theorem present_of_differs (hscan : scan snapshotIdOf a.args disk a.reading = .ok sc)
    {path : String} {e : InventoryEntry} (he : sc.inventory.entries.lookup path = some e)
    (hne : recordedSha snapshotIdOf disk path ≠ some e.sha256) :
    ¬ UnderPreserved (preservedPrefixes a.args a.reading) path ∧
      Present a.args a.reading path := by
  have hpath : ¬ UnderPreserved (preservedPrefixes a.args a.reading) path := by
    intro hunder
    refine hne ?_
    unfold recordedSha
    rw [inventory_under hscan hunder he]
    rfl
  exact ⟨hpath, (mem_inventory hscan hpath).mp (Finmap.mem_iff.mpr ⟨e, he⟩)⟩

/-- In a committed run, every difference is reported exactly if the recorded inventory is that of the
commits. -/
theorem inventoryCommitted_iff (hscan : scan snapshotIdOf a.args disk a.reading = .ok sc)
    (hstat : StatFaithful snapshotIdOf disk a) (hgit : GitReports commits a) {all : Candidates}
    (hall : collectCandidates a.args disk a.reading false .committed = .ok all) :
    InventoryCommitted snapshotIdOf commits disk a ↔
      ∀ path e, sc.inventory.entries.lookup path = some e →
        recordedSha snapshotIdOf disk path ≠ some e.sha256 →
          path ∈ all.committed ∩ eligiblePaths snapshotIdOf a.args disk a.reading := by
  have hreported : reportedChanges disk a = all.committed := by
    unfold reportedChanges
    rw [hall]
  unfold InventoryCommitted
  rw [hreported]
  constructor
  · intro h path e he hne
    by_contra hmissing
    obtain ⟨hpath, hin⟩ := present_of_differs hscan he hne
    obtain ⟨file, hfile⟩ := Option.isSome_iff_exists.mp hin.2
    have hunreported : path ∉ all.committed := fun hmem =>
      hmissing (Finset.mem_inter.mpr ⟨hmem, Finset.mem_union_left _ hin.1⟩)
    obtain ⟨htracked, huntracked⟩ := h path file hin hfile hunreported
    rw [inventory_sha hscan hstat hfile hpath he] at hne
    by_cases hin' : ∃ scope ∈ scopes a.args a.reading, ∃ rel ∈ scope.tracked,
        scopePath scope rel = path
    · obtain ⟨scope, hs, rel, hrel, rfl⟩ := hin'
      refine hne ?_
      rw [htracked scope hs rel hrel rfl]
      exact tracked_sha hgit hall hs hrel hfile (candidate_of_mem hin.1) hunreported
    · exact hne (huntracked fun scope hs rel hrel heq => hin' ⟨scope, hs, rel, hrel, heq⟩)
  · intro h path file hin hfile hunreported
    have hpath := mem_sourcePaths hin.1
    obtain ⟨e, he⟩ := Finmap.mem_iff.mp ((mem_inventory hscan hpath).mpr hin)
    -- The path is not reported, so that the record does not differ from the file.
    have hsame : recordedSha snapshotIdOf disk path = some file.sha256 := by
      rw [← inventory_sha hscan hstat hfile hpath he]
      exact not_not.mp fun hne => hunreported (Finset.mem_inter.mp (h path e he hne)).1
    refine ⟨fun scope hs rel hrel heq => ?_, fun _ => hsame⟩
    subst heq
    rw [hsame, tracked_sha hgit hall hs hrel hfile (candidate_of_mem hin.1) hunreported]

/-- **A clean run loses no change exactly under the condition.** -/
theorem changes_kept_run (hstat : StatFaithful snapshotIdOf disk a)
    (hgit : GitReports commits a) :
    ChangesKept snapshotIdOf disk a ↔ ChangesCovered snapshotIdOf commits disk a := by
  unfold ChangesKept ChangesCovered
  refine imp_congr_right fun hclean => ?_
  obtain ⟨sc, -, -, hscan, hscanned, -⟩ := outcome_clean hclean
  obtain ⟨-, -, -, -, -, -, hfull, -, hdetection, hsource, -⟩ := scan_ok hscan
  have hone : (∀ sc', (outcome snapshotIdOf disk a).scanned = some sc' →
      ∀ path e, sc'.inventory.entries.lookup path = some e →
        recordedSha snapshotIdOf disk path ≠ some e.sha256 → path ∈ sc'.changed) ↔
      ∀ path e, sc.inventory.entries.lookup path = some e →
        recordedSha snapshotIdOf disk path ≠ some e.sha256 → path ∈ sc.changed := by
    rw [hscanned]
    exact ⟨fun h => h sc rfl, fun h _ hsc => Option.some.inj hsc ▸ h⟩
  have hevery : sc.changed = sc.sourcePaths →
      ∀ path e, sc.inventory.entries.lookup path = some e →
        recordedSha snapshotIdOf disk path ≠ some e.sha256 → path ∈ sc.changed := by
    intro hchanged path e he hne
    rw [hchanged, hsource]
    exact (present_of_differs hscan he hne).2.1
  rw [hone, ← hfull, hdetection]
  cases hdirty : disk.state.dirty with
  | true =>
    -- A recovery works on every file.
    obtain ⟨-, -, hchanged, -⟩ := paths_dirty hscan hdirty
    exact iff_of_true (hevery hchanged) (Or.inl rfl)
  | false =>
    cases hf : sc.full with
    | true => exact iff_of_true (hevery (paths_full hscan hdirty hf).1) (Or.inr (Or.inl rfl))
    | false =>
      by_cases hcommitted : sc.detection = .committed
      · -- A committed run works on what the commits report.
        obtain ⟨all, hall, hchanged, -⟩ := paths_committed hscan hdirty hf hcommitted
        rw [hchanged, ← inventoryCommitted_iff hscan hstat hgit hall]
        simp [hcommitted]
      · -- The others work on the difference of the inventories.
        have hdiff : sc.changed = changedKeys InventoryEntry.sha256
            (entriesOf (previousInventory snapshotIdOf disk)) sc.inventory.entries :=
          congrArg Prod.fst (paths_diff hscan hdirty hf hcommitted)
        refine iff_of_true (fun path e he hne => ?_) (Or.inr (Or.inr (Or.inl ?_)))
        · rw [hdiff]
          exact mem_changedKeys.mpr ⟨e, he, hne⟩
        · exact fun h => hcommitted (Except.ok.inj h)

/-- **A sequence of runs loses no change exactly if each of its clean runs is a recovery, a full
scan or compares inventories, or the recorded inventory is that of the recorded commits.** -/
theorem changes_kept_iff (snapshotIdOf : Entries → String) (commits : Commits) (disk : Disk)
    (attempts : List Attempt) (hstat : Along snapshotIdOf (StatFaithful snapshotIdOf) disk attempts)
    (hgit : ∀ a ∈ attempts, GitReports commits a) :
    Along snapshotIdOf (ChangesKept snapshotIdOf) disk attempts ↔
      Along snapshotIdOf (ChangesCovered snapshotIdOf commits) disk attempts := by
  induction attempts generalizing disk with
  | nil => exact Iff.rfl
  | cons a rest ih =>
    obtain ⟨hone, hrest⟩ := hstat
    exact and_congr (changes_kept_run hone (hgit a List.mem_cons_self))
      (ih _ hrest fun b hb => hgit b (List.mem_cons_of_mem _ hb))

/-! ## A reverted file -/

/-- A repository with one commit of `a.py`, and a tree where `a.py` has this hash. -/
def oneFile (hash : String) (worktree : List DiffEntry) : Reading :=
  sampleReading [("a.py", hash)] (some {
    head := some "c1"
    scopes := [{
      sourcePrefix := "."
      currentSha := "c1"
      diff := fun _ => some []
      worktree := worktree
      tracked := {"a.py"} }] })

def oneCommit : Commits := fun _ _ path => if path = "a.py" then some "1" else none

/-- The first scan, a hybrid run after `a.py` is edited, and a committed run after it is reverted. -/
def editedScan : Attempt where
  args := {}
  reading := oneFile "1" []

def hybridRun : Attempt where
  args := {}
  reading := oneFile "22" [{ status := .modified, oldPath := none, newPath := some "a.py" }]

def committedRun : Attempt where
  args := { changeDetection := .committed }
  reading := oneFile "1" []

theorem oneFile_reports {args : Args} {hash : String} {worktree : List DiffEntry}
    (h : hash = "1" ∨ ∃ e ∈ worktree, e.newPath = some "a.py") :
    GitReports oneCommit { args := args, reading := oneFile hash worktree } := by
  have hscopes : ∀ scope ∈ scopes args (oneFile hash worktree), scope.sourcePrefix = "." ∧
      scope.worktree = worktree ∧ scope.tracked = {"a.py"} := by
    intro scope hs
    unfold scopes oneFile sampleReading at hs
    dsimp only at hs
    split at hs <;> (rw [List.mem_singleton.mp hs]; exact ⟨rfl, rfl, rfl⟩)
  refine ⟨?_, ?_, ?_⟩
  · intro scope hs path hpath
    rw [(hscopes scope hs).2.2, Finset.mem_singleton] at hpath
    subst hpath
    exact ⟨by decide, fun _ other hother hne => absurd (hscopes other hother).1 hne⟩
  · intro scope hs path hpath file hfile
    obtain ⟨hroot, hworktree, htracked⟩ := hscopes scope hs
    rw [htracked, Finset.mem_singleton] at hpath
    subst hpath
    rcases h with rfl | h
    · unfold scopePath at hfile
      rw [if_pos hroot] at hfile
      cases hfile
      exact Or.inl rfl
    · exact Or.inr (hworktree ▸ h)
  · exact fun scope hs sha entries hentries path hpath => Or.inl rfl

theorem oneFile_stat {disk : Disk} {args : Args} {hash : String} {worktree : List DiffEntry}
    {e : InventoryEntry} (hrecorded : entriesOf (previousInventory sampleSnapshotId disk) =
      Finmap.singleton "a.py" e) (hsize : e.size ≠ hash.length) :
    StatFaithful sampleSnapshotId disk { args := args, reading := oneFile hash worktree } := by
  intro path e' file he hfile hsame
  rw [hrecorded] at he
  by_cases hpath : path = "a.py"
  · subst hpath
    rw [Finmap.lookup_singleton_eq] at he
    cases he
    cases hfile
    exact absurd hsame hsize
  · have hmem := Finmap.mem_of_lookup_eq_some he
    rw [Finmap.mem_singleton] at hmem
    exact absurd hmem hpath

/-- The recorded content of the three runs. -/
theorem oneFile_runs :
    let disk₁ := after sampleSnapshotId {} editedScan
    let disk₂ := after sampleSnapshotId disk₁ hybridRun
    let last := outcome sampleSnapshotId disk₂ committedRun
    (outcome sampleSnapshotId {} editedScan).ending = .clean ∧
      (outcome sampleSnapshotId disk₁ hybridRun).ending = .clean ∧
      last.ending = .clean ∧
      entriesOf (previousInventory sampleSnapshotId disk₁) =
        Finmap.singleton "a.py" ⟨1, 1, "1", "."⟩ ∧
      entriesOf (previousInventory sampleSnapshotId disk₂) =
        Finmap.singleton "a.py" ⟨2, 1, "22", "."⟩ ∧
      last.scanned.any (fun sc => decide
        (sc.inventory.entries.lookup "a.py" = some ⟨1, 1, "1", "."⟩ ∧ sc.changed = ∅)) = true := by
  decide +kernel

theorem oneFile_assumptions :
    Along sampleSnapshotId (StatFaithful sampleSnapshotId) {}
        [editedScan, hybridRun, committedRun] ∧
      ∀ a ∈ [editedScan, hybridRun, committedRun], GitReports oneCommit a := by
  obtain ⟨-, -, -, hfirst, hsecond, -⟩ := oneFile_runs
  refine ⟨⟨fun path e file he => ?_, oneFile_stat hfirst (by decide),
    oneFile_stat hsecond (by decide), trivial⟩, ?_⟩
  · cases he
  · simp only [List.forall_mem_cons]
    exact ⟨oneFile_reports (Or.inl rfl),
      oneFile_reports (Or.inr ⟨_, List.mem_singleton_self _, rfl⟩),
      oneFile_reports (Or.inl rfl), List.forall_mem_nil _⟩

/-- **A committed run after a file is reverted records the old content without working on it.** -/
theorem reverted_change_lost :
    ¬ ∀ (snapshotIdOf : Entries → String) (commits : Commits) (disk : Disk)
      (attempts : List Attempt),
      (∀ a ∈ attempts, a.args.parsers = none ∧ a.args.syncMode = .both) →
      Along snapshotIdOf (fun disk a => (outcome snapshotIdOf disk a).ending = .clean) disk
        attempts →
      Along snapshotIdOf (StatFaithful snapshotIdOf) disk attempts →
      (∀ a ∈ attempts, GitReports commits a) →
        Along snapshotIdOf (ChangesKept snapshotIdOf) disk attempts := by
  intro h
  obtain ⟨hstat, hgit⟩ := oneFile_assumptions
  obtain ⟨hfirst, hsecond, hlast, -, hrecorded, hscanned⟩ := oneFile_runs
  obtain ⟨sc, hsc, hdiffers⟩ := (Option.any_eq_true _ _).mp hscanned
  obtain ⟨hentry, hchanged⟩ := of_decide_eq_true hdiffers
  have hauto : ∀ a ∈ [editedScan, hybridRun, committedRun],
      a.args.parsers = none ∧ a.args.syncMode = .both := by
    simp [editedScan, hybridRun, committedRun]
  obtain ⟨-, -, hkept, -⟩ :=
    h _ _ _ _ hauto ⟨hfirst, hsecond, hlast, trivial⟩ hstat hgit
  have hmem := hkept hlast sc hsc "a.py" _ hentry (by
    unfold recordedSha
    rw [hrecorded, Finmap.lookup_singleton_eq]
    decide)
  rw [hchanged] at hmem
  exact Finset.notMem_empty _ hmem

/-- The first two runs lose nothing. -/
theorem hybrid_changes_kept :
    Along sampleSnapshotId (ChangesKept sampleSnapshotId) {} [editedScan, hybridRun] := by
  obtain ⟨⟨hfirst, hsecond, -⟩, hgit⟩ := oneFile_assumptions
  refine (changes_kept_iff sampleSnapshotId oneCommit {} [editedScan, hybridRun]
    ⟨hfirst, hsecond, trivial⟩ fun a ha => hgit a ?_).mpr
      ⟨fun _ => Or.inr (Or.inr (Or.inl ?_)), fun _ => Or.inr (Or.inr (Or.inl ?_)), trivial⟩
  · exact List.mem_of_mem_take (show a ∈ [editedScan, hybridRun, committedRun].take 2 from ha)
  · simp [effectiveDetection, editedScan, oneFile, sampleReading]
  · simp [effectiveDetection, hybridRun, oneFile, sampleReading]

end CortexHarness.Sync
