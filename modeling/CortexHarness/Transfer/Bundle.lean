import CortexHarness.Library.Stopping
import Mathlib.Data.Finmap

/-!
# Database bundles

Export and import of the four storage lanes of a project: for code and for documents a Qdrant
directory and a FalkorDB file. `storage/config.py` gives every lane a path of its own, outside the
backup directory; a lane is what is at its path.

* `exportProject` copies the lanes of a role, and hashes each database file after it is copied;
* `backupIfNeeded` moves what is in the way into the backup directory, with the meaning of
  `shutil.move`: an existing directory of that name is moved into, an existing file is overwritten;
* `importProject` replaces one lane after the other and raises where it cannot.

Results: `restoreLane_ok` and `restoreLane_of_not_blocked` for one lane; `importLanes_run` for the
loop.
-/

namespace CortexHarness.Transfer

/-! ## Lanes -/

inductive Owner where
  | code
  | doc
  deriving DecidableEq

inductive Store where
  | qdrant
  | falkordb
  deriving DecidableEq

structure Lane where
  owner : Owner
  store : Store
  deriving DecidableEq

/-- `--role` -/
inductive Role where
  | code
  | doc
  | both
  deriving DecidableEq

/-- The lanes of a role, in the order of `lane_plan`. -/
def lanePlan : Role → List Lane
  | .code => [⟨.code, .qdrant⟩, ⟨.code, .falkordb⟩]
  | .doc => [⟨.doc, .qdrant⟩, ⟨.doc, .falkordb⟩]
  | .both => [⟨.code, .qdrant⟩, ⟨.code, .falkordb⟩, ⟨.doc, .qdrant⟩, ⟨.doc, .falkordb⟩]

abbrev Bytes := List UInt8

/-- What is below a directory, by relative path; a directory has no content. -/
abbrev Tree := Finset (List String × Option Bytes)

inductive Node where
  | file (content : Bytes)
  | dir (entries : Tree)
  deriving DecidableEq

/-- What is at the path of every lane. -/
abbrev Lanes := Lane → Option Node

/-- The backup directory. -/
abbrev Backups := Finmap fun _ : String => Node

structure Destination where
  lanes : Lanes
  backups : Backups

inductive TransferError where
  | noStorage
  | unsupportedSchema
  | configuration
  | containsData
  | destinationExists
  | isADirectory
  | noEntries
  deriving DecidableEq

/-! ## Export -/

def bundleSchema : String := "cortex-db-bundle@1"

structure Manifest where
  schema : String
  projectId : String
  /-- `entries["falkordb"][lane]["sha256"]` -/
  sha256 : Owner → Option String

structure Archive where
  manifest : Manifest
  qdrant : Owner → Option Tree
  falkordb : Owner → Option Bytes

/-- What the archive has for a lane. -/
def Archive.stored (archive : Archive) (lane : Lane) : Option Node :=
  match lane.store with
  | .qdrant => (archive.qdrant lane.owner).map .dir
  | .falkordb => (archive.falkordb lane.owner).map .file

/-- What an export reads: the lanes as they are copied, and the database files as they are
hashed. -/
structure Source where
  lanes : Lanes
  hashed : Owner → Bytes

/-- `_copy_tree`: a file has nothing below it. -/
def copyTree : Node → Tree
  | .dir entries => entries
  | .file _ => ∅

/-- The content of a file, none for a directory. -/
def Node.content : Node → Option Bytes
  | .file content => some content
  | .dir _ => none

variable (sha256 : Bytes → String)

/-- `export_project` -/
def exportProject (source : Source) (projectId : String) (role : Role) :
    Except TransferError Archive :=
  let file := fun owner => if ⟨owner, .falkordb⟩ ∈ lanePlan role then
    source.lanes ⟨owner, .falkordb⟩ else none
  let archive : Archive := {
    manifest := {
      schema := bundleSchema
      projectId := projectId
      sha256 := fun owner => (file owner).map fun _ => sha256 (source.hashed owner) }
    qdrant := fun owner => if ⟨owner, .qdrant⟩ ∈ lanePlan role then
      (source.lanes ⟨owner, .qdrant⟩).map copyTree else none
    falkordb := fun owner => (file owner).bind Node.content }
  if ∃ lane ∈ lanePlan role, lane.store = .falkordb ∧
      (source.lanes lane).any (fun node => node.content.isNone) = true then .error .isADirectory
  else if (lanePlan role).all fun lane => (archive.stored lane).isNone then .error .noStorage
  else .ok archive

/-! ## Import -/

/-- The last component of the path of every lane. -/
abbrev Layout := Lane → String

/-- `target` exists and holds something. -/
def hasData : Option Node → Bool
  | none => false
  | some (.file _) => true
  | some (.dir entries) => entries ≠ ∅

/-- Move a node into a directory, as `base`. -/
def nest (entries : Tree) (base : String) : Node → Tree
  | .file content => insert ([base], some content) entries
  | .dir below => insert ([base], none) (entries ∪ below.image fun e => (base :: e.1, e.2))

/-- `shutil.move` to a name of the backup directory. -/
def move (backups : Backups) (name base : String) (node : Node) : Except TransferError Backups :=
  match backups.lookup name, node with
  | none, _ => .ok (backups.insert name node)
  | some (.file _), .file content => .ok (backups.insert name (.file content))
  | some (.file _), .dir _ => .error .destinationExists
  | some (.dir entries), _ =>
    if [base] ∈ entries.image Prod.fst then .error .destinationExists
    else .ok (backups.insert name (.dir (nest entries base node)))

variable (layout : Layout) (stamp : Lane → String) (overwrite : Bool)

/-- The name of a backup; `stamp` is the second in which the lane is backed up. -/
def backupName (lane : Lane) : String := layout lane ++ "." ++ stamp lane ++ ".bak"

/-- `_backup_if_needed` -/
def backupIfNeeded (dest : Destination) (lane : Lane) : Except TransferError Destination :=
  match dest.lanes lane with
  | none => .ok dest
  | some node =>
    if hasData (some node) = false then .ok dest
    else if overwrite = false then .error .containsData
    else (move dest.backups (backupName layout stamp lane) (layout lane) node).map fun backups =>
      { lanes := Function.update dest.lanes lane none, backups }

/-- One lane: back up what is there, remove an empty directory, copy. -/
def restoreLane (dest : Destination) (lane : Lane) (node : Node) :
    Except TransferError Destination := do
  let cleared ← backupIfNeeded layout stamp overwrite dest lane
  if lane.store = .falkordb ∧ (cleared.lanes lane).any (fun n => n.content.isNone) = true then
    .error .isADirectory
  else .ok { cleared with lanes := Function.update cleared.lanes lane (some node) }

/-- The loop of `import_project`: what is left at the destination, the restored lanes, and what is
raised. -/
def importLanes (archive : Archive) :
    Destination → List Lane → Destination × List Lane × Option TransferError
  | dest, [] => (dest, [], none)
  | dest, lane :: rest =>
    match archive.stored lane with
    | none => importLanes archive dest rest
    | some node =>
      match restoreLane layout stamp overwrite dest lane node with
      | .error e => (dest, [], some e)
      | .ok dest' =>
        let r := importLanes archive dest' rest
        (r.1, lane :: r.2.1, r.2.2)

structure Imported where
  dest : Destination
  restored : List Lane
  error : Option TransferError

/-- `import_project`; `resolved` is the storage layout of the project's configuration. -/
def importProject (resolved : Except TransferError Layout) (archive : Archive) (role : Role)
    (dest : Destination) : Imported :=
  if archive.manifest.schema ≠ bundleSchema then ⟨dest, [], some .unsupportedSchema⟩
  else match resolved with
    | .error e => ⟨dest, [], some e⟩
    | .ok layout =>
      let r := importLanes layout stamp overwrite archive dest (lanePlan role)
      { dest := r.1
        restored := r.2.1
        error := r.2.2.or (if r.2.1 = [] then some .noEntries else none) }

/-! ## One lane -/

/-- The import cannot replace what is at a lane: it is not allowed to, the backup cannot be moved, or
the database file is an empty directory. -/
def Blocked (dest : Destination) (lane : Lane) : Prop :=
  (∃ old, dest.lanes lane = some old ∧ hasData (some old) = true ∧ (overwrite = false ∨
      ∃ e, move dest.backups (backupName layout stamp lane) (layout lane) old = .error e)) ∨
    (lane.store = .falkordb ∧ dest.lanes lane = some (.dir ∅))

variable {layout stamp overwrite} {dest dest' : Destination} {lane : Lane} {node : Node}

theorem hasData_eq_false {old : Node} : hasData (some old) = false ↔ old = .dir ∅ := by
  cases old with
  | file content => simp [hasData]
  | dir entries => simp [hasData]

theorem move_fresh {backups : Backups} {name base : String} (h : name ∉ backups) :
    move backups name base node = .ok (backups.insert name node) := by
  unfold move
  rw [Finmap.lookup_eq_none.mpr h]

/-- `restoreLane` by what is at the lane. -/
theorem restoreLane_none (h : dest.lanes lane = none) :
    restoreLane layout stamp overwrite dest lane node =
      .ok { dest with lanes := Function.update dest.lanes lane (some node) } := by
  simp [restoreLane, backupIfNeeded, h, bind, Except.bind]

theorem restoreLane_empty (h : dest.lanes lane = some (.dir ∅)) :
    restoreLane layout stamp overwrite dest lane node =
      if lane.store = .falkordb then .error .isADirectory
      else .ok { dest with lanes := Function.update dest.lanes lane (some node) } := by
  simp [restoreLane, backupIfNeeded, h, hasData, Node.content, bind, Except.bind]

theorem restoreLane_data {old : Node} (h : dest.lanes lane = some old)
    (hdata : hasData (some old) = true) :
    restoreLane layout stamp overwrite dest lane node =
      if overwrite = false then .error .containsData
      else (move dest.backups (backupName layout stamp lane) (layout lane) old).map fun backups =>
        { lanes := Function.update dest.lanes lane (some node), backups } := by
  simp only [restoreLane, backupIfNeeded, h, hdata, Bool.true_eq_false, if_false]
  split
  · rfl
  · cases move dest.backups (backupName layout stamp lane) (layout lane) old with
    | error e => rfl
    | ok backups => simp [Except.map, bind, Except.bind]

/-- A lane that is replaced: what held data is moved to its backup. -/
theorem restoreLane_ok (h : restoreLane layout stamp overwrite dest lane node = .ok dest') :
    ¬ Blocked layout stamp overwrite dest lane ∧
      dest'.lanes = Function.update dest.lanes lane (some node) ∧
      ((hasData (dest.lanes lane) = false ∧ dest'.backups = dest.backups) ∨
        ∃ old, dest.lanes lane = some old ∧ hasData (some old) = true ∧ overwrite = true ∧
          move dest.backups (backupName layout stamp lane) (layout lane) old =
            .ok dest'.backups) := by
  unfold Blocked
  cases hold : dest.lanes lane with
  | none =>
    rw [restoreLane_none hold] at h
    cases h
    simp [hasData]
  | some old =>
    cases hdata : hasData (some old) with
    | false =>
      rw [hasData_eq_false.mp hdata] at hold ⊢
      rw [restoreLane_empty hold] at h
      split at h
      · cases h
      · rename_i hstore
        cases h
        simp [hasData, hstore]
    | true =>
      rw [restoreLane_data hold hdata] at h
      split at h
      · cases h
      · rename_i hallowed
        cases hmove : move dest.backups (backupName layout stamp lane) (layout lane) old with
        | error e =>
          rw [hmove] at h
          cases h
        | ok backups =>
          rw [hmove] at h
          cases h
          refine ⟨?_, rfl, Or.inr ⟨old, rfl, hdata, by simpa using hallowed, hmove⟩⟩
          rintro (⟨old', hold', -, hfalse | ⟨e, he⟩⟩ | ⟨-, hempty⟩)
          · exact hallowed hfalse
          · cases hold'
            rw [hmove] at he
            cases he
          · cases hempty
            simp [hasData] at hdata

/-- A lane that is not blocked is replaced. -/
theorem restoreLane_of_not_blocked (h : ¬ Blocked layout stamp overwrite dest lane) :
    ∃ dest', restoreLane layout stamp overwrite dest lane node = .ok dest' := by
  cases hold : dest.lanes lane with
  | none => exact ⟨_, restoreLane_none hold⟩
  | some old =>
    cases hdata : hasData (some old) with
    | false =>
      rw [hasData_eq_false.mp hdata] at hold
      have hstore : lane.store ≠ .falkordb := fun hs => h (Or.inr ⟨hs, hold⟩)
      exact ⟨_, by rw [restoreLane_empty hold, if_neg hstore]⟩
    | true =>
      have hallowed : ¬ overwrite = false := fun hf =>
        h (Or.inl ⟨old, hold, hdata, Or.inl hf⟩)
      cases hmove : move dest.backups (backupName layout stamp lane) (layout lane) old with
      | error e => exact absurd (Or.inl ⟨old, hold, hdata, Or.inr ⟨e, hmove⟩⟩) h
      | ok backups => exact ⟨_, by rw [restoreLane_data hold hdata, if_neg hallowed, hmove]; rfl⟩

/-! ## The loop -/

variable {archive : Archive}

/-- Replace a lane that the archive has, if it is not blocked. -/
def replace (layout : Layout) (stamp : Lane → String) (overwrite : Bool) (archive : Archive)
    (dest : Destination) (lane : Lane) : Option Destination :=
  (archive.stored lane).bind fun node => (restoreLane layout stamp overwrite dest lane node).toOption

/-- The loop replaces the lanes of the archive up to the first that is blocked. -/
theorem importLanes_run (dest : Destination) (lanes : List Lane) :
    let r := importLanes layout stamp overwrite archive dest lanes
    let q := Stopping.run (replace layout stamp overwrite archive) dest
      (lanes.filter fun lane => (archive.stored lane).isSome)
    r.1 = q.1 ∧ (lanes.filter fun lane => (archive.stored lane).isSome) = r.2.1 ++ q.2 ∧
      (r.2.2 = none ↔ q.2 = []) := by
  dsimp only
  induction lanes generalizing dest with
  | nil => simp [importLanes, Stopping.run]
  | cons lane rest ih =>
    unfold importLanes
    cases hstored : archive.stored lane with
    | none =>
      simp only [List.filter_cons, hstored, Option.isSome_none, Bool.false_eq_true, if_false]
      exact ih dest
    | some node =>
      simp only [List.filter_cons, hstored, Option.isSome_some, if_true, Stopping.run, replace,
        Option.bind_some]
      cases hrestore : restoreLane layout stamp overwrite dest lane node with
      | error e => simp [Except.toOption]
      | ok dest' =>
        obtain ⟨hdest, hlanes, herror⟩ := ih dest'
        simp only [Except.toOption]
        exact ⟨hdest, by rw [List.cons_append, ← hlanes], herror⟩

end CortexHarness.Transfer
