import CortexHarness.Library.Python
import CortexHarness.Library.Tabulate

/-!
# Source inventories

The content baseline of incremental sync: the size, modification time and SHA-256 of every source
file of a project. Paths are project paths, as `_normalize_project_paths` leaves them; an inventory
generation is a file of the cache that is named after its snapshot id.

* `fingerprint` trusts size and modification time unless the path is forced;
* `captureSourceInventory` reads the files of a walk and raises if one changes meanwhile;
* `preserveInventoryPrefixes` carries the entries of unavailable submodules over;
* `writeInventoryGeneration` and `loadInventoryGeneration` are the cache.

Results: `lookup_captured` and `lookup_preserved` say what an inventory holds; `load_written` is the
round trip through the cache.
-/

namespace CortexHarness.Sync

open Tabulate

/-- What a run raises. -/
inductive SyncError where
  | lastGoodInventoryUnavailable
  | incompleteRecoveryInventory
  | noRecoveryInventory
  | missingServices
  | gitRequired
  | repositoryCoverage
  | missingRepositoryBaseline
  | dirtyWorktree
  | sourceChanged
  | inventoryCollision
  | inventoryUnavailable
  | checksumMismatch
  | unsupportedParser
  | componentFailed
  | interrupted
  deriving DecidableEq

/-- `InventoryEntry` -/
structure InventoryEntry where
  size : Nat
  mtimeNs : Int
  sha256 : String
  repositoryScope : String := "."
  deriving DecidableEq

/-- A dict of entries by path. -/
abbrev Entries := Finmap fun _ : String => InventoryEntry

/-- `SourceInventory` -/
structure SourceInventory where
  entries : Entries
  snapshotId : String
  deriving DecidableEq

/-- The entries of an inventory, if there is one. -/
def entriesOf (inventory : Option SourceInventory) : Entries :=
  (inventory.map (·.entries)).getD ∅

@[simp] theorem entriesOf_none : entriesOf none = ∅ := rfl

@[simp] theorem entriesOf_some (inventory : SourceInventory) :
    entriesOf (some inventory) = inventory.entries := rfl

/-- The recorded hash of a path. -/
def SourceInventory.shaAt (inventory : SourceInventory) (path : String) : Option String :=
  (inventory.entries.lookup path).map (·.sha256)

/-! ## Reading files -/

/-- `st_size` and `st_mtime_ns` -/
structure Stat where
  size : Nat
  mtimeNs : Int
  deriving DecidableEq

/-- A file that is read: its `stat` before and after the bytes that were hashed. -/
structure FileReading where
  before : Stat
  sha256 : String
  after : Stat
  deriving DecidableEq

/-- The files of a tree at one time, by path. -/
abbrev Files := String → Option FileReading

/-- `_fingerprint` -/
def fingerprint (reading : FileReading) (previous : Option InventoryEntry) (forceHash : Bool) :
    Except SyncError InventoryEntry :=
  match previous.filter fun e => !forceHash && e.size == reading.before.size &&
    e.mtimeNs == reading.before.mtimeNs with
  | some e => .ok e
  | none =>
    if reading.before = reading.after then
      .ok { size := reading.after.size, mtimeNs := reading.after.mtimeNs, sha256 := reading.sha256 }
    else .error .sourceChanged

variable (snapshotIdOf : Entries → String)

/-- The inventory of these entries. -/
def SourceInventory.of (entries : Entries) : SourceInventory :=
  { entries, snapshotId := snapshotIdOf entries }

/-- The fingerprint of a path, if a file is there. -/
def fingerprintAt (files : Files) (previous : Option SourceInventory) (forced : Finset String)
    (path : String) : Option (Except SyncError InventoryEntry) :=
  (files path).map fun reading =>
    fingerprint reading ((entriesOf previous).lookup path) (decide (path ∈ forced))

/-- `capture_source_inventory`: what is no file is left out. -/
def captureSourceInventory (files : Files) (paths : Finset String)
    (previous : Option SourceInventory) (forced : Finset String) :
    Except SyncError SourceInventory :=
  if ∀ path ∈ paths, fingerprintAt files previous forced path ≠ some (.error .sourceChanged) then
    .ok (.of snapshotIdOf (tabulate paths fun path =>
      (fingerprintAt files previous forced path).bind Except.toOption))
  else .error .sourceChanged

/-- `diff_source_inventories`: the changed and the deleted paths. -/
def diffSourceInventories (before : Option SourceInventory) (after : SourceInventory) :
    Finset String × Finset String :=
  (changedKeys InventoryEntry.sha256 (entriesOf before) after.entries,
    removedKeys (entriesOf before) after.entries)

/-- `prefix.rstrip("/") + "/"` -/
def directoryOf (scope : String) : String :=
  String.ofList (scope.toList.reverse.dropWhile (· == '/')).reverse ++ "/"

/-- `_under_preserved_prefix` -/
def UnderPreserved (scopes : Finset String) (path : String) : Prop :=
  ∃ scope ∈ scopes, path = scope ∨ startsWith path (directoryOf scope) = true

instance (scopes : Finset String) (path : String) : Decidable (UnderPreserved scopes path) :=
  inferInstanceAs (Decidable (∃ scope ∈ scopes, _))

/-- `path.startswith(normalized_prefixes)` -/
def Carried (scopes : Finset String) (path : String) : Prop :=
  ∃ scope ∈ scopes, scope ≠ "" ∧ startsWith path (directoryOf scope) = true

instance (scopes : Finset String) (path : String) : Decidable (Carried scopes path) :=
  inferInstanceAs (Decidable (∃ scope ∈ scopes, _))

/-- `preserve_inventory_prefixes` -/
def preserveInventoryPrefixes (current : SourceInventory) (previous : Option SourceInventory)
    (scopes : Finset String) : SourceInventory :=
  match previous with
  | none => current
  | some previous =>
    if ∀ scope ∈ scopes, scope = "" then current
    else .of snapshotIdOf (tabulate (previous.entries.keys.filter (Carried scopes))
      (fun path => previous.entries.lookup path) ∪ current.entries)

/-- `validate_inventory_unchanged` -/
def validateInventoryUnchanged (files : Files) (inventory : SourceInventory)
    (paths : Finset String) : Except SyncError Unit := do
  let current ← captureSourceInventory snapshotIdOf files paths none paths
  if ∀ path ∈ paths, inventory.entries.lookup path = current.entries.lookup path then .ok ()
  else .error .sourceChanged

/-! ## The generations of the cache -/

/-- The inventory files, by their path. -/
abbrev Generations := Finmap fun _ : String => SourceInventory

/-- The file of a snapshot. -/
def generationPath (snapshotId : String) : String := snapshotId ++ ".json"

/-- `write_inventory_generation`: the cache, and the path of the file. -/
def writeInventoryGeneration (cache : Generations) (inventory : SourceInventory) :
    Except SyncError (Generations × String) :=
  let target := generationPath inventory.snapshotId
  match cache.lookup target with
  | some existing => if existing = inventory then .ok (cache, target) else .error .inventoryCollision
  | none => .ok (cache.insert target inventory, target)

/-- `load_inventory_generation` -/
def loadInventoryGeneration (cache : Generations) (path : String) :
    Except SyncError SourceInventory :=
  match cache.lookup path with
  | none => .error .inventoryUnavailable
  | some inventory =>
    if inventory.snapshotId = snapshotIdOf inventory.entries then .ok inventory
    else .error .checksumMismatch

/-! ## What an inventory holds -/

variable {snapshotIdOf} {files : Files} {paths forced scopes : Finset String}
  {previous : Option SourceInventory} {current inventory : SourceInventory} {path : String}

theorem fingerprint_error {reading : FileReading} {prior : Option InventoryEntry} {force : Bool}
    {e : SyncError} (h : fingerprint reading prior force = .error e) : e = .sourceChanged := by
  unfold fingerprint at h
  split at h
  · cases h
  · split at h
    · cases h
    · cases h
      rfl

theorem lookup_captured (h : captureSourceInventory snapshotIdOf files paths previous forced =
    .ok inventory) (path : String) : inventory.entries.lookup path =
      if path ∈ paths then (fingerprintAt files previous forced path).bind Except.toOption
      else none := by
  unfold captureSourceInventory at h
  split at h
  · cases h
    exact lookup_tabulate _ _ _
  · cases h

/-- Every file of the walk is captured. -/
theorem mem_captured (h : captureSourceInventory snapshotIdOf files paths previous forced =
    .ok inventory) : path ∈ inventory.entries ↔ path ∈ paths ∧ (files path).isSome = true := by
  have hlookup := lookup_captured h path
  have hok : ∀ p ∈ paths, fingerprintAt files previous forced p ≠
      some (.error .sourceChanged) := by
    unfold captureSourceInventory at h
    split at h
    · assumption
    · cases h
  rw [← Finmap.lookup_isSome, hlookup]
  by_cases hp : path ∈ paths
  · have hne := hok path hp
    simp only [hp, if_true, true_and]
    unfold fingerprintAt at hne ⊢
    cases hf : files path with
    | none => rfl
    | some reading =>
      rw [hf] at hne
      simp only [Option.map_some, Option.bind_some, Option.isSome_some, iff_true]
      cases hprint : fingerprint reading ((entriesOf previous).lookup path)
          (decide (path ∈ forced)) with
      | ok e => rfl
      | error e => exact absurd (by rw [Option.map_some, hprint, fingerprint_error hprint]) hne
  · simp [hp]

theorem captured_entry (h : captureSourceInventory snapshotIdOf files paths previous forced =
    .ok inventory) {e : InventoryEntry} (he : inventory.entries.lookup path = some e) :
    path ∈ paths ∧ ∃ reading, files path = some reading ∧
      fingerprint reading ((entriesOf previous).lookup path) (decide (path ∈ forced)) = .ok e := by
  rw [lookup_captured h] at he
  split at he
  · rename_i hp
    refine ⟨hp, ?_⟩
    obtain ⟨x, hx, hxe⟩ := Option.bind_eq_some_iff.mp he
    obtain ⟨reading, hr, rfl⟩ := Option.map_eq_some_iff.mp hx
    refine ⟨reading, hr, ?_⟩
    cases hf : fingerprint reading ((entriesOf previous).lookup path) (decide (path ∈ forced)) with
    | error x =>
      rw [hf] at hxe
      cases hxe
    | ok x =>
      rw [hf] at hxe
      exact congrArg Except.ok (Option.some.inj hxe)
  · cases he

theorem Carried.under (h : Carried scopes path) : UnderPreserved scopes path := by
  obtain ⟨scope, hs, -, hstart⟩ := h
  exact ⟨scope, hs, Or.inr hstart⟩

/-- Preserved entries are the recorded ones, the others those that were captured. -/
theorem lookup_preserved (path : String) :
    (preserveInventoryPrefixes snapshotIdOf current previous scopes).entries.lookup path =
      if Carried scopes path ∧ path ∈ entriesOf previous then (entriesOf previous).lookup path
      else current.entries.lookup path := by
  unfold preserveInventoryPrefixes
  cases previous with
  | none =>
    have hnone : ¬ (Carried scopes path ∧ path ∈ entriesOf none) := fun h =>
      absurd h.2 Finmap.notMem_empty
    rw [if_neg hnone]
  | some previous =>
    simp only [entriesOf_some]
    split
    · rename_i hempty
      have hnone : ¬ (Carried scopes path ∧ path ∈ previous.entries) := by
        rintro ⟨⟨scope, hs, hne, -⟩, -⟩
        exact hne (hempty scope hs)
      simp only [hnone, if_false]
    · simp only [SourceInventory.of]
      by_cases hc : Carried scopes path ∧ path ∈ previous.entries
      · have hmem : path ∈ tabulate (previous.entries.keys.filter (Carried scopes))
            (fun path => previous.entries.lookup path) := by
          rw [mem_tabulate, Finset.mem_filter, Finmap.mem_keys, Finmap.lookup_isSome]
          exact ⟨⟨hc.2, hc.1⟩, hc.2⟩
        simp only [hc, and_self, if_true]
        rw [Finmap.lookup_union_left hmem, lookup_tabulate, if_pos]
        exact Finset.mem_filter.mpr ⟨Finmap.mem_keys.mpr hc.2, hc.1⟩
      · have hmem : path ∉ tabulate (previous.entries.keys.filter (Carried scopes))
            (fun path => previous.entries.lookup path) := by
          rw [mem_tabulate, Finset.mem_filter, Finmap.mem_keys]
          exact fun h => hc ⟨h.1.2, h.1.1⟩
        simp only [hc, if_false]
        rw [Finmap.lookup_union_right hmem]

/-! ## The cache -/

variable {cache cache' : Generations}

theorem generationPath_ne_empty (id : String) : generationPath id ≠ "" := by
  intro h
  have := congrArg String.length h
  simp [generationPath] at this

theorem written_path (h : writeInventoryGeneration cache inventory = .ok (cache', path)) :
    path = generationPath inventory.snapshotId := by
  unfold writeInventoryGeneration at h
  dsimp only at h
  split at h
  · split at h
    · cases h
      rfl
    · cases h
  · cases h
    rfl

/-- A written generation is loaded as it was written. -/
theorem load_written (hid : inventory.snapshotId = snapshotIdOf inventory.entries)
    (h : writeInventoryGeneration cache inventory = .ok (cache', path)) :
    loadInventoryGeneration snapshotIdOf cache' path = .ok inventory := by
  unfold writeInventoryGeneration at h
  dsimp only at h
  unfold loadInventoryGeneration
  cases hl : cache.lookup (generationPath inventory.snapshotId) with
  | none =>
    rw [hl] at h
    cases h
    simp only [Finmap.lookup_insert, if_pos hid]
  | some existing =>
    rw [hl] at h
    dsimp only at h
    split at h
    · rename_i he
      cases h
      simp only [hl, he, if_pos hid]
    · cases h

/-- No file of the cache is overwritten. -/
theorem lookup_written (h : writeInventoryGeneration cache inventory = .ok (cache', path))
    {name : String} {old : SourceInventory} (hold : cache.lookup name = some old) :
    cache'.lookup name = some old := by
  unfold writeInventoryGeneration at h
  dsimp only at h
  cases hl : cache.lookup (generationPath inventory.snapshotId) with
  | none =>
    rw [hl] at h
    cases h
    have hne : name ≠ generationPath inventory.snapshotId := by
      rintro rfl
      rw [hl] at hold
      cases hold
    rw [Finmap.lookup_insert_of_ne _ hne, hold]
  | some existing =>
    rw [hl] at h
    dsimp only at h
    split at h
    · cases h
      exact hold
    · cases h

theorem load_kept (h : writeInventoryGeneration cache inventory = .ok (cache', path))
    {name : String} {old : SourceInventory}
    (hold : loadInventoryGeneration snapshotIdOf cache name = .ok old) :
    loadInventoryGeneration snapshotIdOf cache' name = .ok old := by
  unfold loadInventoryGeneration at hold ⊢
  cases hl : cache.lookup name with
  | none =>
    rw [hl] at hold
    cases hold
  | some x =>
    rw [hl] at hold
    rw [lookup_written h hl]
    exact hold

end CortexHarness.Sync
