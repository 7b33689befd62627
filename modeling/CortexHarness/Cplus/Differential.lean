import CortexHarness.Library.Dict
import CortexHarness.Library.Fallible
import CortexHarness.Library.JsonEq
import CortexHarness.Library.Python
import Mathlib.Data.List.Dedup
import Mathlib.Data.List.Count

/-!
# The differential gate of the structural payloads

Model of `canonical_structural_projection` and `build_differential_artifact`
(`semantic_shadow.py:26-349`).

* A payload is a dict; the error of a projection is the text of the exception.
* `json.dumps` with sorted keys prints two rows alike exactly if they are the same, so a row stands
  for its text, and for what `json.loads` makes of it. The dicts of a row are sorted by their keys.
* The order of rows and deltas, in which the report prints them, is left out: a `Counter` is a list
  whose order counts for nothing.
* `Varied`: the rows of a payload are permuted, and their volatile fields changed. A value that an
  identity, a label or a span is read from is kept, and an entry of `includes` keeps its text.

Results:
* `passed_iff`: what the gate asks of the projections;
* `projection_of_varied`: a varied payload has the same projection, in another order;
* **`gate`**: the verdict, and that it does not change.
-/

namespace CortexHarness.Differential

open Json

/-! ## Projections -/

/-- `_STRUCTURAL_COLLECTIONS` -/
def structuralCollections : List (String × String) :=
  [("files", "File"), ("namespaces", "Namespace"), ("types", "Type"),
    ("function_types", "FunctionType"), ("functions", "Function"), ("fields", "Field"),
    ("aliases", "Alias"), ("templates", "Template"), ("resources", "Resource"),
    ("resource_elements", "ResourceElement"), ("proc_nodes", "SqlStatement"),
    ("calls", "Callsite")]

/-- `_REQUIRED_ADAPTER_NODE_LABELS` -/
def requiredAdapterNodeLabels : List String := ["Function"]

/-- `_VOLATILE_PROJECTION_KEYS` -/
def volatileProjectionKeys : List String :=
  ["comment", "summary", "note", "project_id", "generation_id", "parse_run_id", "run_id",
    "elapsed_ms", "elapsed_seconds", "timestamp", "created_at", "updated_at"]

/-- `_CALLSITE_SEMANTIC_KEYS` -/
def callsiteSemanticKeys : List String :=
  ["callee_id", "callee_usr", "resolution_class", "semantic_provider", "tu_key",
    "config_fingerprint", "context_attestation", "manifest_key", "context_fidelity",
    "context_admission", "execution_coverage", "demoted_from"]

def isVolatile (key : String) : Bool := volatileProjectionKeys.contains key

/-- A dict with its keys in order. -/
def sortKeys (members : Row) : Row := members.insertionSort fun a b => a.1 ≤ b.1

mutual

/-- `_stable_value` -/
def stableValue : Json → Json
  | .obj members => .obj (sortKeys (stableMembers members))
  | .arr items => .arr (stableItems items)
  | value => value

def stableItems : List Json → List Json
  | [] => []
  | value :: values => stableValue value :: stableItems values

def stableMembers : List (String × Json) → List (String × Json)
  | [] => []
  | (key, value) :: members =>
    if isVolatile key then stableMembers members
    else (key, stableValue value) :: stableMembers members

end

/-- `_stable_properties` -/
def stableProperties (raw : Row) (excluded : List String) : Row :=
  sortKeys ((raw.filter fun m => !isVolatile m.1 && !excluded.contains m.1).map
    fun m => (m.1, stableValue m.2))

inductive Kind where
  | node
  | relation
  deriving DecidableEq

inductive Identity where
  | text (identity : String)
  | ends (sourceLabel sourceId targetLabel targetId : String)
  deriving DecidableEq

/-- What `_identity_text` prints. -/
structure Key where
  kind : Kind
  label : String
  identity : Identity
  deriving DecidableEq

structure ProjectionRow where
  key : Key
  span : List Int
  properties : Json
  deriving DecidableEq

variable (py : Python)

/-- `str(a or b or default)` -/
def textOf (values : List Json) (default : String) : String :=
  match values.find? truthy with
  | some value => py.str value
  | none => default

/-- `_node_identity` -/
def nodeIdentity (raw : Row) (label : String) : String :=
  if label = "Callsite" then
    match [field raw "logical_callsite_id", field raw "site_id", field raw "callsite_id"].find?
      truthy with
    | some callsite => py.str callsite
    | none =>
      "call::" ++ textOf py [field raw "caller_id"] "" ++ "::" ++
        textOf py [field raw "caller_file", field raw "file_path"] "" ++ "::" ++
        textOf py [field raw "call_start_byte"] "0" ++ "::" ++ textOf py [field raw "ordinal"] "0"
  else
    match [field raw "id", field raw "symbol_id", field raw "logical_id"].find? truthy with
    | some direct => py.str direct
    | none =>
      let filePath := textOf py [field raw "file_path"] ""
      if label = "File" then filePath
      else
        label ++ "::" ++
          textOf py [field raw "qualified_name", field raw "name", field raw "type_signature"] "" ++
          "::" ++ filePath ++ "::" ++
          textOf py [field raw "start_byte", field raw "start_line"] "0"

/-- `for x in value or ()` -/
def iterate (value : Json) : Except String (List Json) :=
  if !value.truthy then .ok []
  else
    match value with
    | .arr items => .ok items
    | .obj members => .ok (members.map fun m => .str m.1)
    | .str text => .ok (text.toList.map fun c => .str (String.singleton c))
    | .bool _ => .error "'bool' object is not iterable"
    | .int _ => .error "'int' object is not iterable"
    | .float _ => .error "'float' object is not iterable"
    | .null => .ok []

/-- The `Mapping`s among the rows. -/
def mappings (rows : List Json) : List Row :=
  rows.filterMap fun
    | .obj members => some members
    | _ => none

/-- The rows of a collection; without files, the file of `file_def`. -/
def collectionRows (payload : Row) (collection : String) : Except String (List Row) := do
  let rows ← iterate (field payload collection)
  if collection = "files" && rows.isEmpty && (field payload "file_def").truthy then
    return mappings [field payload "file_def"]
  else return mappings rows

def spanKeys : List String := ["start_byte", "end_byte", "start_line", "end_line"]

def excludedNodeKeys : List String :=
  ["id", "symbol_id", "logical_id", "logical_callsite_id", "site_id", "callsite_id", "label",
    "start_byte", "end_byte", "start_line", "end_line"]

def nodeRow (label : String) (raw : Row) : Except String ProjectionRow := do
  let rowLabel := textOf py [field raw "label"] label
  let span ← spanKeys.mapM fun key => py.int (either (field raw key) (.int 0))
  return {
    key := ⟨.node, rowLabel, .text (nodeIdentity py raw rowLabel)⟩
    span
    properties := .obj (stableProperties raw
      (excludedNodeKeys ++ if rowLabel = "Callsite" then callsiteSemanticKeys else [])) }

def excludedRelationKeys : List String :=
  ["rel_type", "source_label", "source_id", "target_label", "target_id"]

def relationRow (raw : Row) : ProjectionRow where
  key := ⟨.relation, textOf py [field raw "rel_type"] "",
    .ends (textOf py [field raw "source_label"] "") (textOf py [field raw "source_id"] "")
      (textOf py [field raw "target_label"] "") (textOf py [field raw "target_id"] "")⟩
  span := [0, 0, 0, 0]
  properties := .obj (stableProperties raw excludedRelationKeys)

/-- What `_append_scalar_collection` iterates over: identities and values. -/
def scalarEntries (value : Json) : Except String (List (String × Json)) :=
  match value with
  | .obj members => .ok members
  | value => do
    let values ← iterate value
    return values.map fun v => (py.str v, v)

/-- `_append_scalar_collection` -/
def scalarRow (label : String) (entry : String × Json) : ProjectionRow where
  key := ⟨.node, label, .text entry.1⟩
  span := [0, 0, 0, 0]
  properties := stableValue entry.2

/-- `canonical_structural_projection` -/
def canonicalStructuralProjection (payload : Row) : Except String (List ProjectionRow) := do
  let nodes ← structuralCollections.mapM fun (collection, label) => do
    let rows ← collectionRows payload collection
    rows.mapM (nodeRow py label)
  let relations ← iterate (field payload "relations")
  let includes ← scalarEntries py (field payload "includes")
  return nodes.flatten ++ (mappings relations).map (relationRow py) ++
    includes.map (scalarRow "Include")

/-! ## The artifact -/

inductive Stage where
  | rawTreeSitter
  | rawClang
  | validatedTreeSitter
  | persistedTreeSitter
  deriving DecidableEq

inductive Direction where
  | missing
  | added
  | collision
  deriving DecidableEq

inductive Classification where
  | identityCollision
  | adapterLoss
  | expectedPlaneDifference
  | validationRejection
  | unexpectedPersistence
  deriving DecidableEq

/-- What a delta is about. -/
inductive Subject where
  | row (row : ProjectionRow)
  | key (key : Key)

structure Delta where
  stage : Stage
  direction : Direction
  classification : Classification
  count : Nat
  subject : Subject

structure Artifact where
  stages : Stage → List ProjectionRow
  deltas : List Delta
  collisions : Stage → List (Key × List ProjectionRow)
  blockingDeltaCount : Nat
  treeSitterInvariant : Bool
  passed : Bool

def keysOf (rows : List ProjectionRow) : List Key := rows.map ProjectionRow.key

/-- `_collision_keys` -/
def collisionKeys (rows : List ProjectionRow) : List (Key × List ProjectionRow) :=
  ((keysOf rows).dedup.filter fun key => 1 < (keysOf rows).count key).map fun key =>
    (key, rows.filter fun row => row.key = key)

/-- `Counter(a) - Counter(b)` -/
def counterMinus (a b : List ProjectionRow) : List (ProjectionRow × Nat) :=
  (a.dedup.filter fun row => b.count row < a.count row).map fun row =>
    (row, a.count row - b.count row)

/-- `_classify_delta` -/
def classifyDelta (stage : Stage) (direction : Direction) (row : ProjectionRow)
    (collisionKeys currentIdentityKeys : List Key) : Classification :=
  if row.key ∈ collisionKeys then .identityCollision
  else if stage = .rawClang then
    if direction = .missing && row.key.kind = .node &&
        requiredAdapterNodeLabels.contains row.key.label && row.key ∉ currentIdentityKeys then
      .adapterLoss
    else .expectedPlaneDifference
  else if stage = .validatedTreeSitter then .validationRejection
  else .unexpectedPersistence

/-- The deltas between the baseline and a stage. -/
def stageDeltas (baseline current : List ProjectionRow) (stage : Stage) : List Delta :=
  let keys := (collisionKeys baseline).map Prod.fst ++ (collisionKeys current).map Prod.fst
  let deltas (direction : Direction) (difference : List (ProjectionRow × Nat)) : List Delta :=
    difference.map fun entry =>
      ⟨stage, direction, classifyDelta stage direction entry.1 keys (keysOf current), entry.2,
        .row entry.1⟩
  deltas .missing (counterMinus baseline current) ++ deltas .added (counterMinus current baseline)

def collisionDeltas (stage : Stage) (rows : List ProjectionRow) : List Delta :=
  (collisionKeys rows).map fun collision =>
    ⟨stage, .collision, .identityCollision, collision.2.length, .key collision.1⟩

def allStages : List Stage :=
  [.rawTreeSitter, .rawClang, .validatedTreeSitter, .persistedTreeSitter]

def deltasOf (stages : Stage → List ProjectionRow) : List Delta :=
  ([.rawClang, .validatedTreeSitter, .persistedTreeSitter].flatMap fun stage =>
    stageDeltas (stages .rawTreeSitter) (stages stage) stage) ++
  allStages.flatMap fun stage => collisionDeltas stage (stages stage)

def isBlocking (delta : Delta) : Bool := delta.classification ≠ .expectedPlaneDifference

/-- `tree_stages` -/
def treeStages : List Stage := [.rawTreeSitter, .validatedTreeSitter, .persistedTreeSitter]

def treeSitterInvariant (stages : Stage → List ProjectionRow) : Bool :=
  (stages .rawTreeSitter).isPerm (stages .validatedTreeSitter) &&
    (stages .validatedTreeSitter).isPerm (stages .persistedTreeSitter) &&
    !(treeStages.any fun stage => !(collisionKeys (stages stage)).isEmpty)

def artifactOf (stages : Stage → List ProjectionRow) : Artifact where
  stages := stages
  deltas := deltasOf stages
  collisions stage := collisionKeys (stages stage)
  blockingDeltaCount := ((deltasOf stages).filter isBlocking).length
  treeSitterInvariant := treeSitterInvariant stages
  passed := treeSitterInvariant stages && ((deltasOf stages).filter isBlocking).isEmpty

/-- `build_differential_artifact` -/
def buildDifferentialArtifact (payloads : Stage → Row) : Except String Artifact := do
  let rawTreeSitter ← canonicalStructuralProjection py (payloads .rawTreeSitter)
  let rawClang ← canonicalStructuralProjection py (payloads .rawClang)
  let validatedTreeSitter ← canonicalStructuralProjection py (payloads .validatedTreeSitter)
  let persistedTreeSitter ← canonicalStructuralProjection py (payloads .persistedTreeSitter)
  return artifactOf fun
    | .rawTreeSitter => rawTreeSitter
    | .rawClang => rawClang
    | .validatedTreeSitter => validatedTreeSitter
    | .persistedTreeSitter => persistedTreeSitter

/-! ## What the gate asks -/

variable {stages : Stage → List ProjectionRow} {rows baseline current : List ProjectionRow}
  {stage : Stage}

theorem collisionKeys_eq_nil : collisionKeys rows = [] ↔ (keysOf rows).Nodup := by
  unfold collisionKeys
  rw [List.map_eq_nil_iff, List.filter_eq_nil_iff, List.nodup_iff_count_le_one]
  constructor
  · intro h key
    by_cases hmem : key ∈ keysOf rows
    · simpa using h key (List.mem_dedup.mpr hmem)
    · rw [List.count_eq_zero_of_not_mem hmem]
      exact Nat.zero_le 1
  · intro h key _
    simpa using h key

theorem mem_counterMinus {entry : ProjectionRow × Nat} (h : entry ∈ counterMinus baseline current) :
    entry.1 ∈ baseline ∧ current.count entry.1 < baseline.count entry.1 := by
  obtain ⟨row, hrow, rfl⟩ := List.mem_map.mp h
  obtain ⟨hmem, hcount⟩ := List.mem_filter.mp hrow
  exact ⟨List.mem_dedup.mp hmem, of_decide_eq_true hcount⟩

theorem counterMinus_perm (h : baseline.Perm current) : counterMinus baseline current = [] := by
  refine List.eq_nil_iff_forall_not_mem.mpr fun entry hentry => ?_
  have hlt := (mem_counterMinus hentry).2
  rw [h.count_eq] at hlt
  exact Nat.lt_irrefl _ hlt

/-- A row that a stage has not at all is missing there. -/
theorem mem_counterMinus_of_not_mem {row : ProjectionRow} (h : row ∈ baseline)
    (hno : row ∉ current) : ∃ n, (row, n) ∈ counterMinus baseline current := by
  refine ⟨_, List.mem_map.mpr ⟨row, List.mem_filter.mpr ⟨List.mem_dedup.mpr h, ?_⟩, rfl⟩⟩
  rw [List.count_eq_zero_of_not_mem hno]
  exact decide_eq_true (List.count_pos_iff.mpr h)

theorem stageDeltas_perm (h : baseline.Perm current) : stageDeltas baseline current stage = [] := by
  unfold stageDeltas
  rw [counterMinus_perm h, counterMinus_perm h.symm]
  rfl

theorem treeSitterInvariant_iff :
    treeSitterInvariant stages = true ↔
      (stages .rawTreeSitter).Perm (stages .validatedTreeSitter) ∧
      (stages .validatedTreeSitter).Perm (stages .persistedTreeSitter) ∧
      ∀ stage, stage ≠ .rawClang → (keysOf (stages stage)).Nodup := by
  unfold treeSitterInvariant
  simp only [Bool.and_eq_true, List.isPerm_iff, Bool.not_eq_true', List.any_eq_false, and_assoc]
  refine and_congr_right fun _ => and_congr_right fun _ => ?_
  constructor
  · intro h stage hstage
    have hmem : stage ∈ treeStages := by
      cases stage with
      | rawClang => exact absurd rfl hstage
      | _ => decide
    refine collisionKeys_eq_nil.mp ?_
    simpa using h stage hmem
  · intro h stage hstage
    have hne : stage ≠ .rawClang := by
      rintro rfl
      exact absurd hstage (by decide)
    rw [collisionKeys_eq_nil.mpr (h stage hne)]
    decide

/-- What the gate asks of the projections. -/
structure Admitted (stages : Stage → List ProjectionRow) : Prop where
  validated : (stages .rawTreeSitter).Perm (stages .validatedTreeSitter)
  persisted : (stages .validatedTreeSitter).Perm (stages .persistedTreeSitter)
  distinct : ∀ stage, (keysOf (stages stage)).Nodup
  inventory : ∀ row ∈ stages .rawTreeSitter, row.key.kind = .node → row.key.label = "Function" →
    row.key ∈ keysOf (stages .rawClang)

theorem clang_expected (h : Admitted stages) :
    ∀ delta ∈ stageDeltas (stages .rawTreeSitter) (stages .rawClang) .rawClang,
      delta.classification = .expectedPlaneDifference := by
  have hkeys : (collisionKeys (stages .rawTreeSitter)).map Prod.fst ++
      (collisionKeys (stages .rawClang)).map Prod.fst = [] := by
    rw [collisionKeys_eq_nil.mpr (h.distinct _), collisionKeys_eq_nil.mpr (h.distinct _)]
    rfl
  intro delta hdelta
  unfold stageDeltas at hdelta
  rw [hkeys] at hdelta
  rcases List.mem_append.mp hdelta with hdelta | hdelta
  · obtain ⟨entry, hentry, rfl⟩ := List.mem_map.mp hdelta
    have hmem := (mem_counterMinus hentry).1
    dsimp only
    unfold classifyDelta
    rw [if_neg List.not_mem_nil, if_pos rfl, if_neg]
    simp only [Bool.and_eq_true, decide_eq_true_eq, not_and, not_not]
    intro hfunction
    have hlabel : entry.1.key.label = "Function" := by
      simpa [requiredAdapterNodeLabels] using hfunction.2
    exact h.inventory _ hmem hfunction.1.2 hlabel
  · obtain ⟨entry, hentry, rfl⟩ := List.mem_map.mp hdelta
    dsimp only
    unfold classifyDelta
    rw [if_neg List.not_mem_nil, if_pos rfl, if_neg]
    simp

theorem blocking_of_lost {row : ProjectionRow} (hrow : row ∈ baseline)
    (hkind : row.key.kind = .node) (hlabel : row.key.label = "Function")
    (hlost : row.key ∉ keysOf current) :
    ∃ delta ∈ stageDeltas baseline current .rawClang, isBlocking delta = true := by
  have hno : row ∉ current := fun hmem => hlost (List.mem_map_of_mem hmem)
  obtain ⟨n, hmissing⟩ := mem_counterMinus_of_not_mem hrow hno
  refine ⟨_, List.mem_append_left _ (List.mem_map_of_mem hmissing), ?_⟩
  unfold isBlocking classifyDelta
  by_cases hcollision : row.key ∈ (collisionKeys baseline).map Prod.fst ++
      (collisionKeys current).map Prod.fst
  · simp [hcollision]
  · simp [hcollision, hkind, hlabel, hlost, requiredAdapterNodeLabels]

/-- **The gate passes** exactly when the projections meet what it asks. -/
theorem passed_iff : (artifactOf stages).passed = true ↔ Admitted stages := by
  show (treeSitterInvariant stages && ((deltasOf stages).filter isBlocking).isEmpty) = true ↔ _
  rw [Bool.and_eq_true, treeSitterInvariant_iff, List.isEmpty_iff, List.filter_eq_nil_iff]
  constructor
  · rintro ⟨⟨hvalidated, hpersisted, hdistinct⟩, hblocking⟩
    have hclang : (keysOf (stages .rawClang)).Nodup := by
      refine collisionKeys_eq_nil.mp (List.eq_nil_iff_forall_not_mem.mpr fun collision hmem => ?_)
      refine hblocking _ (List.mem_append_right _ (List.mem_flatMap.mpr
        ⟨.rawClang, by decide, List.mem_map_of_mem hmem⟩)) rfl
    refine ⟨hvalidated, hpersisted, fun stage => ?_, fun row hrow hkind hlabel => ?_⟩
    · by_cases hstage : stage = .rawClang
      · exact hstage ▸ hclang
      · exact hdistinct stage hstage
    · by_contra hlost
      obtain ⟨delta, hdelta, hblocks⟩ := blocking_of_lost hrow hkind hlabel hlost
      exact hblocking delta (List.mem_append_left _ (List.mem_flatMap.mpr
        ⟨.rawClang, by decide, hdelta⟩)) hblocks
  · intro h
    refine ⟨⟨h.validated, h.persisted, fun stage _ => h.distinct stage⟩, fun delta hdelta => ?_⟩
    rcases List.mem_append.mp hdelta with hdelta | hdelta
    · obtain ⟨stage, hstage, hdelta⟩ := List.mem_flatMap.mp hdelta
      rcases List.mem_cons.mp hstage with rfl | hstage
      · rw [isBlocking, clang_expected h delta hdelta]
        decide
      · rcases List.mem_pair.mp hstage with rfl | rfl
        · rw [stageDeltas_perm h.validated] at hdelta
          exact absurd hdelta List.not_mem_nil
        · rw [stageDeltas_perm (h.validated.trans h.persisted)] at hdelta
          exact absurd hdelta List.not_mem_nil
    · obtain ⟨stage, -, hdelta⟩ := List.mem_flatMap.mp hdelta
      rw [collisionDeltas, collisionKeys_eq_nil.mpr (h.distinct stage)] at hdelta
      exact absurd hdelta List.not_mem_nil

/-- What the gate asks does not depend on the order of the rows. -/
theorem Admitted.perm {stages' : Stage → List ProjectionRow}
    (hperm : ∀ stage, (stages stage).Perm (stages' stage)) (h : Admitted stages) :
    Admitted stages' where
  validated := ((hperm _).symm.trans h.validated).trans (hperm _)
  persisted := ((hperm _).symm.trans h.persisted).trans (hperm _)
  distinct stage := (((hperm stage).map _).nodup_iff).mp (h.distinct stage)
  inventory row hrow hkind hlabel :=
    ((hperm .rawClang).map _).mem_iff.mp
      (h.inventory row ((hperm _).mem_iff.mpr hrow) hkind hlabel)

/-! ## Rows that vary -/

/-- The fields an identity, a label or a span is read from. -/
def readKeys : List String :=
  ["label", "logical_callsite_id", "site_id", "callsite_id", "caller_id", "caller_file",
    "file_path", "call_start_byte", "ordinal", "id", "symbol_id", "logical_id", "qualified_name",
    "name", "type_signature", "start_byte", "end_byte", "start_line", "end_line", "rel_type",
    "source_label", "source_id", "target_label", "target_id"]

/-- A field that is not volatile: what is volatile inside it may differ, unless it is read. -/
def FieldVaried (a b : String × Json) : Prop :=
  a.1 = b.1 ∧ (a.2 = b.2 ∨ a.1 ∉ readKeys ∧ stableValue a.2 = stableValue b.2)

/-- The fields of a row that are not volatile. -/
def steady (raw : Row) : Row := raw.filter fun m => !isVolatile m.1

/-- Two rows that differ in what is volatile. -/
def RowVaried (raw raw' : Row) : Prop := List.Forall₂ FieldVaried (steady raw) (steady raw')

/-- The rows are permuted, and vary. -/
def RowsVaried {α : Type} (varied : α → α → Prop) (rows rows' : Except String (List α)) : Prop :=
  ∃ l l' l'', rows = .ok l ∧ rows' = .ok l'' ∧ l.Perm l' ∧ List.Forall₂ varied l' l''

/-- An entry of `includes` keeps its text. -/
def EntryVaried (entry entry' : String × Json) : Prop :=
  entry.1 = entry'.1 ∧ stableValue entry.2 = stableValue entry'.2

/-- The rows of the payload are permuted, and what is volatile in them is changed. -/
structure Varied (payload payload' : Row) : Prop where
  collections : ∀ c ∈ structuralCollections,
    RowsVaried RowVaried (collectionRows payload c.1) (collectionRows payload' c.1)
  relations : RowsVaried RowVaried ((iterate (field payload "relations")).map mappings)
    ((iterate (field payload' "relations")).map mappings)
  includes : RowsVaried EntryVaried (scalarEntries py (field payload "includes"))
    (scalarEntries py (field payload' "includes"))

variable {raw raw' : Row} {py : Python} {label key : String}

theorem find?_steady (hkey : isVolatile key = false) : find? (steady raw) key = find? raw key := by
  unfold find? steady
  induction raw with
  | nil => rfl
  | cons m raw ih =>
    by_cases hm : m.1 = key
    · rw [List.filter_cons_of_pos (by simp [hm, hkey]), List.find?_cons_of_pos (by simp [hm]),
        List.find?_cons_of_pos (by simp [hm])]
    · rw [List.find?_cons_of_neg (by simp [hm]), ← ih]
      cases hvolatile : isVolatile m.1 with
      | true => rw [List.filter_cons_of_neg (by simp [hvolatile])]
      | false =>
        rw [List.filter_cons_of_pos (by simp [hvolatile]), List.find?_cons_of_neg (by simp [hm])]

theorem find?_varied {fields fields' : Row} (h : List.Forall₂ FieldVaried fields fields')
    (hkey : key ∈ readKeys) : find? fields key = find? fields' key := by
  unfold find?
  induction h with
  | nil => rfl
  | @cons a b as bs hfield _ ih =>
    obtain ⟨hname, hvalue⟩ := hfield
    by_cases ha : a.1 = key
    · rw [List.find?_cons_of_pos (by simp [ha]), List.find?_cons_of_pos (by simp [← hname, ha])]
      have hsame := hvalue.resolve_right fun hno => hno.1 (ha ▸ hkey)
      rw [Option.map_some, Option.map_some, hsame]
    · rw [List.find?_cons_of_neg (by simp [ha]), List.find?_cons_of_neg (by simp [← hname, ha])]
      exact ih

theorem field_varied (h : RowVaried raw raw') (hkey : key ∈ readKeys) :
    field raw key = field raw' key := by
  have hvolatile : ∀ key ∈ readKeys, isVolatile key = false := by decide
  unfold field
  rw [← @find?_steady raw key (hvolatile key hkey), ← @find?_steady raw' key (hvolatile key hkey),
    find?_varied h hkey]

theorem stableProperties_varied (h : RowVaried raw raw') (excluded : List String) :
    stableProperties raw excluded = stableProperties raw' excluded := by
  have hsplit : ∀ raw : Row, (raw.filter fun m => !isVolatile m.1 && !excluded.contains m.1) =
      (steady raw).filter fun m => !excluded.contains m.1 := fun raw => by
    unfold steady
    rw [List.filter_filter]
    exact List.filter_congr fun m _ => Bool.and_comm _ _
  unfold stableProperties
  rw [hsplit, hsplit]
  refine congrArg sortKeys ?_
  unfold RowVaried at h
  generalize steady raw = fields, steady raw' = fields' at h ⊢
  induction h with
  | nil => rfl
  | @cons a b as bs hfield _ ih =>
    obtain ⟨hname, hvalue⟩ := hfield
    have hstable : stableValue a.2 = stableValue b.2 :=
      hvalue.elim (congrArg stableValue) And.right
    by_cases ha : a.1 ∈ excluded
    · rw [List.filter_cons_of_neg (by simpa using ha),
        List.filter_cons_of_neg (by simpa [← hname] using ha), ih]
    · rw [List.filter_cons_of_pos (by simpa using ha),
        List.filter_cons_of_pos (by simpa [← hname] using ha), List.map_cons, List.map_cons, ih,
        hname, hstable]

/-- A row that varies is projected to the same. -/
theorem nodeRow_varied (h : RowVaried raw raw') : nodeRow py label raw = nodeRow py label raw' := by
  have hfield : ∀ key ∈ readKeys, field raw key = field raw' key := fun key => field_varied h
  have hidentity : ∀ label, nodeIdentity py raw label = nodeIdentity py raw' label := by
    intro label
    unfold nodeIdentity
    simp only [hfield "logical_callsite_id" (by decide), hfield "site_id" (by decide),
      hfield "callsite_id" (by decide), hfield "caller_id" (by decide),
      hfield "caller_file" (by decide), hfield "file_path" (by decide),
      hfield "call_start_byte" (by decide), hfield "ordinal" (by decide),
      hfield "id" (by decide), hfield "symbol_id" (by decide), hfield "logical_id" (by decide),
      hfield "qualified_name" (by decide), hfield "name" (by decide),
      hfield "type_signature" (by decide), hfield "start_byte" (by decide),
      hfield "start_line" (by decide)]
  have hspan : (spanKeys.mapM fun key => py.int (either (field raw key) (.int 0))) =
      spanKeys.mapM fun key => py.int (either (field raw' key) (.int 0)) := by
    simp only [spanKeys, List.mapM_cons, List.mapM_nil, hfield "start_byte" (by decide),
      hfield "end_byte" (by decide), hfield "start_line" (by decide),
      hfield "end_line" (by decide)]
  unfold nodeRow
  simp only [hfield "label" (by decide), hidentity, hspan, stableProperties_varied h]

theorem relationRow_varied (h : RowVaried raw raw') :
    relationRow py raw = relationRow py raw' := by
  have hfield : ∀ key ∈ readKeys, field raw key = field raw' key := fun key => field_varied h
  unfold relationRow
  simp only [hfield "rel_type" (by decide), hfield "source_label" (by decide),
    hfield "source_id" (by decide), hfield "target_label" (by decide),
    hfield "target_id" (by decide), stableProperties_varied h]

theorem scalarRow_varied {entry entry' : String × Json} (h : EntryVaried entry entry') :
    scalarRow label entry = scalarRow label entry' := by
  unfold scalarRow
  rw [h.1, h.2]

/-! ## Payloads that vary -/

theorem mapM_forall₂ {α β : Type} {varied : α → α → Prop} {f : α → Except String β}
    {l l' : List α} (hsame : ∀ a b, varied a b → f a = f b) (h : List.Forall₂ varied l l') :
    l.mapM f = l'.mapM f := by
  induction h with
  | nil => rfl
  | cons hab _ ih => rw [List.mapM_cons, List.mapM_cons, hsame _ _ hab, ih]

theorem mapM_perm {α β : Type} {f : α → Except String β} {l l' : List α} (h : l.Perm l')
    {out : List β} (hout : l.mapM f = .ok out) : ∃ out', l'.mapM f = .ok out' ∧ out.Perm out' := by
  induction h generalizing out with
  | nil => exact ⟨out, hout, .refl _⟩
  | cons a _ ih =>
    rw [List.mapM_cons] at hout
    obtain ⟨b, hb, hout⟩ := Fallible.bind_ok.mp hout
    obtain ⟨bs, hbs, hout⟩ := Fallible.bind_ok.mp hout
    obtain rfl := Except.ok.inj hout
    obtain ⟨bs', hbs', hperm⟩ := ih hbs
    refine ⟨b :: bs', ?_, hperm.cons b⟩
    rw [List.mapM_cons, hb, hbs']
    rfl
  | swap a a' l =>
    simp only [List.mapM_cons] at hout ⊢
    obtain ⟨b, hb, hout⟩ := Fallible.bind_ok.mp hout
    obtain ⟨rest, hrest, hout⟩ := Fallible.bind_ok.mp hout
    obtain ⟨b', hb', hrest⟩ := Fallible.bind_ok.mp hrest
    obtain ⟨bs, hbs, hrest⟩ := Fallible.bind_ok.mp hrest
    obtain rfl := Except.ok.inj hrest
    obtain rfl := Except.ok.inj hout
    refine ⟨b' :: b :: bs, ?_, .swap _ _ _⟩
    rw [hb', hb, hbs]
    rfl
  | trans _ _ ih ih' =>
    obtain ⟨out', hout', hperm⟩ := ih hout
    obtain ⟨out'', hout'', hperm'⟩ := ih' hout'
    exact ⟨out'', hout'', hperm.trans hperm'⟩

theorem map_forall₂ {α β : Type} {varied : α → α → Prop} {f : α → β} {l l' : List α}
    (hsame : ∀ a b, varied a b → f a = f b) (h : List.Forall₂ varied l l') :
    l.map f = l'.map f := by
  induction h with
  | nil => rfl
  | cons hab _ ih => rw [List.map_cons, List.map_cons, hsame _ _ hab, ih]

/-- Rows that vary are projected to the same rows, in another order. -/
theorem map_varied {α β : Type} {varied : α → α → Prop} {f : α → β}
    (hsame : ∀ a b, varied a b → f a = f b) {rows rows' : Except String (List α)} {l : List α}
    (h : RowsVaried varied rows rows') (hl : rows = .ok l) :
    ∃ l', rows' = .ok l' ∧ (l.map f).Perm (l'.map f) := by
  obtain ⟨k, k', l', hk, hl', hperm, hvaried⟩ := h
  obtain rfl := Except.ok.inj (hl.symm.trans hk)
  exact ⟨l', hl', (hperm.map f).trans (.of_eq (map_forall₂ hsame hvaried))⟩

/-- **A varied payload has the same projection**, in another order. -/
theorem projection_of_varied {payload payload' : Row} {rows : List ProjectionRow}
    (h : Varied py payload payload') (hrows : canonicalStructuralProjection py payload = .ok rows) :
    ∃ rows', canonicalStructuralProjection py payload' = .ok rows' ∧ rows.Perm rows' := by
  obtain ⟨nodes, hnodes, hrest⟩ := Fallible.bind_ok.mp hrows
  obtain ⟨relations, hrelations, hrest⟩ := Fallible.bind_ok.mp hrest
  obtain ⟨includes, hincludes, hrest⟩ := Fallible.bind_ok.mp hrest
  obtain rfl := Except.ok.inj hrest
  have hcollections : ∀ (cs : List (String × String)) (nodes : List (List ProjectionRow)),
      (∀ c ∈ cs, RowsVaried RowVaried (collectionRows payload c.1) (collectionRows payload' c.1)) →
      (cs.mapM fun (collection, label) => do
        let rows ← collectionRows payload collection
        rows.mapM (nodeRow py label)) = .ok nodes →
      ∃ nodes', (cs.mapM fun (collection, label) => do
        let rows ← collectionRows payload' collection
        rows.mapM (nodeRow py label)) = .ok nodes' ∧ nodes.flatten.Perm nodes'.flatten := by
    intro cs
    induction cs with
    | nil => exact fun nodes _ hnodes => ⟨nodes, hnodes, .refl _⟩
    | cons c cs ih =>
      intro nodes hvaried hnodes
      obtain ⟨hc, hcs⟩ := List.forall_mem_cons.mp hvaried
      rw [List.mapM_cons] at hnodes
      obtain ⟨first, hfirst, hnodes⟩ := Fallible.bind_ok.mp hnodes
      obtain ⟨rest, hrest, hnodes⟩ := Fallible.bind_ok.mp hnodes
      obtain rfl := Except.ok.inj hnodes
      obtain ⟨rest', hrest', hperm⟩ := ih rest hcs hrest
      obtain ⟨l, hl, hfirst⟩ := Fallible.bind_ok.mp hfirst
      obtain ⟨k, k', l', hk, hl', hpermuted, hrows⟩ := hc
      obtain rfl := Except.ok.inj (hl.symm.trans hk)
      obtain ⟨first', hfirst', hpermfirst⟩ := mapM_perm hpermuted hfirst
      rw [mapM_forall₂ (fun _ _ h => nodeRow_varied h) hrows] at hfirst'
      refine ⟨first' :: rest', ?_, ?_⟩
      · rw [List.mapM_cons, hrest']
        dsimp only
        rw [hl']
        show ((l'.mapM (nodeRow py c.2)) >>= _) = _
        rw [hfirst']
        rfl
      · rw [List.flatten_cons, List.flatten_cons]
        exact hpermfirst.append hperm
  obtain ⟨nodes', hnodes', hpermnodes⟩ := hcollections _ nodes h.collections hnodes
  have hmappings : (iterate (field payload "relations")).map mappings =
      .ok (mappings relations) := by
    rw [hrelations]
    rfl
  obtain ⟨found, hfound, hpermrelations⟩ :=
    map_varied (f := relationRow py) (fun _ _ h => relationRow_varied h) h.relations hmappings
  obtain ⟨includes', hincludes', hpermincludes⟩ :=
    map_varied (f := scalarRow "Include") (fun _ _ h => scalarRow_varied h) h.includes hincludes
  cases hrelations' : iterate (field payload' "relations") with
  | error message =>
    rw [hrelations'] at hfound
    cases hfound
  | ok relations' =>
    rw [hrelations'] at hfound
    obtain rfl := Except.ok.inj hfound
    refine ⟨_, ?_, (hpermnodes.append hpermrelations).append hpermincludes⟩
    unfold canonicalStructuralProjection
    rw [hnodes', hrelations', hincludes']
    rfl

theorem build_ok {payloads : Stage → Row} {artifact : Artifact} :
    buildDifferentialArtifact py payloads = .ok artifact ↔
      ∃ stages, (∀ stage, canonicalStructuralProjection py (payloads stage) = .ok (stages stage)) ∧
        artifact = artifactOf stages := by
  constructor
  · intro h
    obtain ⟨rawTreeSitter, hraw, h⟩ := Fallible.bind_ok.mp h
    obtain ⟨rawClang, hclang, h⟩ := Fallible.bind_ok.mp h
    obtain ⟨validated, hvalidated, h⟩ := Fallible.bind_ok.mp h
    obtain ⟨persisted, hpersisted, h⟩ := Fallible.bind_ok.mp h
    obtain rfl := Except.ok.inj h
    refine ⟨_, fun stage => ?_, rfl⟩
    cases stage with
    | rawTreeSitter => exact hraw
    | rawClang => exact hclang
    | validatedTreeSitter => exact hvalidated
    | persistedTreeSitter => exact hpersisted
  · rintro ⟨stages, hstages, rfl⟩
    unfold buildDifferentialArtifact
    rw [hstages, hstages, hstages, hstages]
    refine congrArg (fun stages => Except.ok (artifactOf stages)) (funext fun stage => ?_)
    cases stage <;> rfl

/-- **The gate**: it passes exactly when the three projections of Tree-sitter are the same, no stage
has two rows with one key, and no function is lost to Clang; and the verdict does not change when
the payloads vary. -/
theorem gate {payloads : Stage → Row} {artifact : Artifact}
    (h : buildDifferentialArtifact py payloads = .ok artifact) :
    (∃ stages : Stage → List ProjectionRow,
      (∀ stage, canonicalStructuralProjection py (payloads stage) = .ok (stages stage)) ∧
      (artifact.passed = true ↔
        (stages .rawTreeSitter).Perm (stages .validatedTreeSitter) ∧
        (stages .validatedTreeSitter).Perm (stages .persistedTreeSitter) ∧
        (∀ stage, ((stages stage).map ProjectionRow.key).Nodup) ∧
        ∀ row ∈ stages .rawTreeSitter, row.key.kind = .node → row.key.label = "Function" →
          row.key ∈ (stages .rawClang).map ProjectionRow.key)) ∧
    ∀ payloads' : Stage → Row, (∀ stage, Varied py (payloads stage) (payloads' stage)) →
      ∃ artifact', buildDifferentialArtifact py payloads' = .ok artifact' ∧
        artifact'.passed = artifact.passed := by
  obtain ⟨stages, hstages, rfl⟩ := build_ok.mp h
  refine ⟨⟨stages, hstages, passed_iff.trans ⟨fun hadmitted => ?_, fun hall => ?_⟩⟩,
    fun payloads' hvaried => ?_⟩
  · exact ⟨hadmitted.validated, hadmitted.persisted, hadmitted.distinct, hadmitted.inventory⟩
  · exact ⟨hall.1, hall.2.1, hall.2.2.1, hall.2.2.2⟩
  · choose stages' hstages' hperm using fun stage =>
      projection_of_varied (hvaried stage) (hstages stage)
    refine ⟨artifactOf stages', build_ok.mpr ⟨stages', hstages', rfl⟩, Bool.eq_iff_iff.mpr ?_⟩
    rw [passed_iff, passed_iff]
    exact ⟨Admitted.perm fun stage => (hperm stage).symm, Admitted.perm hperm⟩

/-! ## Samples -/

/-- `str` of a dict with two texts. -/
def samplePython : Python where
  sha256Hex := id
  reprContainer
    | .obj [(a, .str b), (c, .str d)] =>
      "\x7b'" ++ a ++ "': '" ++ b ++ "', '" ++ c ++ "': '" ++ d ++ "'\x7d"
    | _ => ""
  casefold := id
  parseInt _ := .error ""

/-- A function with a comment, and an include. -/
def samplePayload (comment : String) (header : Json) : Row :=
  [("functions", .arr [.obj [("id", .str "f"), ("start_byte", .int 7), ("comment", .str comment)]]),
    ("includes", .arr [header])]

def sampleRows : List ProjectionRow :=
  [⟨⟨.node, "Function", .text "f"⟩, [7, 0, 0, 0], .obj []⟩,
    ⟨⟨.node, "Include", .text "a.h"⟩, [0, 0, 0, 0], .str "a.h"⟩]

theorem sample_varied :
    Varied samplePython (samplePayload "old" (.str "a.h")) (samplePayload "new" (.str "a.h")) where
  collections c hc := by
    have hempty : ∀ c ∈ structuralCollections, c.1 ≠ "functions" →
        collectionRows (samplePayload "old" (.str "a.h")) c.1 = .ok [] ∧
          collectionRows (samplePayload "new" (.str "a.h")) c.1 = .ok [] := by
      decide +kernel
    by_cases hfunctions : c.1 = "functions"
    · rw [hfunctions]
      have hsteady : ∀ comment, steady [("id", .str "f"), ("start_byte", .int 7),
          ("comment", .str comment)] = [("id", .str "f"), ("start_byte", .int 7)] := fun _ => rfl
      refine ⟨_, _, _, rfl, rfl, .refl _, .cons ?_ .nil⟩
      unfold RowVaried
      rw [hsteady, hsteady]
      exact .cons ⟨rfl, .inl rfl⟩ (.cons ⟨rfl, .inl rfl⟩ .nil)
    · obtain ⟨hold, hnew⟩ := hempty c hc hfunctions
      exact ⟨[], [], [], hold, hnew, .refl _, .nil⟩
  relations := ⟨[], [], [], rfl, rfl, .refl _, .nil⟩
  includes := ⟨_, _, _, rfl, rfl, .refl _, .cons ⟨rfl, rfl⟩ .nil⟩

theorem gate_sample :
    ∃ artifact artifact',
      buildDifferentialArtifact samplePython (fun _ => samplePayload "old" (.str "a.h")) =
        .ok artifact ∧
      buildDifferentialArtifact samplePython (fun _ => samplePayload "new" (.str "a.h")) =
        .ok artifact' ∧ artifact'.passed = artifact.passed := by
  have hrows : canonicalStructuralProjection samplePython (samplePayload "old" (.str "a.h")) =
      .ok sampleRows := by
    decide +kernel
  have hbuild : buildDifferentialArtifact samplePython
      (fun _ => samplePayload "old" (.str "a.h")) = .ok (artifactOf fun _ => sampleRows) :=
    build_ok.mpr ⟨fun _ => sampleRows, fun _ => hrows, rfl⟩
  obtain ⟨artifact', hbuild', hsame⟩ := (gate hbuild).2 _ fun _ => sample_varied
  exact ⟨_, artifact', hbuild, hbuild', hsame⟩

/-- An include that is a dict has its comment in its identity, and the verdict changes with it. -/
theorem include_comment_counts :
    (buildDifferentialArtifact samplePython fun _ =>
        samplePayload "" (.obj [("path", .str "a.h"), ("comment", .str "x")])).map
          Artifact.passed = .ok true ∧
    (buildDifferentialArtifact samplePython fun stage =>
        samplePayload "" (.obj [("path", .str "a.h"), ("comment", .str
          (if stage = .validatedTreeSitter then "y" else "x"))])).map
            Artifact.passed = .ok false := by
  decide +kernel

end CortexHarness.Differential
