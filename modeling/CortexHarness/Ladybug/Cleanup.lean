import CortexHarness.Ladybug.Refinement

/-!
# The clean-up of files

Model of `cleanup_neo4j_for_files` in `code-tiny/tools/common/incremental_cleanup.py`: what a sync
removes of the files that changed, once through the schema-less Cypher and once through
`LadybugDBDriver`, which deletes label by label and reads the typed columns only.

Results: `mem_cleanupLadybug` and `mem_cleanupCypher`: the nodes that each path leaves;
`cleanup_refines_iff`: exactly when both leave nothing behind, remove nothing else, and agree.

Model notes:

* A statement of the embedded engine fails by `Faults`, one of the server by `QueryFaults`.
* The schema-less path runs on the same nodes, through the properties they read back as.
* `UNKNOWN_CALL` leads from a caller to an `UnknownFunction`; no `UnknownFunction` is a caller.
-/

namespace CortexHarness.Ladybug

open Json

/-! ## Graphs -/

/-- A live node table: its label, its primary key and its columns. -/
structure Header where
  label : String
  spec : String × List String
  sound : SpecSound spec

structure Table where
  header : Header
  nodes : List Node

/-- The label and the primary key of a node. -/
abbrev NodeId := String × String

structure Rel where
  type : String
  source : NodeId
  target : NodeId
  caller : type = "UNKNOWN_CALL" → source.1 ≠ "UnknownFunction"

structure Graph where
  tables : List Table
  rels : List Rel

/-- A node with its table. -/
abbrev Entry := Header × Node

def entryId (e : Entry) : NodeId := (e.1.label, e.2.key)

def Graph.entries (g : Graph) : List Entry :=
  g.tables.flatMap fun t => t.nodes.map fun n => (t.header, n)

/-- `_normalize_files` -/
def normalizeFiles (paths : List String) : List String :=
  ((paths.filter (· ≠ "")).map slashes).eraseDups

/-- What `cleanup_neo4j_for_files` returns. -/
structure CleanupCounts where
  deletedNodes : Nat
  deletedUnknownFunctions : Nat

/-! ## The typed path -/

section Typed

/-- The statements of the embedded engine that fail. -/
structure Faults where
  showTables : Bool
  tableInfo : String → Bool
  delete : String → Bool
  prune : Bool

variable (faults : Faults) (projectId : String) (paths : List String)

/-- The columns that `TABLE_INFO` lists. -/
def existing (h : Header) : List String := h.spec.1 :: h.spec.2

/-- ``n.`column` `` -/
def columnValue (h : Header) (n : Node) (column : String) : Json :=
  if column = h.spec.1 then .str n.key
  else if column ∈ h.spec.2 then n.columns column
  else .null

/-- `value IN $paths` -/
def inPaths (value : Json) : Bool :=
  match value with
  | .str s => s ∈ paths
  | _ => false

def matchColumns (h : Header) : List String :=
  ["file_path", "path"].filter (· ∈ existing h) ++
    if h.label = "File" ∧ "id" ∈ existing h then ["id"] else []

/-- The `WHERE` of the deletion from one table. -/
def columnsMatch (h : Header) (n : Node) : Bool :=
  isText (columnValue h n "project_id") projectId &&
    (matchColumns h).any fun column => inPaths paths (columnValue h n column)

/-- One table of `_delete_project_nodes_by_paths_sync`, and the number of nodes it lost. -/
def deleteFromTable (t : Table) : Table × Nat :=
  if faults.tableInfo t.header.label then (t, 0)
  else if "project_id" ∉ existing t.header then (t, 0)
  else if matchColumns t.header = [] then (t, 0)
  else if faults.delete t.header.label then (t, 0)
  else
    ({ t with nodes := t.nodes.filter fun n => !columnsMatch projectId paths t.header n },
      t.nodes.countP (columnsMatch projectId paths t.header))

/-- `DETACH`: the relations between nodes that are there. -/
def detach (g : Graph) : Graph :=
  { g with rels := g.rels.filter fun r =>
      r.source ∈ g.entries.map entryId && r.target ∈ g.entries.map entryId }

/-- `_delete_project_nodes_by_paths_sync` -/
def deleteProjectNodesByPathsSync (g : Graph) : Graph × Nat :=
  let labels := if faults.showTables then [] else g.tables
  let cleaned := labels.map (deleteFromTable faults projectId paths)
  (detach { g with tables := if faults.showTables then g.tables else cleaned.map Prod.fst },
    (cleaned.map Prod.snd).sum)

/-- Some node of the graph calls the node. -/
def isCalled (rels : List Rel) (id : NodeId) : Bool :=
  rels.any fun r => r.type = "UNKNOWN_CALL" && r.target = id

/-- The nodes that the prune statement deletes. -/
def isOrphan (rels : List Rel) (id : NodeId) : Bool :=
  id.1 = "UnknownFunction" && !isCalled rels id

/-- `_prune_orphan_unknown_functions_sync` -/
def pruneOrphanUnknownFunctionsSync (g : Graph) : Graph × Nat :=
  if faults.prune then (g, 0)
  else
    (detach { g with tables := g.tables.map fun t =>
        { t with nodes := t.nodes.filter fun n => !isOrphan g.rels (entryId (t.header, n)) } },
      g.entries.countP fun e => isOrphan g.rels (entryId e))

/-- `cleanup_neo4j_for_files` on the embedded graph. -/
def cleanupLadybug (filePaths : List String) (g : Graph) : Graph × CleanupCounts :=
  let paths := normalizeFiles filePaths
  if paths = [] then (g, { deletedNodes := 0, deletedUnknownFunctions := 0 })
  else
    let deleted := deleteProjectNodesByPathsSync faults projectId paths g
    let pruned := pruneOrphanUnknownFunctionsSync faults deleted.1
    (pruned.1, { deletedNodes := deleted.2, deletedUnknownFunctions := pruned.2 })

end Typed

/-! ## The schema-less path -/

section SchemaLess

/-- A graph of nodes that have an identity and properties. -/
structure PropGraph (ν : Type) where
  nodes : List ν
  rels : List Rel

/-- The queries of the server that raise. -/
structure QueryFaults where
  delete : Bool
  prune : Bool

variable {ν : Type} (id : ν → NodeId) (props : ν → Props) (projectId : String)

/-- `coalesce(value, '') IN paths` -/
def coalesceInPaths (paths : List String) : Json → Bool
  | .null => "" ∈ paths
  | value => inPaths paths value

/-- The `WHERE` of `delete_query`. -/
def propsMatch (paths : List String) (v : ν) : Bool :=
  isText (props v "project_id") projectId &&
    (coalesceInPaths paths (props v "file_path") || coalesceInPaths paths (props v "path") ||
      ((id v).1 = "File" && inPaths paths (props v "id")))

/-- `DETACH DELETE` of the nodes that `p` selects. -/
def detachDelete (p : ν → Bool) (g : PropGraph ν) : PropGraph ν :=
  let nodes := g.nodes.filter fun v => !p v
  { nodes, rels := g.rels.filter fun r => r.source ∈ nodes.map id && r.target ∈ nodes.map id }

/-- `cleanup_neo4j_for_files` through Cypher, `none` where a query raises. -/
def cleanupCypher (faults : QueryFaults) (filePaths : List String) (g : PropGraph ν) :
    Option (PropGraph ν × CleanupCounts) :=
  let paths := normalizeFiles filePaths
  if paths = [] then some (g, { deletedNodes := 0, deletedUnknownFunctions := 0 })
  else if faults.delete then none
  else
    let deleted := detachDelete id (propsMatch id props projectId paths) g
    if faults.prune then none
    else
      let orphan (v : ν) := isOrphan deleted.rels (id v)
      some (detachDelete id orphan deleted, {
        deletedNodes := g.nodes.countP (propsMatch id props projectId paths)
        deletedUnknownFunctions := deleted.nodes.countP orphan })

end SchemaLess

/-- The properties that a node reads back as. -/
def entryProps (b : Builtins) (e : Entry) : Props := field (readBack b e.1.spec e.2)

def Graph.schemaLess (g : Graph) : PropGraph Entry := { nodes := g.entries, rels := g.rels }

/-! ## What a clean-up promises -/

section Promise

variable {ν : Type} (id : ν → NodeId)

/-- Some node of `nodes` calls the node. -/
def Called (rels : List Rel) (nodes : List ν) (v : ν) : Prop :=
  ∃ r ∈ rels, r.type = "UNKNOWN_CALL" ∧ r.target = id v ∧ r.source ∈ nodes.map id

/-- A clean-up that leaves `after` removed the listed nodes, and beside them only functions that are
unknown and that no node calls. -/
structure Complete (listed : ν → Prop) (g : PropGraph ν) (after : List ν) : Prop where
  gone : ∀ v ∈ after, ¬ listed v
  only : ∀ v ∈ g.nodes, v ∉ after →
    listed v ∨ (id v).1 = "UnknownFunction" ∧ ¬ Called id g.rels after v

/-- A node of the project whose `file_path` or `path`, or whose `id` if it is a file, is listed. -/
def Listed (b : Builtins) (projectId : String) (filePaths : List String) (e : Entry) : Prop :=
  entryProps b e "project_id" = .str projectId ∧
    ∃ path ∈ filePaths, entryProps b e "file_path" = .str path ∨
      entryProps b e "path" = .str path ∨
      e.1.label = "File" ∧ entryProps b e "id" = .str path

/-- **What the clean-up promises**: on either path it is complete, and both leave the same nodes. -/
def CleanupRefines (b : Builtins) (faults : Faults) (projectId : String) (filePaths : List String)
    (g : Graph) : Prop :=
  let typed := (cleanupLadybug faults projectId filePaths g).1.entries
  Complete entryId (Listed b projectId filePaths) g.schemaLess typed ∧
    ∀ queries after counts,
      cleanupCypher entryId (entryProps b) projectId queries filePaths g.schemaLess =
          some (after, counts) →
        Complete entryId (Listed b projectId filePaths) g.schemaLess after.nodes ∧
          ∀ e ∈ g.entries, e ∈ typed ↔ e ∈ after.nodes

end Promise

/-! ## The condition -/

section Condition

variable (b : Builtins) (faults : Faults) (projectId : String) (filePaths : List String)

/-- The statements of the node's table succeed, and its columns match. -/
def typedMatch (e : Entry) : Bool :=
  !faults.showTables && !faults.tableInfo e.1.label && !faults.delete e.1.label &&
    decide ("project_id" ∈ existing e.1) && columnsMatch projectId (normalizeFiles filePaths) e.1 e.2

/-- An unknown function whose callers are all listed, so that the prune statement removes it. -/
def CallersListed (g : Graph) (e : Entry) : Prop :=
  normalizeFiles filePaths ≠ [] ∧ e.1.label = "UnknownFunction" ∧
    ∀ r ∈ g.rels, r.type = "UNKNOWN_CALL" → r.target = entryId e →
      ∀ caller ∈ g.entries, entryId caller = r.source → Listed b projectId filePaths caller

/-- A node is matched by either path when it is listed; of an unknown function that loses its
callers, the typed path need only remove it at all. -/
def CleanupCovered (g : Graph) : Prop :=
  ∀ e ∈ g.entries,
    (CallersListed b projectId filePaths g e →
      faults.prune = false ∨ typedMatch faults projectId filePaths e = true) ∧
    (¬ CallersListed b projectId filePaths g e →
      (typedMatch faults projectId filePaths e = true ↔ Listed b projectId filePaths e) ∧
      (propsMatch entryId (entryProps b) projectId (normalizeFiles filePaths) e = true ↔
        Listed b projectId filePaths e))

end Condition

/-! ## The nodes that remain -/

section Remaining

variable {ν : Type} {id : ν → NodeId}

/-- The nodes that a deletion of the matched nodes leaves, and a prune after it. -/
def Remains (id : ν → NodeId) (matched : ν → Bool) (prunes : Prop) (g : PropGraph ν) (v : ν) : Prop :=
  v ∈ g.nodes ∧ matched v = false ∧
    ¬ (prunes ∧ (id v).1 = "UnknownFunction" ∧
      ¬ Called id g.rels (g.nodes.filter fun v => !matched v) v)

theorem isOrphan_iff {rels : List Rel} {nodes : List ν} {v : ν} (hv : v ∈ nodes) :
    isOrphan (rels.filter fun r => r.source ∈ nodes.map id && r.target ∈ nodes.map id) (id v) = true ↔
      (id v).1 = "UnknownFunction" ∧ ¬ Called id rels nodes v := by
  have htarget : id v ∈ nodes.map id := List.mem_map_of_mem hv
  have hcalled : isCalled (rels.filter fun r =>
      r.source ∈ nodes.map id && r.target ∈ nodes.map id) (id v) = true ↔ Called id rels nodes v := by
    unfold isCalled Called
    rw [List.any_eq_true]
    constructor
    · rintro ⟨r, hr, hcall⟩
      rw [List.mem_filter] at hr
      simp only [Bool.and_eq_true, decide_eq_true_eq] at hr hcall
      exact ⟨r, hr.1, hcall.1, hcall.2, hr.2.1⟩
    · rintro ⟨r, hr, htype, hto, hfrom⟩
      refine ⟨r, List.mem_filter.mpr ⟨hr, ?_⟩, by simp [htype, hto]⟩
      rw [hto]
      simp [hfrom, htarget]
  unfold isOrphan
  rw [Bool.and_eq_true, decide_eq_true_eq, Bool.not_eq_true', ← hcalled, Bool.not_eq_true]

/-- **The nodes that the schema-less path leaves.** -/
theorem mem_cleanupCypher {props : ν → Props} {projectId : String} {faults : QueryFaults}
    {filePaths : List String} {g after : PropGraph ν} {counts : CleanupCounts}
    (h : cleanupCypher id props projectId faults filePaths g = some (after, counts))
    (hpaths : normalizeFiles filePaths ≠ []) (v : ν) :
    v ∈ after.nodes ↔
      Remains id (propsMatch id props projectId (normalizeFiles filePaths)) True g v := by
  unfold cleanupCypher at h
  rw [if_neg hpaths] at h
  split at h
  · cases h
  · split at h
    · cases h
    · obtain ⟨rfl, -⟩ := Prod.mk.inj (Option.some.inj h)
      simp only [detachDelete, Remains, true_and]
      rw [List.mem_filter]
      constructor
      · rintro ⟨hmem, horphan⟩
        rw [Bool.not_eq_true', ← Bool.not_eq_true, isOrphan_iff hmem] at horphan
        rw [List.mem_filter] at hmem
        exact ⟨hmem.1, by simpa using hmem.2, horphan⟩
      · rintro ⟨hmem, hmatch, horphan⟩
        have hkept : v ∈ g.nodes.filter
            fun v => !propsMatch id props projectId (normalizeFiles filePaths) v :=
          List.mem_filter.mpr ⟨hmem, by simp [hmatch]⟩
        refine ⟨hkept, ?_⟩
        rw [Bool.not_eq_true', ← Bool.not_eq_true, isOrphan_iff hkept]
        exact horphan

theorem entries_filter (tables : List Table) (rels : List Rel) (p : Header → Node → Bool) :
    Graph.entries {
        tables := tables.map fun t => { t with nodes := t.nodes.filter fun n => !p t.header n }
        rels } =
      (Graph.entries { tables, rels }).filter fun e => !p e.1 e.2 := by
  unfold Graph.entries
  rw [List.flatMap_map, List.filter_flatMap]
  refine List.flatMap_congr fun t _ => ?_
  rw [List.filter_map]
  rfl

theorem deleteFromTable_eq {faults : Faults} (projectId : String) (filePaths : List String)
    (hshown : faults.showTables = false) (t : Table) :
    (deleteFromTable faults projectId (normalizeFiles filePaths) t).1 = { t with
      nodes := t.nodes.filter fun n => !typedMatch faults projectId filePaths (t.header, n) } := by
  have hkeep : ∀ {p : Node → Bool}, (∀ n, p n = false) → t.nodes.filter (fun n => !p n) = t.nodes :=
    fun hp => List.filter_eq_self.mpr fun n _ => by simp [hp]
  unfold deleteFromTable
  split
  · next hinfo => rw [hkeep fun n => by simp [typedMatch, hinfo]]
  · next hinfo =>
    split
    · next hproject => rw [hkeep fun n => by simp [typedMatch, hproject]]
    · next hproject =>
      split
      · next hcolumns => rw [hkeep fun n => by simp [typedMatch, columnsMatch, hcolumns]]
      · split
        · next hdelete => rw [hkeep fun n => by simp [typedMatch, hdelete]]
        · next hdelete =>
          rw [not_not] at hproject
          simp [typedMatch, hshown, hinfo, hdelete, hproject]

theorem entries_deleted (faults : Faults) (projectId : String) (filePaths : List String) (g : Graph) :
    (deleteProjectNodesByPathsSync faults projectId (normalizeFiles filePaths) g).1.entries =
      g.entries.filter fun e => !typedMatch faults projectId filePaths e := by
  unfold deleteProjectNodesByPathsSync
  cases hshown : faults.showTables with
  | true =>
    symm
    exact List.filter_eq_self.mpr fun e _ => by simp [typedMatch, hshown]
  | false =>
    have htables : ((g.tables.map
        (deleteFromTable faults projectId (normalizeFiles filePaths))).map Prod.fst) =
          g.tables.map fun t => { t with
            nodes := t.nodes.filter fun n => !typedMatch faults projectId filePaths (t.header, n) } := by
      rw [List.map_map]
      exact List.map_congr_left fun t _ => deleteFromTable_eq projectId filePaths hshown t
    have hfilter := entries_filter g.tables g.rels
      fun h n => typedMatch faults projectId filePaths (h, n)
    rw [← htables] at hfilter
    exact hfilter

/-- **The nodes that the typed path leaves.** -/
theorem mem_cleanupLadybug {faults : Faults} {projectId : String} {filePaths : List String} {g : Graph}
    (hpaths : normalizeFiles filePaths ≠ []) (e : Entry) :
    e ∈ (cleanupLadybug faults projectId filePaths g).1.entries ↔
      Remains entryId (typedMatch faults projectId filePaths) (faults.prune = false)
        g.schemaLess e := by
  have hdeleted := entries_deleted faults projectId filePaths g
  have hrels : (deleteProjectNodesByPathsSync faults projectId (normalizeFiles filePaths) g).1.rels =
      g.rels.filter fun r =>
        r.source ∈ (g.entries.filter fun e => !typedMatch faults projectId filePaths e).map entryId &&
        r.target ∈
          (g.entries.filter fun e => !typedMatch faults projectId filePaths e).map entryId := by
    rw [← hdeleted]
    rfl
  unfold cleanupLadybug Remains
  rw [if_neg hpaths]
  simp only [Graph.schemaLess]
  generalize deleteProjectNodesByPathsSync faults projectId (normalizeFiles filePaths) g = deleted
    at hdeleted hrels ⊢
  have hmem : e ∈ deleted.1.entries ↔
      e ∈ g.entries ∧ typedMatch faults projectId filePaths e = false := by
    rw [hdeleted, List.mem_filter, Bool.not_eq_true']
  unfold pruneOrphanUnknownFunctionsSync
  split
  · next hprune => simp [hmem, hprune]
  · next hprune =>
    have hpruned := entries_filter deleted.1.tables deleted.1.rels
      fun h n => isOrphan deleted.1.rels (entryId (h, n))
    simp only [detach, Graph.entries] at hpruned ⊢
    rw [hpruned, List.mem_filter, Bool.not_eq_true', ← Bool.not_eq_true]
    constructor
    · rintro ⟨hin, horphan⟩
      have hkept : e ∈ g.entries.filter fun e => !typedMatch faults projectId filePaths e :=
        hdeleted ▸ hin
      rw [hrels, isOrphan_iff hkept] at horphan
      exact ⟨(hmem.mp hin).1, (hmem.mp hin).2, fun hall => horphan hall.2⟩
    · rintro ⟨hin, hmatch, horphan⟩
      have hkept : e ∈ g.entries.filter fun e => !typedMatch faults projectId filePaths e :=
        hdeleted ▸ hmem.mpr ⟨hin, hmatch⟩
      refine ⟨hmem.mpr ⟨hin, hmatch⟩, ?_⟩
      rw [hrels, isOrphan_iff hkept]
      exact fun hall => horphan ⟨by simpa using hprune, hall⟩

end Remaining

/-! ## Two clean-ups of one graph -/

section Agreement

variable {ν : Type} {id : ν → NodeId} {listed : ν → Prop} {matched typed query : ν → Bool}
  {prunes : Prop} {g : PropGraph ν} {after left right : List ν} {v : ν}

/-- An unknown function whose callers are all listed. -/
def AllListed (id : ν → NodeId) (listed : ν → Prop) (g : PropGraph ν) (v : ν) : Prop :=
  (id v).1 = "UnknownFunction" ∧
    ∀ r ∈ g.rels, r.type = "UNKNOWN_CALL" → r.target = id v →
      ∀ caller ∈ g.nodes, id caller = r.source → listed caller

/-- A node that is no unknown function is matched exactly when it is listed. -/
def MatchesCallers (id : ν → NodeId) (listed : ν → Prop) (matched : ν → Bool) (g : PropGraph ν) :
    Prop :=
  ∀ v ∈ g.nodes, (id v).1 ≠ "UnknownFunction" → (matched v = true ↔ listed v)

theorem Complete.matchesCallers (hafter : ∀ v, v ∈ after ↔ Remains id matched prunes g v)
    (h : Complete id listed g after) : MatchesCallers id listed matched g := by
  intro v hv hlabel
  constructor
  · intro hmatch
    have hgone : v ∉ after := fun hin => by simp [((hafter v).mp hin).2.1] at hmatch
    exact (h.only v hv hgone).resolve_right fun hunknown => hlabel hunknown.1
  · intro hlisted
    by_contra hmatch
    refine h.gone v ((hafter v).mpr ⟨hv, by simpa using hmatch, ?_⟩) hlisted
    exact fun hpruned => hlabel hpruned.2.1

theorem called_kept_iff (hm : MatchesCallers id listed matched g)
    (hlabel : (id v).1 = "UnknownFunction") :
    ¬ Called id g.rels (g.nodes.filter fun v => !matched v) v ↔ AllListed id listed g v := by
  have hcaller : ∀ r ∈ g.rels, r.type = "UNKNOWN_CALL" → ∀ caller ∈ g.nodes, id caller = r.source →
      (matched caller = true ↔ listed caller) := by
    intro r _ htype caller hin hsource
    exact hm caller hin (hsource ▸ r.caller htype)
  constructor
  · intro hfree
    refine ⟨hlabel, fun r hr htype hto caller hin hsource => ?_⟩
    by_contra hlisted
    refine hfree ⟨r, hr, htype, hto, List.mem_map.mpr ⟨caller, List.mem_filter.mpr ⟨hin, ?_⟩, hsource⟩⟩
    rw [← hcaller r hr htype caller hin hsource] at hlisted
    simpa using hlisted
  · rintro ⟨-, hall⟩ ⟨r, hr, htype, hto, hfrom⟩
    obtain ⟨caller, hkept, hsource⟩ := List.mem_map.mp hfrom
    rw [List.mem_filter] at hkept
    have hlisted := hall r hr htype hto caller hkept.1 hsource
    rw [← hcaller r hr htype caller hkept.1 hsource] at hlisted
    simp [hlisted] at hkept

theorem called_of_not_allListed (hafter : ∀ v, v ∈ after ↔ Remains id matched prunes g v)
    (hm : MatchesCallers id listed matched g) (hlabel : (id v).1 = "UnknownFunction")
    (h : ¬ AllListed id listed g v) : Called id g.rels after v := by
  rw [← called_kept_iff hm hlabel, not_not] at h
  obtain ⟨r, hr, htype, hto, hfrom⟩ := h
  obtain ⟨caller, hkept, hsource⟩ := List.mem_map.mp hfrom
  rw [List.mem_filter, Bool.not_eq_true'] at hkept
  refine ⟨r, hr, htype, hto, List.mem_map.mpr ⟨caller, (hafter caller).mpr ⟨hkept.1, hkept.2, ?_⟩,
    hsource⟩⟩
  exact fun hpruned => r.caller htype (hsource ▸ hpruned.2.1)

theorem mem_after_iff (hafter : ∀ v, v ∈ after ↔ Remains id matched prunes g v)
    (hm : MatchesCallers id listed matched g) :
    v ∈ after ↔ v ∈ g.nodes ∧ matched v = false ∧ ¬ (prunes ∧ AllListed id listed g v) := by
  rw [hafter, Remains]
  refine and_congr_right fun _ => and_congr_right fun _ => not_congr (and_congr_right fun _ => ?_)
  constructor
  · rintro ⟨hlabel, hfree⟩
    exact (called_kept_iff hm hlabel).mp hfree
  · intro hall
    exact ⟨hall.1, (called_kept_iff hm hall.1).mpr hall⟩

/-- When a deletion is complete, node by node. -/
theorem complete_iff (hafter : ∀ v, v ∈ after ↔ Remains id matched prunes g v)
    (hm : MatchesCallers id listed matched g) :
    Complete id listed g after ↔ ∀ v ∈ g.nodes,
      (AllListed id listed g v → listed v → prunes ∨ matched v = true) ∧
      (¬ AllListed id listed g v → (matched v = true ↔ listed v)) := by
  have hmem := fun v => mem_after_iff (v := v) hafter hm
  constructor
  · intro h v hv
    have hleft : listed v → matched v = true ∨ prunes ∧ AllListed id listed g v := by
      intro hlisted
      by_contra hnone
      rw [not_or] at hnone
      exact h.gone v ((hmem v).mpr ⟨hv, by simpa using hnone.1, hnone.2⟩) hlisted
    refine ⟨fun _ hlisted => (hleft hlisted).symm.imp_left And.left, fun hall => ⟨?_, ?_⟩⟩
    · intro hmatch
      have hgone : v ∉ after := fun hin => by simp [((hmem v).mp hin).2.1] at hmatch
      refine (h.only v hv hgone).resolve_right fun hfree => ?_
      exact hfree.2 (called_of_not_allListed hafter hm hfree.1 hall)
    · exact fun hlisted => (hleft hlisted).resolve_right fun hpruned => hall hpruned.2
  · intro h
    constructor
    case gone =>
      intro v hin hlisted
      obtain ⟨hv, hmatch, hpruned⟩ := (hmem v).mp hin
      obtain ⟨hyes, hno⟩ := h v hv
      by_cases hall : AllListed id listed g v
      · rcases hyes hall hlisted with hprunes | htrue
        · exact hpruned ⟨hprunes, hall⟩
        · simp [hmatch] at htrue
      · simp [(hno hall).mpr hlisted] at hmatch
    case only =>
      intro v hv hgone
      by_cases hall : AllListed id listed g v
      · refine .inr ⟨hall.1, ?_⟩
        rintro ⟨r, hr, htype, hto, hfrom⟩
        obtain ⟨caller, hkept, hsource⟩ := List.mem_map.mp hfrom
        obtain ⟨hin, hmatch, -⟩ := (hmem caller).mp hkept
        have hlisted := hall.2 r hr htype hto caller hin hsource
        have htrue := (hm caller hin (hsource ▸ r.caller htype)).mpr hlisted
        simp [hmatch] at htrue
      · refine .inl (((h v hv).2 hall).mp ?_)
        by_contra hmatch
        exact hgone ((hmem v).mpr ⟨hv, by simpa using hmatch, fun hpruned => hall hpruned.2⟩)

/-- **Two deletions of one graph, of which the second prunes.** -/
theorem complete_and_agree_iff (hleft : ∀ v, v ∈ left ↔ Remains id typed prunes g v)
    (hright : ∀ v, v ∈ right ↔ Remains id query True g v) :
    (Complete id listed g left ∧ Complete id listed g right ∧
        ∀ v ∈ g.nodes, v ∈ left ↔ v ∈ right) ↔
      ∀ v ∈ g.nodes,
        (AllListed id listed g v → prunes ∨ typed v = true) ∧
        (¬ AllListed id listed g v →
          (typed v = true ↔ listed v) ∧ (query v = true ↔ listed v)) := by
  constructor
  · rintro ⟨htyped, hquery, hagree⟩ v hv
    have hmt := htyped.matchesCallers hleft
    have hmq := hquery.matchesCallers hright
    refine ⟨fun hall => ?_, fun hall => ⟨?_, ?_⟩⟩
    · by_contra hnone
      rw [not_or] at hnone
      have hin : v ∈ left := (mem_after_iff hleft hmt).mpr
        ⟨hv, by simpa using hnone.2, fun hpruned => hnone.1 hpruned.1⟩
      exact ((mem_after_iff hright hmq).mp ((hagree v hv).mp hin)).2.2 ⟨trivial, hall⟩
    · exact ((complete_iff hleft hmt).mp htyped v hv).2 hall
    · exact ((complete_iff hright hmq).mp hquery v hv).2 hall
  · intro h
    have hnotAll : ∀ v, (id v).1 ≠ "UnknownFunction" → ¬ AllListed id listed g v :=
      fun v hlabel hall => hlabel hall.1
    have hmt : MatchesCallers id listed typed g :=
      fun v hv hlabel => ((h v hv).2 (hnotAll v hlabel)).1
    have hmq : MatchesCallers id listed query g :=
      fun v hv hlabel => ((h v hv).2 (hnotAll v hlabel)).2
    refine ⟨(complete_iff hleft hmt).mpr fun v hv => ?_, (complete_iff hright hmq).mpr fun v hv => ?_,
      fun v hv => ?_⟩
    · exact ⟨fun hall _ => (h v hv).1 hall, fun hall => ((h v hv).2 hall).1⟩
    · exact ⟨fun _ _ => .inl trivial, fun hall => ((h v hv).2 hall).2⟩
    · rw [mem_after_iff hleft hmt, mem_after_iff hright hmq]
      by_cases hall : AllListed id listed g v
      · have hyes := (h v hv).1 hall
        constructor
        · rintro ⟨-, hmatch, hpruned⟩
          rcases hyes with hprunes | htrue
          · exact absurd ⟨hprunes, hall⟩ hpruned
          · simp [hmatch] at htrue
        · rintro ⟨-, -, hpruned⟩
          exact absurd ⟨trivial, hall⟩ hpruned
      · obtain ⟨htyped, hquery⟩ := (h v hv).2 hall
        have hsame : typed v = query v := Bool.eq_iff_iff.mpr (htyped.trans hquery.symm)
        simp [hall, hsame]

end Agreement

/-! ## The result -/

section Result

variable (b : Builtins) (faults : Faults) (projectId : String) (filePaths : List String) (g : Graph)

theorem typedMatch_nil (h : normalizeFiles filePaths = []) (e : Entry) :
    typedMatch faults projectId filePaths e = false := by
  have hin : ∀ value, inPaths [] value = false := by
    intro value
    cases value <;> simp [inPaths]
  simp [typedMatch, columnsMatch, h, hin]

theorem propsMatch_nil (h : normalizeFiles filePaths = []) (e : Entry) :
    propsMatch entryId (entryProps b) projectId (normalizeFiles filePaths) e = false := by
  have hin : ∀ value, inPaths [] value = false := by
    intro value
    cases value <;> simp [inPaths]
  have hcoalesce : ∀ value, coalesceInPaths [] value = false := by
    intro value
    cases value <;> simp [coalesceInPaths, hin]
  simp [propsMatch, h, hin, hcoalesce]

/-- **The clean-up keeps its promise exactly under the condition.** -/
theorem cleanup_refines_iff :
    CleanupRefines b faults projectId filePaths g ↔
      CleanupCovered b faults projectId filePaths g := by
  by_cases hpaths : normalizeFiles filePaths = []
  · -- nothing runs, so nothing may be listed
    have htyped := typedMatch_nil faults projectId filePaths hpaths
    have hprops := propsMatch_nil b projectId filePaths hpaths
    rw [hpaths] at hprops
    have hcomplete : Complete entryId (Listed b projectId filePaths) g.schemaLess g.entries ↔
        ∀ e ∈ g.entries, ¬ Listed b projectId filePaths e :=
      ⟨fun h => h.gone, fun h => ⟨h, fun e he hgone => absurd he hgone⟩⟩
    have hcypher : ∀ queries, cleanupCypher entryId (entryProps b) projectId queries filePaths
        g.schemaLess = some (g.schemaLess, ⟨0, 0⟩) := fun queries => if_pos hpaths
    have hcovered : CleanupCovered b faults projectId filePaths g ↔
        ∀ e ∈ g.entries, ¬ Listed b projectId filePaths e := by
      simp [CleanupCovered, CallersListed, hpaths, htyped, hprops]
    rw [hcovered, ← hcomplete]
    simp only [CleanupRefines, cleanupLadybug, if_pos hpaths]
    refine ⟨And.left, fun h => ⟨h, fun queries after counts hafter => ?_⟩⟩
    rw [hcypher] at hafter
    obtain ⟨rfl, -⟩ := Prod.mk.inj (Option.some.inj hafter)
    exact ⟨h, fun e _ => Iff.rfl⟩
  · have hleft := @mem_cleanupLadybug faults projectId filePaths g hpaths
    have hcallers : ∀ e, CallersListed b projectId filePaths g e ↔
        AllListed entryId (Listed b projectId filePaths) g.schemaLess e := by
      intro e
      simp only [CallersListed, AllListed, Ne, hpaths, not_false_eq_true, true_and]
      rfl
    have hcovered : CleanupCovered b faults projectId filePaths g ↔ ∀ e ∈ g.entries,
        (AllListed entryId (Listed b projectId filePaths) g.schemaLess e →
          faults.prune = false ∨ typedMatch faults projectId filePaths e = true) ∧
        (¬ AllListed entryId (Listed b projectId filePaths) g.schemaLess e →
          (typedMatch faults projectId filePaths e = true ↔ Listed b projectId filePaths e) ∧
          (propsMatch entryId (entryProps b) projectId (normalizeFiles filePaths) e = true ↔
            Listed b projectId filePaths e)) := by
      simp only [CleanupCovered, hcallers]
    obtain ⟨result, hresult⟩ : ∃ result, cleanupCypher entryId (entryProps b) projectId
        ⟨false, false⟩ filePaths g.schemaLess = some result := by
      simp [cleanupCypher, hpaths]
    rw [hcovered]
    constructor
    · rintro ⟨htyped, hall⟩
      obtain ⟨hquery, hagree⟩ := hall _ _ _ hresult
      exact (complete_and_agree_iff hleft (mem_cleanupCypher hresult hpaths)).mp
        ⟨htyped, hquery, hagree⟩
    · intro h
      refine ⟨((complete_and_agree_iff hleft (mem_cleanupCypher hresult hpaths)).mpr h).1, ?_⟩
      intro queries after counts hafter
      exact ((complete_and_agree_iff hleft (mem_cleanupCypher hafter hpaths)).mpr h).2

end Result

/-! ## Samples -/

/-- Sample: the table of the servlets, whose columns have no `file_path`. -/
def servletHeader : Header where
  label := "Servlet"
  spec := nodeSpec "Servlet"
  sound := nodeSpec_sound "Servlet"

/-- Sample: a servlet whose `file_path` is in its spill. -/
def spilledServlet : Node where
  key := "servlet:login"
  columns column := if column = "project_id" then .str "bank" else .null
  spill := [("file_path", .str "web/Login.java")]

def spilledGraph : Graph where
  tables := [{ header := servletHeader, nodes := [spilledServlet] }]
  rels := []

def noFaults : Faults where
  showTables := false
  tableInfo _ := false
  delete _ := false
  prune := false

/-- The clean-up of its file leaves the servlet. -/
theorem spilled_servlet_left :
    ¬ CleanupRefines sampleBuiltins noFaults "bank" ["web/Login.java"] spilledGraph := by
  intro h
  have hleft : (servletHeader, spilledServlet) ∈
      (cleanupLadybug noFaults "bank" ["web/Login.java"] spilledGraph).1.entries := by
    exact List.mem_singleton.mpr rfl
  exact h.1.gone _ hleft ⟨rfl, "web/Login.java", by simp, .inl rfl⟩

end CortexHarness.Ladybug
