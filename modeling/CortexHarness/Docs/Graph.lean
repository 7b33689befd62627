import CortexHarness.Docs.Entities
import CortexHarness.Library.Merges

/-!
# The document graph

Model of `ingest_to_graph_batch` in `doc-tiny/graphrag_ingest_langextract.py`: a batch of paragraphs
with their entities and relations is merged into a graph, query by query.

Results:
* `ingest_paragraph`, `ingest_entity`, `ingest_hasEntity`, …: every element that a batch writes has
  the project of the batch, but for the `HAS_PARAGRAPH` relationships (`ingest_hasParagraph_new`);
* `ingest_paragraph_other`, …: what it leaves alone.

Model notes:

* A `MERGE` finds at most one element under its key. The `source_id` and the `paragraph_id` of a
  `HAS_ENTITY` relationship are those of its paragraph, and left out.
* `paragraph_props` has the properties that the structured Excel ingest passes.
-/

namespace CortexHarness.Docs

open Merges

/-! ## Elements -/

/-- The project properties of an element. -/
structure Scope where
  projectId : Option String
  projectIdNormalized : Option String
  deriving DecidableEq

/-- The scope of a project. -/
def Scope.of (projectId projectIdNormalized : String) : Scope where
  projectId := projectId
  projectIdNormalized := projectIdNormalized

/-- `paragraph_props` -/
structure RowProps where
  sheetName : String
  tableId : String
  rowId : String
  rowHash : String
  rowIndex : Nat
  isFooter : Bool
  deriving DecidableEq

structure ParagraphKey where
  sourceId : String
  paragraphId : Nat
  deriving DecidableEq

structure DocumentNode where
  name : String
  scope : Scope
  deriving DecidableEq

structure ParagraphNode where
  text : String
  short : Bool
  scope : Scope
  props : Option RowProps
  deriving DecidableEq

structure EntityNode where
  name : String
  type : String
  nameNorm : String
  scope : Scope
  deriving DecidableEq

/-- A `HAS_ENTITY` relationship. -/
structure HasEntity where
  confidence : Option Rat
  startChar : Option Nat
  endChar : Option Nat
  surface : Option String
  scope : Scope
  deriving DecidableEq

/-- The ends and the merged properties of a `RELATED` relationship. -/
structure RelatedKey where
  source : String
  target : String
  type : String
  sourceId : String
  paragraphId : Nat
  deriving DecidableEq

/-- A document graph: every relationship has its ends. A `HAS_PARAGRAPH` and a `RELATED` relationship
have no further properties than those of a project. -/
structure DocGraph where
  documents : String → Option DocumentNode
  paragraphs : ParagraphKey → Option ParagraphNode
  entities : String → Option EntityNode
  hasParagraph : String × ParagraphKey → Option Scope
  hasEntity : ParagraphKey × String → Option HasEntity
  related : RelatedKey → Option Scope
  hasParagraph_ends : ∀ k, (hasParagraph k).isSome →
    (documents k.1).isSome ∧ (paragraphs k.2).isSome
  hasEntity_ends : ∀ k, (hasEntity k).isSome → (paragraphs k.1).isSome ∧ (entities k.2).isSome
  related_ends : ∀ k, (related k).isSome → (entities k.source).isSome ∧ (entities k.target).isSome

def DocGraph.empty : DocGraph where
  documents := fun _ => none
  paragraphs := fun _ => none
  entities := fun _ => none
  hasParagraph := fun _ => none
  hasEntity := fun _ => none
  related := fun _ => none
  hasParagraph_ends := nofun
  hasEntity_ends := nofun
  related_ends := nofun

/-! ## Batches -/

/-- An item of a batch. -/
structure DocItem where
  sourceId : String
  paragraphId : Nat
  paragraphText : Option String
  isShort : Bool
  paragraphProps : Option RowProps
  /-- the values of `nodes` -/
  nodes : List DocNode
  relations : List DocRelation

def DocItem.key (item : DocItem) : ParagraphKey :=
  { sourceId := item.sourceId, paragraphId := item.paragraphId }

/-- A row of `paragraphs` -/
structure ParagraphRow where
  key : ParagraphKey
  text : String
  isShort : Bool
  props : Option RowProps

/-- A row of `entities` -/
structure EntityRow where
  node : DocNode
  key : ParagraphKey
  mention : Option Mention

def DocItem.paragraphRow (item : DocItem) : Option ParagraphRow :=
  item.paragraphText.map fun text =>
    { key := item.key, text, isShort := item.isShort, props := item.paragraphProps }

def DocItem.entityRows (item : DocItem) : List EntityRow :=
  item.nodes.map fun node =>
    { node, key := item.key, mention := selectPrimaryMention node.mentions }

def DocItem.relatedKeys (item : DocItem) : List RelatedKey :=
  item.relations.map fun relation => {
    source := relation.sourceId
    target := relation.targetId
    type := relation.type
    sourceId := item.sourceId
    paragraphId := item.paragraphId }

def setDocument (scope : Scope) (row : ParagraphRow) (_ : Option DocumentNode) : DocumentNode where
  name := row.key.sourceId
  scope := scope

def setParagraph (scope : Scope) (row : ParagraphRow) (old : Option ParagraphNode) :
    ParagraphNode where
  text := row.text
  short := row.isShort
  scope := scope
  props := row.props.or (old.bind ParagraphNode.props)

def setEntity (scope : Scope) (row : EntityRow) (old : Option EntityNode) : EntityNode where
  name := old.elim row.node.name EntityNode.name
  type := row.node.type
  nameNorm := row.node.nameNorm
  scope := scope

def setHasEntity (scope : Scope) (row : EntityRow) (_ : Option HasEntity) : HasEntity where
  confidence := row.node.confidence
  startChar := row.mention.bind Mention.startChar
  endChar := row.mention.bind Mention.endChar
  surface := row.mention.bind Mention.surface
  scope := scope

/-- `MERGE (d)-[:HAS_PARAGRAPH]->(p)`, without a `SET` -/
def setHasParagraph (_ : ParagraphRow) (old : Option Scope) : Scope :=
  old.getD { projectId := none, projectIdNormalized := none }

section Ingest

variable (scope : Scope) (items : List DocItem)

/-- The query of the paragraphs. -/
def mergeParagraphs (g : DocGraph) : DocGraph :=
  let rows := items.filterMap DocItem.paragraphRow
  { g with
    documents := merge (fun row => row.key.sourceId) (setDocument scope) rows g.documents
    paragraphs := merge ParagraphRow.key (setParagraph scope) rows g.paragraphs
    hasParagraph := merge (fun row => (row.key.sourceId, row.key)) setHasParagraph rows
      g.hasParagraph
    hasParagraph_ends := by
      intro k hk
      rw [isSome_merge] at hk ⊢
      rw [isSome_merge]
      rcases hk with hk | ⟨row, hrow, rfl⟩
      · exact ⟨.inl (g.hasParagraph_ends k hk).1, .inl (g.hasParagraph_ends k hk).2⟩
      · exact ⟨.inr ⟨row, hrow, rfl⟩, .inr ⟨row, hrow, rfl⟩⟩
    hasEntity_ends := by
      intro k hk
      rw [isSome_merge]
      exact ⟨.inl (g.hasEntity_ends k hk).1, (g.hasEntity_ends k hk).2⟩ }

/-- The query of the entities. -/
def mergeEntities (g : DocGraph) : DocGraph :=
  let rows := items.flatMap DocItem.entityRows
  { g with
    entities := merge (fun row => row.node.id) (setEntity scope) rows g.entities
    hasEntity_ends := by
      intro k hk
      rw [isSome_merge]
      exact ⟨(g.hasEntity_ends k hk).1, .inl (g.hasEntity_ends k hk).2⟩
    related_ends := by
      intro k hk
      rw [isSome_merge, isSome_merge]
      exact ⟨.inl (g.related_ends k hk).1, .inl (g.related_ends k hk).2⟩ }

/-- The query of the `HAS_ENTITY` relationships: a row whose ends are not found writes nothing. -/
def mergeHasEntity (g : DocGraph) : DocGraph :=
  let rows := (items.flatMap DocItem.entityRows).filter fun row =>
    (g.paragraphs row.key).isSome && (g.entities row.node.id).isSome
  { g with
    hasEntity := merge (fun row => (row.key, row.node.id)) (setHasEntity scope) rows g.hasEntity
    hasEntity_ends := by
      intro k hk
      rw [isSome_merge] at hk
      rcases hk with hk | ⟨row, hrow, rfl⟩
      · exact g.hasEntity_ends k hk
      · exact Bool.and_eq_true_iff.mp (List.mem_filter.mp hrow).2 }

/-- The query of the `RELATED` relationships. -/
def mergeRelated (g : DocGraph) : DocGraph :=
  let rows := (items.flatMap DocItem.relatedKeys).filter fun key =>
    (g.entities key.source).isSome && (g.entities key.target).isSome
  { g with
    related := merge id (fun _ _ => scope) rows g.related
    related_ends := by
      intro k hk
      rw [isSome_merge] at hk
      rcases hk with hk | ⟨row, hrow, rfl⟩
      · exact g.related_ends k hk
      · exact Bool.and_eq_true_iff.mp (List.mem_filter.mp hrow).2 }

/-- `ingest_to_graph_batch`; a query without rows does nothing. -/
def ingestToGraphBatch (g : DocGraph) : DocGraph :=
  mergeRelated scope items (mergeHasEntity scope items (mergeEntities scope items
    (mergeParagraphs scope items g)))

end Ingest

/-! ## What a batch writes -/

section Writes

variable (items : List DocItem)

def writesParagraph (key : ParagraphKey) : Prop :=
  ∃ item ∈ items, item.paragraphText.isSome ∧ item.key = key

def writesDocument (id : String) : Prop := ∃ key, writesParagraph items key ∧ key.sourceId = id

def writesHasEntity (k : ParagraphKey × String) : Prop :=
  ∃ item ∈ items, item.key = k.1 ∧ ∃ node ∈ item.nodes, node.id = k.2

def writesEntity (id : String) : Prop := ∃ key, writesHasEntity items (key, id)

def writesRelated (key : RelatedKey) : Prop := ∃ item ∈ items, key ∈ item.relatedKeys

variable {items} {scope : Scope} {g : DocGraph} {id : String} {key : ParagraphKey}
  {k : ParagraphKey × String} {r : RelatedKey}

theorem writesParagraph_iff :
    writesParagraph items key ↔ ∃ row ∈ items.filterMap DocItem.paragraphRow, row.key = key := by
  simp only [writesParagraph, List.mem_filterMap, DocItem.paragraphRow, Option.map_eq_some_iff]
  constructor
  · rintro ⟨item, hitem, htext, rfl⟩
    obtain ⟨text, htext⟩ := Option.isSome_iff_exists.mp htext
    exact ⟨_, ⟨item, hitem, text, htext, rfl⟩, rfl⟩
  · rintro ⟨row, ⟨item, hitem, text, htext, rfl⟩, rfl⟩
    exact ⟨item, hitem, by rw [htext]; rfl, rfl⟩

theorem writesHasEntity_iff : writesHasEntity items k ↔
    ∃ row ∈ items.flatMap DocItem.entityRows, (row.key, row.node.id) = k := by
  simp only [writesHasEntity, List.mem_flatMap, DocItem.entityRows, List.mem_map]
  constructor
  · rintro ⟨item, hitem, hkey, node, hnode, hid⟩
    exact ⟨_, ⟨item, hitem, node, hnode, rfl⟩, Prod.ext hkey hid⟩
  · rintro ⟨row, ⟨item, hitem, node, hnode, rfl⟩, rfl⟩
    exact ⟨item, hitem, rfl, node, hnode, rfl⟩

theorem writesEntity_iff : writesEntity items id ↔
    ∃ row ∈ items.flatMap DocItem.entityRows, row.node.id = id := by
  unfold writesEntity
  simp only [writesHasEntity_iff, Prod.mk.injEq]
  constructor
  · rintro ⟨key, row, hrow, -, hid⟩
    exact ⟨row, hrow, hid⟩
  · rintro ⟨row, hrow, hid⟩
    exact ⟨row.key, row, hrow, rfl, hid⟩

/-! ### Documents and paragraphs -/

theorem ingest_paragraph_other (h : ¬ writesParagraph items key) :
    (ingestToGraphBatch scope items g).paragraphs key = g.paragraphs key :=
  merge_other fun row hrow he => h (writesParagraph_iff.mpr ⟨row, hrow, he⟩)

theorem ingest_paragraph (h : writesParagraph items key) :
    ∃ p, (ingestToGraphBatch scope items g).paragraphs key = some p ∧ p.scope = scope :=
  merge_written (fun _ _ _ _ => rfl) (writesParagraph_iff.mp h)

theorem ingest_document_other (h : ¬ writesDocument items id) :
    (ingestToGraphBatch scope items g).documents id = g.documents id :=
  merge_other fun row hrow he => h ⟨row.key, writesParagraph_iff.mpr ⟨row, hrow, rfl⟩, he⟩

theorem ingest_document (h : writesDocument items id) :
    ∃ d, (ingestToGraphBatch scope items g).documents id = some d ∧ d.scope = scope := by
  obtain ⟨key, hkey, rfl⟩ := h
  obtain ⟨row, hrow, rfl⟩ := writesParagraph_iff.mp hkey
  exact merge_written (fun _ _ _ _ => rfl) ⟨row, hrow, rfl⟩

theorem ingest_hasParagraph_eq : (ingestToGraphBatch scope items g).hasParagraph =
    merge (fun row => (row.key.sourceId, row.key)) setHasParagraph
      (items.filterMap DocItem.paragraphRow) g.hasParagraph := rfl

/-- A `HAS_PARAGRAPH` relationship is never changed. -/
theorem ingest_hasParagraph_old {e : String × ParagraphKey} {s : Scope}
    (h : g.hasParagraph e = some s) :
    (ingestToGraphBatch scope items g).hasParagraph e = some s :=
  merge_invariant (P := fun o => o = some s) (fun _ _ _ _ hold => by rw [hold]; rfl) h

/-- A new one has no project. -/
theorem ingest_hasParagraph_new (hkey : writesParagraph items key)
    (h : g.hasParagraph (key.sourceId, key) = none) :
    (ingestToGraphBatch scope items g).hasParagraph (key.sourceId, key) =
      some { projectId := none, projectIdNormalized := none } := by
  obtain ⟨row, hrow, rfl⟩ := writesParagraph_iff.mp hkey
  have hsome : ((ingestToGraphBatch scope items g).hasParagraph
      (row.key.sourceId, row.key)).isSome := isSome_merge.mpr (.inr ⟨row, hrow, rfl⟩)
  have hplain : (ingestToGraphBatch scope items g).hasParagraph (row.key.sourceId, row.key) = none ∨
      (ingestToGraphBatch scope items g).hasParagraph (row.key.sourceId, row.key) =
        some { projectId := none, projectIdNormalized := none } := by
    rw [ingest_hasParagraph_eq]
    refine merge_invariant
      (P := fun o => o = none ∨ o = some { projectId := none, projectIdNormalized := none })
      (fun _ _ _ old hold => .inr ?_) (.inl h)
    rcases hold with rfl | rfl <;> rfl
  rcases hplain with hnone | hplain
  · exact absurd hnone (Option.isSome_iff_ne_none.mp hsome)
  · exact hplain

/-! ### Entities and their relationships -/

theorem ingest_entity_other (h : ¬ writesEntity items id) :
    (ingestToGraphBatch scope items g).entities id = g.entities id :=
  merge_other fun row hrow he => h (writesEntity_iff.mpr ⟨row, hrow, he⟩)

theorem ingest_entity (h : writesEntity items id) :
    ∃ e, (ingestToGraphBatch scope items g).entities id = some e ∧ e.scope = scope :=
  merge_written (fun _ _ _ _ => rfl) (writesEntity_iff.mp h)

theorem ingest_hasEntity_other (h : ¬ writesHasEntity items k) :
    (ingestToGraphBatch scope items g).hasEntity k = g.hasEntity k :=
  merge_other fun row hrow he =>
    h (writesHasEntity_iff.mpr ⟨row, List.mem_of_mem_filter hrow, he⟩)

/-- A `HAS_ENTITY` relationship is written when its paragraph is there. -/
theorem ingest_hasEntity (h : writesHasEntity items k)
    (hparagraph : ((ingestToGraphBatch scope items g).paragraphs k.1).isSome) :
    ∃ e, (ingestToGraphBatch scope items g).hasEntity k = some e ∧ e.scope = scope := by
  obtain ⟨row, hrow, rfl⟩ := writesHasEntity_iff.mp h
  obtain ⟨e, he, -⟩ := @ingest_entity items scope g row.node.id
    (writesEntity_iff.mpr ⟨row, hrow, rfl⟩)
  refine merge_written (fun _ _ _ _ => rfl) ⟨row, List.mem_filter.mpr ⟨hrow, ?_⟩, rfl⟩
  exact Bool.and_eq_true_iff.mpr ⟨hparagraph, Option.isSome_iff_exists.mpr ⟨e, he⟩⟩

theorem ingest_related_eq : (ingestToGraphBatch scope items g).related =
    merge (fun key => key) (fun _ _ => scope) ((items.flatMap DocItem.relatedKeys).filter fun key =>
      ((ingestToGraphBatch scope items g).entities key.source).isSome &&
        ((ingestToGraphBatch scope items g).entities key.target).isSome) g.related := rfl

theorem ingest_related_other (h : ¬ writesRelated items r) :
    (ingestToGraphBatch scope items g).related r = g.related r := by
  rw [ingest_related_eq]
  refine merge_other (k := r) fun key hkey he => h ?_
  obtain ⟨item, hitem, hr⟩ := List.mem_flatMap.mp (List.mem_of_mem_filter hkey)
  exact ⟨item, hitem, (show key = r from he) ▸ hr⟩

/-- A `RELATED` relationship is written when its ends are there. -/
theorem ingest_related (h : writesRelated items r)
    (hsource : ((ingestToGraphBatch scope items g).entities r.source).isSome)
    (htarget : ((ingestToGraphBatch scope items g).entities r.target).isSome) :
    (ingestToGraphBatch scope items g).related r = some scope := by
  obtain ⟨item, hitem, hr⟩ := h
  have hends : (((ingestToGraphBatch scope items g).entities r.source).isSome &&
      ((ingestToGraphBatch scope items g).entities r.target).isSome) = true :=
    Bool.and_eq_true_iff.mpr ⟨hsource, htarget⟩
  have hwritten : ∃ s, (ingestToGraphBatch scope items g).related r = some s ∧ s = scope := by
    rw [ingest_related_eq]
    exact merge_written (fun _ _ _ _ => rfl)
      ⟨r, List.mem_filter.mpr ⟨List.mem_flatMap.mpr ⟨item, hitem, hr⟩, hends⟩, rfl⟩
  obtain ⟨s, hs, rfl⟩ := hwritten
  exact hs

end Writes

end CortexHarness.Docs
