import CortexHarness.Docs.Graph

/-!
# One batch or one item after the other

Model of `ingest_to_graph` (`doc-tiny/graphrag_ingest_langextract.py`), which writes one item of a
batch with a statement for each element, and what sets it apart from `ingest_to_graph_batch`.

* The items of a batch go to `ingest_to_graph` in their order, each with its own texts, nodes and
  relations and with the batch's project.

Results:
* `oneByOne_paragraphs`, `oneByOne_hasEntity`, `oneByOne_related`, …: what the single writes leave;
* `batch_eq_iff`: both leave the same graph iff what only the batch writes is there anyway
  (`Unnoticed`): the paragraphs of empty texts, the `HAS_ENTITY` relationships of items without a
  text, and the relations whose ends only a later item brings.
-/

namespace CortexHarness.Docs

open Merges

/-! ## The statements for one item -/

section Single

variable (scope : Scope)

/-- `if paragraph_text` -/
def DocItem.texted (item : DocItem) : Bool := item.paragraphText.any (· ≠ "")

/-- `MERGE (e:Entity {id: $id}) SET …` -/
def mergeEntity (row : EntityRow) (g : DocGraph) : DocGraph :=
  { g with
    entities := merge (fun row => row.node.id) (setEntity scope) [row] g.entities
    hasEntity_ends := by
      intro k hk
      rw [isSome_merge]
      exact ⟨(g.hasEntity_ends k hk).1, .inl (g.hasEntity_ends k hk).2⟩
    related_ends := by
      intro k hk
      rw [isSome_merge, isSome_merge]
      exact ⟨.inl (g.related_ends k hk).1, .inl (g.related_ends k hk).2⟩ }

/-- `MATCH (p …) MATCH (e …) MERGE (p)-[r:HAS_ENTITY]->(e) SET …` -/
def linkEntity (row : EntityRow) (g : DocGraph) : DocGraph :=
  { g with
    hasEntity := merge (fun row => (row.key, row.node.id)) (setHasEntity scope)
      ([row].filter fun row =>
        (g.paragraphs row.key).isSome && (g.entities row.node.id).isSome) g.hasEntity
    hasEntity_ends := by
      intro k hk
      rw [isSome_merge] at hk
      rcases hk with hk | ⟨row, hrow, rfl⟩
      · exact g.hasEntity_ends k hk
      · exact Bool.and_eq_true_iff.mp (List.mem_filter.mp hrow).2 }

/-- `MATCH (s …) MATCH (t …) MERGE (s)-[r:RELATED …]->(t) SET …` -/
def mergeRelation (key : RelatedKey) (g : DocGraph) : DocGraph :=
  { g with
    related := merge id (fun _ _ => scope) ([key].filter fun key =>
      (g.entities key.source).isSome && (g.entities key.target).isSome) g.related
    related_ends := by
      intro k hk
      rw [isSome_merge] at hk
      rcases hk with hk | ⟨row, hrow, rfl⟩
      · exact g.related_ends k hk
      · exact Bool.and_eq_true_iff.mp (List.mem_filter.mp hrow).2 }

/-- The loop over the nodes. -/
def ingestNodes (texted : Bool) (rows : List EntityRow) (g : DocGraph) : DocGraph :=
  rows.foldl (fun g row =>
    let g := mergeEntity scope row g
    if texted then linkEntity scope row g else g) g

/-- The loop over the relations. -/
def ingestRelations (keys : List RelatedKey) (g : DocGraph) : DocGraph :=
  keys.foldl (fun g key => mergeRelation scope key g) g

/-- `ingest_to_graph` -/
def ingestToGraph (item : DocItem) (g : DocGraph) : DocGraph :=
  let g := if item.texted then mergeParagraphs scope [item] g else g
  ingestRelations scope item.relatedKeys (ingestNodes scope item.texted item.entityRows g)

/-- The items of a batch, one after the other. -/
def ingestOneByOne (items : List DocItem) (g : DocGraph) : DocGraph :=
  items.foldl (fun g item => ingestToGraph scope item g) g

end Single

variable {scope : Scope} {g : DocGraph} {items : List DocItem}

/-! ## What one item leaves -/

/-- **What the loop over the nodes leaves.** -/
theorem ingestNodes_spec {texted : Bool} {rows : List EntityRow} {g : DocGraph}
    (h : texted = true → ∀ row ∈ rows, (g.paragraphs row.key).isSome = true) :
    let g' := ingestNodes scope texted rows g
    (g'.documents = g.documents ∧ g'.paragraphs = g.paragraphs ∧
      g'.hasParagraph = g.hasParagraph ∧ g'.related = g.related) ∧
    g'.entities = merge (fun row => row.node.id) (setEntity scope) rows g.entities ∧
    g'.hasEntity = merge (fun row => (row.key, row.node.id)) (setHasEntity scope)
      (if texted then rows else []) g.hasEntity := by
  induction rows generalizing g with
  | nil => cases texted <;> exact ⟨⟨rfl, rfl, rfl, rfl⟩, rfl, rfl⟩
  | cons row rows ih =>
    cases texted with
    | false => exact ih fun h => absurd h Bool.false_ne_true
    | true =>
      have hrow := h rfl row List.mem_cons_self
      have hentity : ((mergeEntity scope row g).entities row.node.id).isSome = true :=
        isSome_merge.mpr (.inr ⟨row, List.mem_singleton_self row, rfl⟩)
      have hends : (((mergeEntity scope row g).paragraphs row.key).isSome &&
          ((mergeEntity scope row g).entities row.node.id).isSome) = true :=
        Bool.and_eq_true_iff.mpr ⟨hrow, hentity⟩
      have hlink : (linkEntity scope row (mergeEntity scope row g)).hasEntity =
          merge (fun row => (row.key, row.node.id)) (setHasEntity scope) [row] g.hasEntity := by
        show merge _ _ ([row].filter _) _ = _
        rw [List.filter_singleton, hends]
        rfl
      obtain ⟨hsame, hentities, hhas⟩ := ih (g := linkEntity scope row (mergeEntity scope row g))
        fun _ r hr => h rfl r (List.mem_cons_of_mem _ hr)
      refine ⟨hsame, hentities, hhas.trans ?_⟩
      rw [hlink]
      rfl

theorem isSome_and_eq {α β : Type} {o : Option α} {o' : Option β} :
    (o.isSome && o'.isSome) = true ↔ o.isSome = true ∧ o'.isSome = true := Bool.and_eq_true_iff

open Classical in
/-- **What the loop over the relations leaves.** -/
theorem ingestRelations_spec (keys : List RelatedKey) (g : DocGraph) :
    let g' := ingestRelations scope keys g
    (g'.documents = g.documents ∧ g'.paragraphs = g.paragraphs ∧
      g'.hasParagraph = g.hasParagraph ∧ g'.entities = g.entities ∧ g'.hasEntity = g.hasEntity) ∧
    ∀ r, g'.related r = if r ∈ keys ∧ (g.entities r.source).isSome = true ∧
      (g.entities r.target).isSome = true then some scope else g.related r := by
  induction keys generalizing g with
  | nil => exact ⟨⟨rfl, rfl, rfl, rfl, rfl⟩, fun r => (if_neg fun h => by cases h.1).symm⟩
  | cons key keys ih =>
    obtain ⟨hsame, hrelated⟩ := ih (mergeRelation scope key g)
    refine ⟨hsame, fun r => (hrelated r).trans ?_⟩
    have hentities : (mergeRelation scope key g).entities = g.entities := rfl
    have hone : (mergeRelation scope key g).related r = if r = key ∧
        (g.entities r.source).isSome = true ∧ (g.entities r.target).isSome = true then some scope
        else g.related r := by
      show merge id (fun _ _ => scope) ([key].filter _) g.related r = _
      by_cases hends : ((g.entities key.source).isSome && (g.entities key.target).isSome) = true
      · rw [List.filter_singleton, hends, Bool.cond_true, merge_cons, merge_nil]
        by_cases hr : r = key
        · subst hr
          rw [if_pos ⟨rfl, isSome_and_eq.mp hends⟩]
          exact Function.update_self _ _ _
        · rw [if_neg fun h => hr h.1]
          exact Function.update_of_ne hr _ _
      · rw [List.filter_singleton, Bool.eq_false_iff.mpr hends, Bool.cond_false, merge_nil, if_neg]
        rintro ⟨rfl, hrest⟩
        exact hends (isSome_and_eq.mpr hrest)
    rw [hentities, hone]
    by_cases hends : (g.entities r.source).isSome = true ∧ (g.entities r.target).isSome = true
    · by_cases hkeys : r ∈ keys
      · rw [if_pos ⟨hkeys, hends⟩, if_pos ⟨List.mem_cons_of_mem _ hkeys, hends⟩]
      · rw [if_neg fun h => hkeys h.1]
        by_cases hr : r = key
        · rw [if_pos ⟨hr, hends⟩, if_pos ⟨hr ▸ List.mem_cons_self, hends⟩]
        · rw [if_neg fun h => hr h.1, if_neg fun h => (List.mem_cons.mp h.1).elim hr hkeys]
    · rw [if_neg fun h => hends h.2, if_neg fun h => hends h.2, if_neg fun h => hends h.2]

/-! ## What the items leave -/

/-- The paragraphs that are written for items with a text. -/
def textRows (items : List DocItem) : List ParagraphRow :=
  (items.filter DocItem.texted).filterMap DocItem.paragraphRow

/-- What the single writes leave, but for the relations. -/
structure Left (scope : Scope) (items : List DocItem) (g g' : DocGraph) : Prop where
  documents : g'.documents =
    merge (fun row => row.key.sourceId) (setDocument scope) (textRows items) g.documents
  paragraphs : g'.paragraphs =
    merge ParagraphRow.key (setParagraph scope) (textRows items) g.paragraphs
  hasParagraph : g'.hasParagraph =
    merge (fun row => (row.key.sourceId, row.key)) setHasParagraph (textRows items) g.hasParagraph
  entities : g'.entities = merge (fun row => row.node.id) (setEntity scope)
    (items.flatMap DocItem.entityRows) g.entities
  hasEntity : g'.hasEntity = merge (fun row => (row.key, row.node.id)) (setHasEntity scope)
    ((items.filter DocItem.texted).flatMap DocItem.entityRows) g.hasEntity

theorem textRows_append (items items' : List DocItem) :
    textRows (items ++ items') = textRows items ++ textRows items' := by
  rw [textRows, List.filter_append, List.filterMap_append]
  rfl

theorem Left.append {items' : List DocItem} {g' g'' : DocGraph} (h : Left scope items g g')
    (h' : Left scope items' g' g'') : Left scope (items ++ items') g g'' where
  documents := by rw [h'.documents, h.documents, textRows_append, merge_append]
  paragraphs := by rw [h'.paragraphs, h.paragraphs, textRows_append, merge_append]
  hasParagraph := by rw [h'.hasParagraph, h.hasParagraph, textRows_append, merge_append]
  entities := by rw [h'.entities, h.entities, List.flatMap_append, merge_append]
  hasEntity := by
    rw [h'.hasEntity, h.hasEntity, List.filter_append, List.flatMap_append, merge_append]

theorem texted_iff {item : DocItem} :
    item.texted = true ↔ ∃ text, item.paragraphText = some text ∧ text ≠ "" := by
  unfold DocItem.texted
  cases item.paragraphText with
  | none => simp
  | some text => simp

theorem textRows_singleton (item : DocItem) :
    textRows [item] = if item.texted then item.paragraphRow.toList else [] := by
  rw [textRows, List.filter_singleton]
  cases item.texted with
  | true =>
    show [item].filterMap DocItem.paragraphRow = item.paragraphRow.toList
    cases hrow : item.paragraphRow with
    | none => rw [List.filterMap_cons_none hrow]; rfl
    | some row => rw [List.filterMap_cons_some hrow]; rfl
  | false => rfl

theorem mergeText_spec (item : DocItem) (g : DocGraph) :
    let g' := if item.texted then mergeParagraphs scope [item] g else g
    g'.documents = merge (fun row => row.key.sourceId) (setDocument scope) (textRows [item])
      g.documents ∧
    g'.paragraphs = merge ParagraphRow.key (setParagraph scope) (textRows [item]) g.paragraphs ∧
    g'.hasParagraph = merge (fun row => (row.key.sourceId, row.key)) setHasParagraph
      (textRows [item]) g.hasParagraph ∧
    g'.entities = g.entities ∧ g'.hasEntity = g.hasEntity ∧ g'.related = g.related := by
  have hkept : item.texted = true → textRows [item] = [item].filterMap DocItem.paragraphRow := by
    intro h
    rw [textRows, List.filter_singleton, h]
    rfl
  have hnone : item.texted = false → textRows [item] = [] := by
    intro h
    rw [textRows, List.filter_singleton, h]
    rfl
  cases htexted : item.texted with
  | true =>
    rw [hkept htexted]
    exact ⟨rfl, rfl, rfl, rfl, rfl, rfl⟩
  | false =>
    rw [hnone htexted]
    exact ⟨rfl, rfl, rfl, rfl, rfl, rfl⟩

open Classical in
/-- **What one item leaves.** -/
theorem ingestToGraph_spec (item : DocItem) (g : DocGraph) :
    let g' := ingestToGraph scope item g
    Left scope [item] g g' ∧ ∀ r, g'.related r = if r ∈ item.relatedKeys ∧
      (g'.entities r.source).isSome = true ∧ (g'.entities r.target).isSome = true then some scope
      else g.related r := by
  obtain ⟨hdocuments, hparagraphs, hhasParagraph, hentities, hhasEntity, hrelated⟩ :=
    @mergeText_spec scope item g
  have hpresent : item.texted = true → ∀ row ∈ item.entityRows,
      ((if item.texted then mergeParagraphs scope [item] g else g).paragraphs row.key).isSome =
        true := by
    intro htexted row hrow
    obtain ⟨node, -, rfl⟩ := List.mem_map.mp hrow
    obtain ⟨text, htext, -⟩ := texted_iff.mp htexted
    have hitem : item.paragraphRow = some ⟨item.key, text, item.isShort, item.paragraphProps⟩ := by
      rw [DocItem.paragraphRow, htext]
      rfl
    rw [hparagraphs, textRows_singleton, if_pos htexted, hitem]
    exact isSome_merge.mpr (.inr ⟨_, List.mem_singleton_self _, rfl⟩)
  obtain ⟨hnodes, hnodeEntities, hnodeLinks⟩ := @ingestNodes_spec scope _ _ _ hpresent
  obtain ⟨hrelations, hkeys⟩ := @ingestRelations_spec scope item.relatedKeys
    (ingestNodes scope item.texted item.entityRows
      (if item.texted then mergeParagraphs scope [item] g else g))
  refine ⟨⟨?_, ?_, ?_, ?_, ?_⟩, fun r => ?_⟩
  · exact hrelations.1.trans (hnodes.1.trans hdocuments)
  · exact hrelations.2.1.trans (hnodes.2.1.trans hparagraphs)
  · exact hrelations.2.2.1.trans (hnodes.2.2.1.trans hhasParagraph)
  · refine hrelations.2.2.2.1.trans (hnodeEntities.trans ?_)
    rw [hentities, List.flatMap_singleton]
  · refine hrelations.2.2.2.2.trans (hnodeLinks.trans ?_)
    rw [hhasEntity, List.filter_singleton]
    cases item.texted with
    | true => exact congrArg (fun rows => merge _ _ rows _) (List.flatMap_singleton ..).symm
    | false => rfl
  · have hafter : (ingestToGraph scope item g).entities = _ := hrelations.2.2.2.1
    have hbefore : (ingestNodes scope item.texted item.entityRows
        (if item.texted then mergeParagraphs scope [item] g else g)).related r = g.related r :=
      (congrFun hnodes.2.2.2 r).trans (congrFun hrelated r)
    rw [hafter, ← hbefore]
    exact hkeys r

/-- The entities that a graph has after some items. -/
def Known (g : DocGraph) (items : List DocItem) (id : String) : Prop :=
  (g.entities id).isSome = true ∨ writesEntity items id

/-- Both ends of a relation are there after some items. -/
def EndsKnown (g : DocGraph) (items : List DocItem) (r : RelatedKey) : Prop :=
  Known g items r.source ∧ Known g items r.target

/-- An item lists the relation when both ends are there. -/
def Timely (g : DocGraph) (items : List DocItem) (r : RelatedKey) : Prop :=
  ∃ before item after, items = before ++ item :: after ∧ r ∈ item.relatedKeys ∧
    EndsKnown g (before ++ [item]) r

theorem Left.known {g' : DocGraph} (h : Left scope items g g') (id : String) :
    (g'.entities id).isSome = true ↔ Known g items id := by
  rw [h.entities, Known, isSome_merge, writesEntity_iff]

open Classical in
/-- **What the single writes leave.** -/
theorem oneByOne_spec (items : List DocItem) (g : DocGraph) :
    let g' := ingestOneByOne scope items g
    Left scope items g g' ∧
      ∀ r, g'.related r = if Timely g items r then some scope else g.related r := by
  induction items using List.reverseRecOn with
  | nil =>
    refine ⟨⟨rfl, rfl, rfl, rfl, rfl⟩, fun r => (if_neg ?_).symm⟩
    rintro ⟨before, item, after, h, -⟩
    simp at h
  | append_singleton items item ih =>
    obtain ⟨hleft, hrelated⟩ := ih
    obtain ⟨hitem, hrelations⟩ := @ingestToGraph_spec scope item
      (ingestOneByOne scope items g)
    have hrun : ingestOneByOne scope (items ++ [item]) g =
        ingestToGraph scope item (ingestOneByOne scope items g) := by
      rw [ingestOneByOne, List.foldl_append]
      rfl
    have hall := hleft.append hitem
    rw [hrun]
    refine ⟨hall, fun r => (hrelations r).trans ?_⟩
    have hends : ((ingestToGraph scope item (ingestOneByOne scope items g)).entities
          r.source).isSome = true ∧
        ((ingestToGraph scope item (ingestOneByOne scope items g)).entities
          r.target).isSome = true ↔ EndsKnown g (items ++ [item]) r :=
      and_congr (hall.known r.source) (hall.known r.target)
    by_cases hnow : r ∈ item.relatedKeys ∧ EndsKnown g (items ++ [item]) r
    · rw [if_pos ⟨hnow.1, hends.mpr hnow.2⟩, if_pos]
      exact ⟨items, item, [], rfl, hnow⟩
    · rw [if_neg fun h => hnow ⟨h.1, hends.mp h.2⟩, hrelated]
      by_cases hearlier : Timely g items r
      · rw [if_pos hearlier, if_pos]
        obtain ⟨before, item', after, rfl, hrest⟩ := hearlier
        exact ⟨before, item', after ++ [item], by simp, hrest⟩
      · rw [if_neg hearlier, if_neg]
        rintro ⟨before, item', after, heq, hr, hknown⟩
        rcases List.eq_nil_or_concat after with rfl | ⟨after, last, rfl⟩
        · obtain ⟨rfl, hlast⟩ := List.append_inj' heq rfl
          obtain rfl := List.singleton_inj.mp hlast
          exact hnow ⟨hr, hknown⟩
        · rw [List.concat_eq_append, ← List.cons_append, ← List.append_assoc] at heq
          obtain ⟨rfl, -⟩ := List.append_inj' heq rfl
          exact hearlier ⟨before, item', after, rfl, hr, hknown⟩

/-! ## What only the batch writes -/

/-- The paragraphs of a batch. -/
def batchRows (items : List DocItem) : List ParagraphRow := items.filterMap DocItem.paragraphRow

/-- The `HAS_ENTITY` relationships of an item, with whether the item has a text. -/
def DocItem.links (item : DocItem) : List (Bool × EntityRow) :=
  item.entityRows.map fun row => (item.texted, row)

/-- The paragraph is stored, or a row of the batch writes it. -/
def paragraphThere (g : DocGraph) (items : List DocItem) (key : ParagraphKey) : Bool :=
  (g.paragraphs key).isSome || (batchRows items).any fun row => row.key = key

/-- The `HAS_ENTITY` relationships that a batch finds a paragraph for. -/
def matchedLinks (g : DocGraph) (items : List DocItem) : List (Bool × EntityRow) :=
  (items.flatMap DocItem.links).filter fun link => paragraphThere g items link.2.key

def ParagraphNode.texts (p : ParagraphNode) : String × Bool × Scope := (p.text, p.short, p.scope)

/-- **What only the batch writes is there anyway.** -/
structure Unnoticed (scope : Scope) (g : DocGraph) (items : List DocItem) : Prop where
  /-- the documents of empty texts -/
  documents : Covered (fun row => row.key.sourceId)
    (fun row => DocumentNode.mk row.key.sourceId scope) (fun row => row.text ≠ "")
    (batchRows items) g.documents
  /-- the paragraphs of empty texts, but for their further properties -/
  texts : Covered ParagraphRow.key (fun row => (row.text, row.isShort, scope))
    (fun row => row.text ≠ "") (batchRows items)
    fun key => (g.paragraphs key).map ParagraphNode.texts
  /-- and these -/
  props : Covered ParagraphRow.key ParagraphRow.props (fun row => row.text ≠ "")
    ((batchRows items).filter fun row => row.props.isSome)
    fun key => ((g.paragraphs key).bind ParagraphNode.props).map some
  /-- their `HAS_PARAGRAPH` relationships -/
  hasParagraph : ∀ row ∈ batchRows items, row.text = "" →
    (∃ row' ∈ textRows items, row'.key = row.key) ∨
      (g.hasParagraph (row.key.sourceId, row.key)).isSome = true
  /-- the `HAS_ENTITY` relationships of items without a text -/
  links : Covered (fun link => (link.2.key, link.2.node.id))
    (fun link => setHasEntity scope link.2 none) Prod.fst (matchedLinks g items) g.hasEntity
  /-- the relations whose ends are there in the end -/
  relations : ∀ r, (∃ item ∈ items, r ∈ item.relatedKeys) → EndsKnown g items r →
    Timely g items r

theorem docGraph_ext {g g' : DocGraph} (hdocuments : g.documents = g'.documents)
    (hparagraphs : g.paragraphs = g'.paragraphs) (hentities : g.entities = g'.entities)
    (hhasParagraph : g.hasParagraph = g'.hasParagraph) (hhasEntity : g.hasEntity = g'.hasEntity)
    (hrelated : g.related = g'.related) : g = g' := by
  cases g
  cases g'
  cases hdocuments
  cases hparagraphs
  cases hentities
  cases hhasParagraph
  cases hhasEntity
  cases hrelated
  rfl

theorem textRows_eq (items : List DocItem) :
    textRows items = (batchRows items).filter fun row => row.text ≠ "" := by
  induction items with
  | nil => rfl
  | cons item items ih =>
    have hcons : textRows (item :: items) = textRows [item] ++ textRows items :=
      textRows_append [item] items
    rw [hcons, ih, textRows_singleton, batchRows, batchRows]
    cases hrow : item.paragraphRow with
    | none =>
      rw [List.filterMap_cons_none hrow]
      cases item.texted <;> rfl
    | some row =>
      have htext : item.texted = decide (row.text ≠ "") := by
        obtain ⟨text, htext, rfl⟩ := Option.map_eq_some_iff.mp hrow
        rw [DocItem.texted, htext]
        rfl
      rw [List.filterMap_cons_some hrow, List.filter_cons, htext]
      by_cases h : row.text ≠ ""
      · rw [decide_eq_true h, if_pos rfl, if_pos rfl]
        rfl
      · rw [decide_eq_false h, if_neg Bool.false_ne_true, if_neg Bool.false_ne_true]
        rfl

/-! ### Documents and paragraphs -/

section Parts

variable {g' : DocGraph}

theorem documents_iff (h : Left scope items g g') :
    (ingestToGraphBatch scope items g).documents = g'.documents ↔
      Covered (fun row => row.key.sourceId) (fun row => DocumentNode.mk row.key.sourceId scope)
        (fun row => row.text ≠ "") (batchRows items) g.documents := by
  rw [h.documents, textRows_eq]
  exact merge_filter_iff (fun row : ParagraphRow => DocumentNode.mk row.key.sourceId scope) _ _ _

theorem paragraph_eq_iff {o o' : Option ParagraphNode} :
    o = o' ↔ o.map ParagraphNode.texts = o'.map ParagraphNode.texts ∧
      (o.bind ParagraphNode.props).map some = (o'.bind ParagraphNode.props).map some := by
  constructor
  · rintro rfl
    exact ⟨rfl, rfl⟩
  · rintro ⟨htexts, hprops⟩
    have hprops : o.bind ParagraphNode.props = o'.bind ParagraphNode.props :=
      Option.map_injective (Option.some_injective _) hprops
    cases o with
    | none => cases o' with
      | none => rfl
      | some p' => cases htexts
    | some p => cases o' with
      | none => cases htexts
      | some p' =>
        cases p
        cases p'
        cases htexts
        cases hprops
        rfl

theorem merge_texts (rows : List ParagraphRow) (s : ParagraphKey → Option ParagraphNode)
    (key : ParagraphKey) :
    (merge ParagraphRow.key (setParagraph scope) rows s key).map ParagraphNode.texts =
      merge ParagraphRow.key (fun row _ => (row.text, row.isShort, scope)) rows
        (fun key => (s key).map ParagraphNode.texts) key := by
  have hpart : (merge ParagraphRow.key (setParagraph scope) rows s key).map
      ParagraphNode.texts = _ :=
    merge_part (Option.map ParagraphNode.texts) (fun _ => true)
      (fun row _ => (row.text, row.isShort, scope)) (fun _ _ _ => rfl) (fun _ _ h => by cases h)
  rwa [List.filter_eq_self.mpr fun _ _ => rfl] at hpart

theorem merge_props (rows : List ParagraphRow) (s : ParagraphKey → Option ParagraphNode)
    (key : ParagraphKey) :
    ((merge ParagraphRow.key (setParagraph scope) rows s key).bind ParagraphNode.props).map some =
      merge ParagraphRow.key (fun row _ => row.props) (rows.filter fun row => row.props.isSome)
        (fun key => ((s key).bind ParagraphNode.props).map some) key := by
  refine merge_part (fun o => (o.bind ParagraphNode.props).map some)
    (fun row : ParagraphRow => row.props.isSome) (fun row _ => row.props) ?_ ?_
  · intro row old hrow
    obtain ⟨props, hprops⟩ := Option.isSome_iff_exists.mp hrow
    show ((setParagraph scope row old).props).map some = some row.props
    rw [setParagraph, hprops]
    rfl
  · intro row old hrow
    have hnone : row.props = none := by
      cases hprops : row.props with
      | none => rfl
      | some props => rw [hprops] at hrow; cases hrow
    show ((setParagraph scope row old).props).map some = _
    rw [setParagraph, hnone]
    rfl

theorem paragraphs_iff (h : Left scope items g g') :
    (ingestToGraphBatch scope items g).paragraphs = g'.paragraphs ↔
      Covered ParagraphRow.key (fun row => (row.text, row.isShort, scope))
        (fun row => row.text ≠ "") (batchRows items)
        (fun key => (g.paragraphs key).map ParagraphNode.texts) ∧
      Covered ParagraphRow.key ParagraphRow.props (fun row => row.text ≠ "")
        ((batchRows items).filter fun row => row.props.isSome)
        (fun key => ((g.paragraphs key).bind ParagraphNode.props).map some) := by
  have hbatch : (ingestToGraphBatch scope items g).paragraphs =
      merge ParagraphRow.key (setParagraph scope) (batchRows items) g.paragraphs := rfl
  rw [hbatch, h.paragraphs, textRows_eq, ← merge_filter_iff, ← merge_filter_iff, List.filter_comm]
  constructor
  · intro heq
    refine ⟨funext fun key => ?_, funext fun key => ?_⟩
    · rw [← merge_texts, ← merge_texts, heq]
    · rw [← merge_props, ← merge_props, heq]
  · rintro ⟨htexts, hprops⟩
    funext key
    refine paragraph_eq_iff.mpr ⟨?_, ?_⟩
    · rw [merge_texts, merge_texts, htexts]
    · rw [merge_props, merge_props, hprops]

theorem any_key_iff {κ ρ : Type} [DecidableEq κ] {key : ρ → κ} {rows : List ρ} {k : κ} :
    (rows.any fun row => key row = k) = true ↔ ∃ row ∈ rows, key row = k := by
  simp

theorem hasParagraph_iff (h : Left scope items g g') :
    (ingestToGraphBatch scope items g).hasParagraph = g'.hasParagraph ↔
      ∀ row ∈ batchRows items, row.text = "" →
        (∃ row' ∈ textRows items, row'.key = row.key) ∨
          (g.hasParagraph (row.key.sourceId, row.key)).isSome = true := by
  have hbatch : (ingestToGraphBatch scope items g).hasParagraph =
      merge (fun row => (row.key.sourceId, row.key)) setHasParagraph (batchRows items)
        g.hasParagraph := rfl
  have hkeep : ∀ rows k, merge (fun row : ParagraphRow => (row.key.sourceId, row.key))
      setHasParagraph rows g.hasParagraph k = (g.hasParagraph k).or
        (if rows.any fun row => (row.key.sourceId, row.key) = k then
          some { projectId := none, projectIdNormalized := none } else none) :=
    fun rows k => merge_keep _ rows g.hasParagraph k
  rw [hbatch, h.hasParagraph]
  constructor
  · intro heq row hrow htext
    have hk := congrFun heq (row.key.sourceId, row.key)
    rw [hkeep, hkeep, if_pos (any_key_iff.mpr ⟨row, hrow, rfl⟩)] at hk
    cases hstored : g.hasParagraph (row.key.sourceId, row.key) with
    | some s => exact .inr rfl
    | none =>
      rw [hstored, Option.none_or, Option.none_or] at hk
      split at hk
      · next hany =>
        obtain ⟨row', hrow', hkey⟩ := any_key_iff.mp hany
        exact .inl ⟨row', hrow', (Prod.mk.inj hkey).2⟩
      · cases hk
  · intro hall
    funext k
    rw [hkeep, hkeep]
    by_cases htexted : ∃ row ∈ textRows items, (row.key.sourceId, row.key) = k
    · obtain ⟨row, hrow, hk⟩ := htexted
      have hin : row ∈ batchRows items := (List.mem_filter.mp (textRows_eq items ▸ hrow)).1
      rw [if_pos (any_key_iff.mpr ⟨row, hin, hk⟩), if_pos (any_key_iff.mpr ⟨row, hrow, hk⟩)]
    · rw [if_neg fun hany => htexted (any_key_iff.mp hany)]
      split
      · next hany =>
        obtain ⟨row, hrow, rfl⟩ := any_key_iff.mp hany
        have htext : row.text = "" := by
          by_contra hne
          refine htexted ⟨row, ?_, rfl⟩
          rw [textRows_eq]
          exact List.mem_filter.mpr ⟨hrow, decide_eq_true hne⟩
        rcases hall row hrow htext with ⟨row', hrow', hkey⟩ | hstored
        · exact absurd ⟨row', hrow', by rw [hkey]⟩ htexted
        · obtain ⟨s, hs⟩ := Option.isSome_iff_exists.mp hstored
          rw [hs]
          rfl
      · rfl

/-! ### Entities and relations -/

theorem flatMap_links (items : List DocItem) :
    (items.flatMap DocItem.links).map Prod.snd = items.flatMap DocItem.entityRows := by
  rw [List.map_flatMap]
  refine List.flatMap_congr fun item _ => ?_
  rw [DocItem.links, List.map_map]
  exact List.map_id _

theorem textedLinks (items : List DocItem) :
    ((items.flatMap DocItem.links).filter Prod.fst).map Prod.snd =
      (items.filter DocItem.texted).flatMap DocItem.entityRows := by
  induction items with
  | nil => rfl
  | cons item items ih =>
    rw [List.flatMap_cons, List.filter_append, List.map_append, ih]
    cases htexted : item.texted with
    | true =>
      have hall : item.links.filter Prod.fst = item.links := by
        refine List.filter_eq_self.mpr fun link hlink => ?_
        obtain ⟨row, -, rfl⟩ := List.mem_map.mp hlink
        exact htexted
      rw [hall, List.filter_cons_of_pos htexted, List.flatMap_cons, DocItem.links, List.map_map]
      exact congrArg (· ++ _) (List.map_id _)
    | false =>
      have hnone : item.links.filter Prod.fst = [] := by
        refine List.filter_eq_nil_iff.mpr fun link hlink => ?_
        obtain ⟨row, -, rfl⟩ := List.mem_map.mp hlink
        rw [htexted]
        exact Bool.false_ne_true
      rw [hnone, List.filter_cons_of_neg (by rw [htexted]; exact Bool.false_ne_true)]
      rfl

theorem batch_entities (scope : Scope) (items : List DocItem) (g : DocGraph) :
    (ingestToGraphBatch scope items g).entities = merge (fun row => row.node.id) (setEntity scope)
      (items.flatMap DocItem.entityRows) g.entities := rfl

theorem batch_known (id : String) :
    ((ingestToGraphBatch scope items g).entities id).isSome = true ↔ Known g items id := by
  rw [batch_entities, Known, isSome_merge, writesEntity_iff]

theorem paragraphThere_iff (key : ParagraphKey) :
    ((ingestToGraphBatch scope items g).paragraphs key).isSome = paragraphThere g items key := by
  have hbatch : (ingestToGraphBatch scope items g).paragraphs =
      merge ParagraphRow.key (setParagraph scope) (batchRows items) g.paragraphs := rfl
  rw [hbatch, Bool.eq_iff_iff, isSome_merge, paragraphThere, Bool.or_eq_true, any_key_iff]

theorem matchedRows (items : List DocItem) (g : DocGraph) :
    ((items.flatMap DocItem.entityRows).filter fun row =>
      ((ingestToGraphBatch scope items g).paragraphs row.key).isSome &&
        ((ingestToGraphBatch scope items g).entities row.node.id).isSome) =
      (matchedLinks g items).map Prod.snd := by
  rw [← flatMap_links, List.filter_map, matchedLinks]
  congr 1
  refine List.filter_congr fun link hlink => ?_
  have hrow : link.2 ∈ items.flatMap DocItem.entityRows := by
    rw [← flatMap_links]
    exact List.mem_map_of_mem hlink
  have hknown : ((ingestToGraphBatch scope items g).entities link.2.node.id).isSome = true :=
    batch_known _ |>.mpr (.inr (writesEntity_iff.mpr ⟨_, hrow, rfl⟩))
  show (_ && _) = _
  rw [hknown, Bool.and_true, paragraphThere_iff]

theorem textedMatched (items : List DocItem) (g : DocGraph) :
    (matchedLinks g items).filter Prod.fst = (items.flatMap DocItem.links).filter Prod.fst := by
  rw [matchedLinks, List.filter_comm]
  refine List.filter_eq_self.mpr fun link hlink => ?_
  obtain ⟨hlink, htexted⟩ := List.mem_filter.mp hlink
  obtain ⟨item, hitem, hlink⟩ := List.mem_flatMap.mp hlink
  obtain ⟨row, hrow, rfl⟩ := List.mem_map.mp hlink
  obtain ⟨node, -, rfl⟩ := List.mem_map.mp hrow
  obtain ⟨text, htext, -⟩ := texted_iff.mp htexted
  have hparagraph : (⟨item.key, text, item.isShort, item.paragraphProps⟩ : ParagraphRow) ∈
      batchRows items := List.mem_filterMap.mpr ⟨item, hitem, by
    rw [DocItem.paragraphRow, htext]
    rfl⟩
  rw [paragraphThere, Bool.or_eq_true]
  exact .inr (any_key_iff.mpr ⟨_, hparagraph, rfl⟩)

theorem hasEntity_iff (h : Left scope items g g') :
    (ingestToGraphBatch scope items g).hasEntity = g'.hasEntity ↔
      Covered (fun link => (link.2.key, link.2.node.id))
        (fun link => setHasEntity scope link.2 none) Prod.fst (matchedLinks g items)
        g.hasEntity := by
  have hbatch : (ingestToGraphBatch scope items g).hasEntity =
      merge (fun row => (row.key, row.node.id)) (setHasEntity scope)
        ((items.flatMap DocItem.entityRows).filter fun row =>
          ((ingestToGraphBatch scope items g).paragraphs row.key).isSome &&
            ((ingestToGraphBatch scope items g).entities row.node.id).isSome) g.hasEntity := rfl
  rw [hbatch, matchedRows, h.hasEntity, ← textedLinks, ← textedMatched items g, merge_map,
    merge_map]
  exact merge_filter_iff (fun link : Bool × EntityRow => setHasEntity scope link.2 none) _ _ _

theorem EndsKnown.mono {before after : List DocItem} {r : RelatedKey}
    (h : EndsKnown g before r) : EndsKnown g (before ++ after) r := by
  have hknown : ∀ {id}, Known g before id → Known g (before ++ after) id := by
    rintro id (hstored | ⟨key, item, hitem, hrest⟩)
    · exact .inl hstored
    · exact .inr ⟨key, item, List.mem_append_left _ hitem, hrest⟩
  exact ⟨hknown h.1, hknown h.2⟩

theorem related_iff (hrelated : ∀ r, (Timely g items r → g'.related r = some scope) ∧
      (¬ Timely g items r → g'.related r = g.related r)) :
    (ingestToGraphBatch scope items g).related = g'.related ↔
      ∀ r, (∃ item ∈ items, r ∈ item.relatedKeys) → EndsKnown g items r → Timely g items r := by
  have hwritten : ∀ r, (∃ item ∈ items, r ∈ item.relatedKeys) → EndsKnown g items r →
      (ingestToGraphBatch scope items g).related r = some scope := fun r hr hknown =>
    ingest_related hr (batch_known _ |>.mpr hknown.1) (batch_known _ |>.mpr hknown.2)
  constructor
  · intro heq r hr hknown
    by_contra hlate
    -- What is stored already has both ends, and then the first item that lists it is in time.
    have hstored : g.related r = some scope := by
      rw [← (hrelated r).2 hlate, ← heq]
      exact hwritten r hr hknown
    obtain ⟨hsource, htarget⟩ := g.related_ends r (by rw [hstored]; rfl)
    obtain ⟨item, hitem, hlisted⟩ := hr
    obtain ⟨before, after, rfl⟩ := List.append_of_mem hitem
    exact hlate ⟨before, item, after, rfl, hlisted, .inl hsource, .inl htarget⟩
  · intro hall
    funext r
    by_cases htimely : Timely g items r
    · rw [(hrelated r).1 htimely]
      obtain ⟨before, item, after, rfl, hlisted, hknown⟩ := htimely
      refine hwritten r ⟨item, by simp, hlisted⟩ ?_
      have hmono : EndsKnown g (before ++ [item] ++ after) r := hknown.mono
      rwa [List.append_assoc] at hmono
    · rw [(hrelated r).2 htimely]
      by_cases hr : ∃ item ∈ items, r ∈ item.relatedKeys
      · have hunknown : ¬ EndsKnown g items r := fun hknown => htimely (hall r hr hknown)
        rw [ingest_related_eq]
        refine merge_other fun key hkey he => hunknown ?_
        obtain rfl : key = r := he
        obtain ⟨hsource, htarget⟩ := isSome_and_eq.mp (List.mem_filter.mp hkey).2
        exact ⟨batch_known _ |>.mp hsource, batch_known _ |>.mp htarget⟩
      · exact ingest_related_other hr

end Parts

/-- **A batch leaves the graph that its items leave one after the other iff what only the batch
writes is there anyway.** -/
theorem batch_eq_iff (scope : Scope) (items : List DocItem) (g : DocGraph) :
    ingestToGraphBatch scope items g = ingestOneByOne scope items g ↔
      Unnoticed scope g items := by
  obtain ⟨hleft, hrelations⟩ := @oneByOne_spec scope items g
  have hrelated : ∀ r,
      (Timely g items r → (ingestOneByOne scope items g).related r = some scope) ∧
      (¬ Timely g items r → (ingestOneByOne scope items g).related r = g.related r) :=
    fun r => ⟨fun h => (hrelations r).trans (if_pos h), fun h => (hrelations r).trans (if_neg h)⟩
  constructor
  · intro heq
    obtain ⟨htexts, hprops⟩ := (paragraphs_iff hleft).mp (congrArg DocGraph.paragraphs heq)
    exact ⟨(documents_iff hleft).mp (congrArg DocGraph.documents heq), htexts, hprops,
      (hasParagraph_iff hleft).mp (congrArg DocGraph.hasParagraph heq),
      (hasEntity_iff hleft).mp (congrArg DocGraph.hasEntity heq),
      (related_iff hrelated).mp (congrArg DocGraph.related heq)⟩
  · intro h
    exact docGraph_ext ((documents_iff hleft).mpr h.documents)
      ((paragraphs_iff hleft).mpr ⟨h.texts, h.props⟩)
      ((batch_entities scope items g).trans hleft.entities.symm)
      ((hasParagraph_iff hleft).mpr h.hasParagraph) ((hasEntity_iff hleft).mpr h.links)
      ((related_iff hrelated).mpr h.relations)

theorem covered_of_all {ρ κ β : Type} [DecidableEq κ] {key : ρ → κ} {value : ρ → β}
    {p : ρ → Bool} {rows : List ρ} {s : κ → Option β} (h : ∀ r ∈ rows, p r = true) :
    Covered key value p rows s := by
  intro k r hlast hr
  have hin := (List.mem_filter.mp (List.mem_of_getLast? hlast)).1
  rw [h r hin] at hr
  cases hr

/-- Items with a text whose relations lead between their own entities leave nothing to notice. -/
theorem unnoticed_of_texted (scope : Scope) (g : DocGraph) (htexted : ∀ item ∈ items, item.texted)
    (hown : ∀ item ∈ items, ∀ r ∈ item.relatedKeys,
      (∃ node ∈ item.nodes, node.id = r.source) ∧ ∃ node ∈ item.nodes, node.id = r.target) :
    Unnoticed scope g items := by
  have hrows : ∀ row ∈ batchRows items, row.text ≠ "" := by
    intro row hrow
    obtain ⟨item, hitem, hitemRow⟩ := List.mem_filterMap.mp hrow
    obtain ⟨text, htext, hne⟩ := texted_iff.mp (htexted item hitem)
    rw [DocItem.paragraphRow, htext] at hitemRow
    cases hitemRow
    exact hne
  have hlinks : ∀ link ∈ matchedLinks g items, link.1 = true := by
    intro link hlink
    obtain ⟨item, hitem, hlink⟩ := List.mem_flatMap.mp (List.mem_filter.mp hlink).1
    obtain ⟨row, -, rfl⟩ := List.mem_map.mp hlink
    exact htexted item hitem
  refine ⟨covered_of_all fun row hrow => decide_eq_true (hrows row hrow),
    covered_of_all fun row hrow => decide_eq_true (hrows row hrow),
    covered_of_all fun row hrow => decide_eq_true (hrows row (List.mem_filter.mp hrow).1),
    fun row hrow htext => absurd htext (hrows row hrow), covered_of_all hlinks, ?_⟩
  rintro r ⟨item, hitem, hr⟩ -
  obtain ⟨before, after, rfl⟩ := List.append_of_mem hitem
  have hknown : ∀ {id}, (∃ node ∈ item.nodes, node.id = id) → Known g (before ++ [item]) id :=
    fun h => .inr ⟨item.key, item, by simp, rfl, h⟩
  obtain ⟨hsource, htarget⟩ := hown item hitem r hr
  exact ⟨before, item, after, rfl, hr, hknown hsource, hknown htarget⟩

/-! ## Two batches -/

def sampleEntity : DocNode := ⟨"e1", "Acme", "ORG", "acme", [], none⟩

/-- The empty text of a paragraph. -/
def emptyTextItems : List DocItem := [⟨"guide.md", 0, some "", false, none, [], []⟩]

/-- A paragraph, and entities for it without its text. -/
def textlessItems : List DocItem :=
  [⟨"guide.md", 0, some "Acme sells.", false, none, [], []⟩,
    ⟨"guide.md", 0, none, false, none, [sampleEntity], []⟩]

/-- Only the batch writes the paragraph of an empty text, and a `HAS_ENTITY` relationship for an
item without one. -/
theorem batches_differ :
    ingestToGraphBatch ⟨none, none⟩ emptyTextItems .empty ≠
      ingestOneByOne ⟨none, none⟩ emptyTextItems .empty ∧
    ingestToGraphBatch ⟨none, none⟩ textlessItems .empty ≠
      ingestOneByOne ⟨none, none⟩ textlessItems .empty := by
  constructor
  · intro h
    have hdocument : (ingestToGraphBatch ⟨none, none⟩ emptyTextItems .empty).documents "guide.md" =
        (ingestOneByOne ⟨none, none⟩ emptyTextItems .empty).documents "guide.md" := by rw [h]
    exact absurd hdocument (by decide)
  · intro h
    have hlink : (ingestToGraphBatch ⟨none, none⟩ textlessItems .empty).hasEntity
        (⟨"guide.md", 0⟩, "e1") =
        (ingestOneByOne ⟨none, none⟩ textlessItems .empty).hasEntity
          (⟨"guide.md", 0⟩, "e1") := by rw [h]
    exact absurd hlink (by decide)

end CortexHarness.Docs
