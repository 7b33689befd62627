import CortexHarness.Docs.Graph

/-!
# Projects that share a document graph

What a batch of one project does to what another project has stored. Every element that
`ingest_to_graph_batch` writes is stamped with `project_id_normalized`, but only entities are merged
under a key that names the project.

Results:
* `unchanged_iff`: a batch leaves what another project has stored alone exactly when it writes under
  none of its keys (`Apart`);
* `carried_iff`: what a batch wrote carries its project, except for new `HAS_PARAGRAPH` relationships;
* `projects_apart_iff`: both; `readme_replaced`: two documents of one name;
* `entities_apart`: the entities that are built for two projects have different keys, when no project
  id has a colon.
-/

namespace CortexHarness.Docs

/-- The element is stored for project `a`. -/
def Scope.isOf (scope : Scope) (a : String) : Prop := scope.projectIdNormalized = some a

/-- What `a` has stored in `g` is as it was in `g'`. -/
structure Unchanged (a : String) (g g' : DocGraph) : Prop where
  documents : ∀ k d, g.documents k = some d → d.scope.isOf a → g'.documents k = some d
  paragraphs : ∀ k p, g.paragraphs k = some p → p.scope.isOf a → g'.paragraphs k = some p
  entities : ∀ k e, g.entities k = some e → e.scope.isOf a → g'.entities k = some e
  hasParagraph : ∀ k s, g.hasParagraph k = some s → g'.hasParagraph k = some s
  hasEntity : ∀ k e, g.hasEntity k = some e → e.scope.isOf a → g'.hasEntity k = some e
  related : ∀ k s, g.related k = some s → s.isOf a → g'.related k = some s

/-- The nodes and the relationships that the batch wrote in `g'`, but for `HAS_PARAGRAPH`, carry the
project `b`. A relationship without its ends is not written. -/
structure Stamped (b : String) (items : List DocItem) (g' : DocGraph) : Prop where
  documents : ∀ k, writesDocument items k → ∃ d, g'.documents k = some d ∧ d.scope.isOf b
  paragraphs : ∀ k, writesParagraph items k → ∃ p, g'.paragraphs k = some p ∧ p.scope.isOf b
  entities : ∀ k, writesEntity items k → ∃ e, g'.entities k = some e ∧ e.scope.isOf b
  hasEntity : ∀ k, writesHasEntity items k → (g'.paragraphs k.1).isSome →
    ∃ e, g'.hasEntity k = some e ∧ e.scope.isOf b
  related : ∀ k, writesRelated items k → (g'.entities k.source).isSome →
    (g'.entities k.target).isSome → ∃ s, g'.related k = some s ∧ s.isOf b

/-- Every element that the batch wrote in `g'` carries the project `b`. -/
structure Carried (b : String) (items : List DocItem) (g' : DocGraph) : Prop extends
    Stamped b items g' where
  hasParagraph : ∀ k, writesParagraph items k →
    ∃ s, g'.hasParagraph (k.sourceId, k) = some s ∧ s.isOf b

/-- No element of `a` is stored under a key that the batch writes. -/
structure ApartFrom (a : String) (items : List DocItem) (g : DocGraph) : Prop where
  documents : ∀ k d, g.documents k = some d → d.scope.isOf a → ¬ writesDocument items k
  paragraphs : ∀ k p, g.paragraphs k = some p → p.scope.isOf a → ¬ writesParagraph items k
  entities : ∀ k e, g.entities k = some e → e.scope.isOf a → ¬ writesEntity items k
  hasEntity : ∀ k e, g.hasEntity k = some e → e.scope.isOf a → ¬ writesHasEntity items k
  related : ∀ k s, g.related k = some s → s.isOf a → ¬ writesRelated items k

section Batch

variable {a b projectId : String} {items : List DocItem} {g : DocGraph}

theorem stamped : Stamped b items (ingestToGraphBatch (.of projectId b) items g) where
  documents _ h := by
    obtain ⟨d, hd, hscope⟩ := ingest_document h
    exact ⟨d, hd, by rw [hscope]; rfl⟩
  paragraphs _ h := by
    obtain ⟨p, hp, hscope⟩ := ingest_paragraph h
    exact ⟨p, hp, by rw [hscope]; rfl⟩
  entities _ h := by
    obtain ⟨e, he, hscope⟩ := ingest_entity h
    exact ⟨e, he, by rw [hscope]; rfl⟩
  hasEntity _ h hparagraph := by
    obtain ⟨e, he, hscope⟩ := ingest_hasEntity h hparagraph
    exact ⟨e, he, by rw [hscope]; rfl⟩
  related _ h hsource htarget := ⟨_, ingest_related h hsource htarget, rfl⟩

theorem ingest_isSome :
    (∀ {k}, (g.paragraphs k).isSome →
      ((ingestToGraphBatch (.of projectId b) items g).paragraphs k).isSome) ∧
    ∀ {k}, (g.entities k).isSome →
      ((ingestToGraphBatch (.of projectId b) items g).entities k).isSome :=
  ⟨fun h => Merges.isSome_merge.mpr (.inl h), fun h => Merges.isSome_merge.mpr (.inl h)⟩

theorem Scope.isOf.ne {scope : Scope} (h : scope.isOf a) (hne : a ≠ b) : ¬ scope.isOf b :=
  fun hb => hne (Option.some.inj (h.symm.trans hb))

/-- **A batch leaves what another project has stored alone exactly when it writes under none of its
keys.** -/
theorem unchanged_iff (hne : a ≠ b) :
    Unchanged a g (ingestToGraphBatch (.of projectId b) items g) ↔ ApartFrom a items g := by
  have hstamped : Stamped b items (ingestToGraphBatch (.of projectId b) items g) := stamped
  constructor
  · intro h
    constructor
    · intro k d hd ha hw
      obtain ⟨d', hd', hb⟩ := hstamped.documents k hw
      rw [h.documents k d hd ha] at hd'
      exact ha.ne hne (Option.some.inj hd' ▸ hb)
    · intro k p hp ha hw
      obtain ⟨p', hp', hb⟩ := hstamped.paragraphs k hw
      rw [h.paragraphs k p hp ha] at hp'
      exact ha.ne hne (Option.some.inj hp' ▸ hb)
    · intro k e he ha hw
      obtain ⟨e', he', hb⟩ := hstamped.entities k hw
      rw [h.entities k e he ha] at he'
      exact ha.ne hne (Option.some.inj he' ▸ hb)
    · intro k e he ha hw
      have hends := g.hasEntity_ends k (by rw [he]; rfl)
      obtain ⟨e', he', hb⟩ := hstamped.hasEntity k hw (ingest_isSome.1 hends.1)
      rw [h.hasEntity k e he ha] at he'
      exact ha.ne hne (Option.some.inj he' ▸ hb)
    · intro k s hs ha hw
      have hends := g.related_ends k (by rw [hs]; rfl)
      obtain ⟨s', hs', hb⟩ := hstamped.related k hw (ingest_isSome.2 hends.1)
        (ingest_isSome.2 hends.2)
      rw [h.related k s hs ha] at hs'
      exact ha.ne hne (Option.some.inj hs' ▸ hb)
  · intro h
    constructor
    · exact fun k d hd ha => (ingest_document_other (h.documents k d hd ha)).trans hd
    · exact fun k p hp ha => (ingest_paragraph_other (h.paragraphs k p hp ha)).trans hp
    · exact fun k e he ha => (ingest_entity_other (h.entities k e he ha)).trans he
    · exact fun k s hs => ingest_hasParagraph_old hs
    · exact fun k e he ha => (ingest_hasEntity_other (h.hasEntity k e he ha)).trans he
    · exact fun k s hs ha => (ingest_related_other (h.related k s hs ha)).trans hs

/-- **What a batch wrote carries its project, except for new `HAS_PARAGRAPH` relationships.** -/
theorem carried_iff :
    Carried b items (ingestToGraphBatch (.of projectId b) items g) ↔
      ∀ k, writesParagraph items k → ∃ s, g.hasParagraph (k.sourceId, k) = some s ∧ s.isOf b := by
  constructor
  · intro h k hk
    obtain ⟨s, hs, hb⟩ := h.hasParagraph k hk
    cases hold : g.hasParagraph (k.sourceId, k) with
    | none =>
      rw [ingest_hasParagraph_new hk hold] at hs
      obtain rfl := Option.some.inj hs
      cases hb
    | some old =>
      rw [ingest_hasParagraph_old hold] at hs
      exact ⟨s, hs, hb⟩
  · intro h
    refine { stamped with hasParagraph := fun k hk => ?_ }
    obtain ⟨s, hs, hb⟩ := h k hk
    exact ⟨s, ingest_hasParagraph_old hs, hb⟩

/-- **When two projects stay apart.** -/
theorem projects_apart_iff (hne : a ≠ b) :
    (Unchanged a g (ingestToGraphBatch (.of projectId b) items g) ∧
        Carried b items (ingestToGraphBatch (.of projectId b) items g)) ↔
      ApartFrom a items g ∧
        ∀ k, writesParagraph items k → ∃ s, g.hasParagraph (k.sourceId, k) = some s ∧ s.isOf b :=
  and_congr (unchanged_iff hne) carried_iff

/-- **The entities that are built for two projects have different keys**, when no project id has a
colon. -/
theorem entities_apart {env : Texts} (huuid : Function.Injective env.uuid5) (hne : a ≠ b)
    (ha : ':' ∉ a.toList) (hb : ':' ∉ b.toList) (ha' : a ≠ "") (hb' : b ≠ "")
    (hstored : ∀ k e, g.entities k = some e → e.scope.isOf a →
      ∃ entType nameNorm, k = env.uuid5 (entityKey entType nameNorm (some a)))
    (hbuilt : ∀ item ∈ items, ∃ mode entities relations, item.nodes =
      (buildGraphComponentsFromEntities env mode (some b) entities relations).1)
    {k : String} {e : EntityNode} (he : g.entities k = some e) (hof : e.scope.isOf a) :
    ¬ writesEntity items k := by
  rintro ⟨key, item, hitem, -, node, hnode, hid⟩
  obtain ⟨entType, nameNorm, hk⟩ := hstored k e he hof
  obtain ⟨mode, entities, relations, hnodes⟩ := hbuilt item hitem
  rw [hnodes] at hnode
  exact hne (entityId_scope huuid ha hb ha' hb' (by rw [← hk, ← build_ids hnode, hid]))

end Batch

/-! ## Two projects with a document of one name -/

section Sample

/-- A document with one paragraph and no entities. -/
def sampleItem (sourceId text : String) : DocItem where
  sourceId := sourceId
  paragraphId := 0
  paragraphText := text
  isShort := false
  paragraphProps := none
  nodes := []
  relations := []

/-- What project `alpha` stored of its `README.md`. -/
def sampleGraph : DocGraph :=
  ingestToGraphBatch (.of "alpha" "alpha") [sampleItem "README.md" "The alpha service."] .empty

/-- **The `README.md` of one project replaces that of another.** -/
theorem readme_replaced :
    ¬ (Unchanged "alpha" sampleGraph (ingestToGraphBatch (.of "beta" "beta")
          [sampleItem "README.md" "The beta service."] sampleGraph) ∧
        Carried "beta" [sampleItem "README.md" "The beta service."]
          (ingestToGraphBatch (.of "beta" "beta") [sampleItem "README.md" "The beta service."]
            sampleGraph)) := by
  rintro ⟨hunchanged, -⟩
  have hstored : sampleGraph.paragraphs { sourceId := "README.md", paragraphId := 0 } =
      some ⟨"The alpha service.", false, .of "alpha" "alpha", none⟩ := by decide
  have hafter : (ingestToGraphBatch (.of "beta" "beta") [sampleItem "README.md" "The beta service."]
      sampleGraph).paragraphs { sourceId := "README.md", paragraphId := 0 } =
        some ⟨"The beta service.", false, .of "beta" "beta", none⟩ := by decide
  have hkept := hunchanged.paragraphs _ _ hstored rfl
  rw [hafter] at hkept
  exact absurd hkept (by decide)

theorem readme_apart_iff :
    (Unchanged "alpha" sampleGraph (ingestToGraphBatch (.of "beta" "beta")
          [sampleItem "guide.md" "The beta service."] sampleGraph) ∧
        Carried "beta" [sampleItem "guide.md" "The beta service."]
          (ingestToGraphBatch (.of "beta" "beta") [sampleItem "guide.md" "The beta service."]
            sampleGraph)) ↔
      ApartFrom "alpha" [sampleItem "guide.md" "The beta service."] sampleGraph ∧
        ∀ k, writesParagraph [sampleItem "guide.md" "The beta service."] k →
          ∃ s, sampleGraph.hasParagraph (k.sourceId, k) = some s ∧ s.isOf "beta" :=
  projects_apart_iff (by decide)

end Sample

end CortexHarness.Docs
