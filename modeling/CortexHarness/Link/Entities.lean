import CortexHarness.Library.Points
import CortexHarness.Link.OrderFree
import CortexHarness.Link.Paging

/-!
# Reading the entities of a document graph

`read_doc_entity_names` (`link_engine.py:406-535`) collects, for every paragraph of a project, the
names of the entities it mentions. Without a match index it pages through all edges. With one it
reads the entities first, keeps those whose name is a known symbol, and asks for the edges of five
hundred of them at a time, in one query that is not paged.

* `DocGraph` holds nodes and edges, `DocServer` cuts every answer after `cap` rows.
* `TwoStage` says what the short way relies on: the entities that matter carry the project id, as
  the paragraphs do, and the edges of no chunk are cut.

Results:
* `mem_namesOf`: the names that are collected for a paragraph;
* `identities_of_names`: the pairs come from the names that the index knows;
* **`two_stage_agrees`**: both ways lead to the same pairs.
-/

namespace CortexHarness.Link

open CortexHarness.Json CortexHarness.Loops Table

variable (P : Platform) (py : Python)

/-! ## The document graph -/

/-- The property value of a node. -/
def Scalar.json : Scalar → Json
  | .null => .null
  | .bool b => .bool b
  | .int n => .int n
  | .float repr => .float repr
  | .str s => .str s

/-- A value read from a row. -/
def scalarOf : Json → Scalar
  | .bool b => .bool b
  | .int n => .int n
  | .float repr => .float repr
  | .str s => .str s
  | _ => .null

structure ParagraphNode where
  id : Int
  project : Scalar
  sourceId : Scalar
  paragraphId : Scalar

structure EntityNode where
  id : Int
  project : Scalar
  name : Scalar

/-- The entities of a document graph, and its `HAS_ENTITY` edges. -/
structure DocGraph where
  entities : List EntityNode
  edges : List (ParagraphNode × EntityNode)
  entity_ids : (entities.map (·.id)).Nodup
  edge_ids : (edges.map fun x => (x.1.id, x.2.id)).Nodup
  endpoints : ∀ x ∈ edges, x.2 ∈ entities

/-- A graph behind a server that cuts every answer after `cap` rows. -/
structure DocServer where
  graph : DocGraph
  cap : Nat
  /-- the order of an answer for which no order was asked -/
  arrange : List (ParagraphNode × EntityNode) → List (ParagraphNode × EntityNode)
  arrange_perm : ∀ edges, (arrange edges).Perm edges
  /-- the query that counts the entities does not fail -/
  counts : Bool := true

/-! ## The queries -/

/-- `RETURN id(e) AS _node_id, e.name AS name` -/
def EntityNode.row (e : EntityNode) : Row := [("_node_id", .int e.id), ("name", e.name.json)]

/-- `RETURN p.source_id AS source_id, p.paragraph_id AS paragraph_id, e.name AS name` -/
def mentionRow (x : ParagraphNode × EntityNode) : Row :=
  [("source_id", x.1.sourceId.json), ("paragraph_id", x.1.paragraphId.json),
    ("name", x.2.name.json)]

/-- `RETURN id(p) AS _node_id, id(e) AS _entity_id, …` -/
def edgeRow (x : ParagraphNode × EntityNode) : Row :=
  ("_node_id", .int x.1.id) :: ("_entity_id", .int x.2.id) :: mentionRow x

/-- `e.project_id_normalized = $pid` -/
def EntityNode.inProject (pid : String) (e : EntityNode) : Bool := e.project == .str pid

/-- `p.project_id_normalized = $pid` -/
def ParagraphNode.inProject (pid : String) (p : ParagraphNode) : Bool := p.project == .str pid

def DocGraph.entityRows (g : DocGraph) (pid : String) : List Row :=
  (g.entities.filter (·.inProject pid)).map EntityNode.row

def DocGraph.edgeRows (g : DocGraph) (pid : String) : List Row :=
  (g.edges.filter (·.1.inProject pid)).map edgeRow

/-- The edges of a chunk of entities. -/
def DocGraph.edgesOf (g : DocGraph) (pid : String) (eids : List Int) :
    List (ParagraphNode × EntityNode) :=
  g.edges.filter fun x => x.1.inProject pid && eids.contains x.2.id

variable (server : DocServer) (pid : String)

/-- `entity_count` -/
def DocServer.entityCount : Nat :=
  if server.counts then (server.graph.entityRows pid).length else 0

/-- The answer to the query for the edges of a chunk. -/
def DocServer.edgesAnswer (eids : List Int) : List Row :=
  ((server.arrange (server.graph.edgesOf pid eids)).take server.cap).map mentionRow

/-! ## The code -/

/-- `SYMBOL_READ_BATCH` -/
def symbolReadBatch : Nat := 5000

/-- `match_index_lookup` -/
def matchIndexLookup (index : MatchIndex) (token : String) : List (CodeSymbolRef × Rat × String) :=
  if isLinkableToken token then
    (index.refs (tokenMatchKey token)).map fun symbol =>
      (symbol, exactNameScore, exactNameProvenance)
  else []

/-- `str(row.get("name") or "").strip()` -/
def nameOf (row : Row) : String := strip (py.strOr (some (field row "name")) "")

/-- `(str(row.get("source_id") or ""), row.get("paragraph_id"))` -/
def anchorOf (row : Row) : Anchor :=
  (py.strOr (some (field row "source_id")) "", P.same (scalarOf (field row "paragraph_id")))

/-- `mentions.get(anchor, [])` -/
def namesOf (mentions : Mentions) (anchor : Anchor) : List String :=
  ((lookup Prod.fst anchor mentions).map Prod.snd).getD []

/-- One row of edges. -/
def addMention (mentions : Mentions) (row : Row) : Mentions :=
  let anchor := anchorOf P py row
  let name := nameOf py row
  if anchor.1 = "" || name = "" then mentions
  else
    let names := namesOf mentions anchor
    assign Prod.fst (anchor, if names.contains name then names else names ++ [name]) mentions

/-- The name is that of a known symbol. -/
def known (index : MatchIndex) (name : String) : Bool :=
  isLinkableEntityToken P.toUnicode name && !(matchIndexLookup index name).isEmpty

/-- `matched_eids` -/
def matchedEids (index : MatchIndex) (rows : List Row) : List Int :=
  rows.filterMap fun row =>
    if known P index (nameOf py row) then idOf (field row "_node_id") else none

/-- The edges of the entities, five hundred entities at a time. -/
def mentionsOf (eids : List Int) : Mentions :=
  (Points.batches 500 eids).foldl (fun mentions chunk =>
    (server.edgesAnswer pid chunk).foldl (addMention P py) mentions) []

/-- `read_doc_entity_names` -/
def readDocEntityNames (index : Option MatchIndex) (fuel : Nat) : Option Mentions :=
  let plain := (pagedRows (Graph.exact (server.graph.edgeRows pid) fun _ => server.cap)
    symbolReadBatch "HAS_ENTITY edges" fuel).map fun read => read.1.foldl (addMention P py) []
  match index with
  | none => plain
  | some index =>
    if 0 < server.entityCount pid then
      (pagedRows (Graph.exact (server.graph.entityRows pid) fun _ => server.cap) symbolReadBatch
        "Entity" fuel).map fun read => mentionsOf P py server pid (matchedEids P py index read.1)
    else plain

/-! ## What the short way relies on -/

/-- The entities that matter carry the project id, and no chunk of edges is cut. -/
structure TwoStage (index : MatchIndex) : Prop where
  tagged : ∀ x ∈ server.graph.edges, x.1.inProject pid = true →
    known P index (nameOf py (mentionRow x)) = true → x.2.inProject pid = true
  fits : ∀ chunk ∈ Points.batches 500
      (matchedEids P py index (orderById (server.graph.entityRows pid))),
    (server.graph.edgesOf pid chunk).length ≤ server.cap

variable {P py server pid}

/-! ## The rows -/

theorem rowIdTuple_entityRow (e : EntityNode) : rowIdTuple e.row = [e.id] := by
  have hid : (startsWith "_node_id" "_" && endsWith "_node_id" "_id") = true := by decide
  have hname : ¬ (startsWith "name" "_" && endsWith "name" "_id") = true := by decide
  simp only [rowIdTuple, EntityNode.row, List.filterMap_cons, List.filterMap_nil, if_pos hid,
    if_neg hname, idOf]

theorem rowIdTuple_edgeRow (x : ParagraphNode × EntityNode) :
    rowIdTuple (edgeRow x) = [x.1.id, x.2.id] := by
  have hnode : (startsWith "_node_id" "_" && endsWith "_node_id" "_id") = true := by decide
  have hentity : (startsWith "_entity_id" "_" && endsWith "_entity_id" "_id") = true := by decide
  have hrest : rowIdTuple (mentionRow x) = [] := by
    have hsource : ¬ (startsWith "source_id" "_" && endsWith "source_id" "_id") = true := by decide
    have hparagraph : ¬ (startsWith "paragraph_id" "_" && endsWith "paragraph_id" "_id") = true :=
      by decide
    have hname : ¬ (startsWith "name" "_" && endsWith "name" "_id") = true := by decide
    simp only [rowIdTuple, mentionRow, List.filterMap_cons, List.filterMap_nil, if_neg hsource,
      if_neg hparagraph, if_neg hname]
  unfold rowIdTuple at hrest ⊢
  rw [edgeRow, List.filterMap_cons, List.filterMap_cons, hrest]
  simp only [if_pos hnode, if_pos hentity, idOf]

/-- The ids of the entities are those of nodes. -/
theorem idTuples_entityRows (g : DocGraph) (pid : String) : IdTuples (g.entityRows pid) where
  width := Or.inl fun r hr => by
    obtain ⟨e, -, rfl⟩ := List.mem_map.mp hr
    rw [rowIdTuple_entityRow]
    rfl
  distinct := by
    have hids : (g.entityRows pid).map rowIdTuple =
        ((g.entities.filter (·.inProject pid)).map (·.id)).map fun id => [id] := by
      rw [DocGraph.entityRows, List.map_map, List.map_map]
      exact List.map_congr_left fun e _ => rowIdTuple_entityRow e
    rw [hids]
    refine (g.entity_ids.sublist (List.filter_sublist.map _)).map fun a b h => ?_
    exact (List.cons.inj h).1

theorem idTuples_edgeRows (g : DocGraph) (pid : String) : IdTuples (g.edgeRows pid) where
  width := Or.inr fun r hr => by
    obtain ⟨x, -, rfl⟩ := List.mem_map.mp hr
    rw [rowIdTuple_edgeRow]
    rfl
  distinct := by
    have hids : (g.edgeRows pid).map rowIdTuple =
        ((g.edges.filter (·.1.inProject pid)).map fun x => (x.1.id, x.2.id)).map
          fun ids => [ids.1, ids.2] := by
      rw [DocGraph.edgeRows, List.map_map, List.map_map]
      exact List.map_congr_left fun x _ => rowIdTuple_edgeRow x
    rw [hids]
    refine (g.edge_ids.sublist (List.filter_sublist.map _)).map fun a b h => ?_
    obtain ⟨hfirst, hrest⟩ := List.cons.inj h
    exact Prod.ext hfirst (List.cons.inj hrest).1

/-! ## The names of a paragraph -/

theorem namesOf_assign (anchor : Anchor) (names : List String) (mentions : Mentions) (a : Anchor) :
    namesOf (assign Prod.fst (anchor, names) mentions) a =
      if anchor = a then names else namesOf mentions a := by
  unfold namesOf
  rw [lookup_assign]
  split <;> rfl

/-- **The names collected for a paragraph** are those in the rows of its anchor. -/
theorem mem_namesOf {rows : List Row} {mentions : Mentions} {anchor : Anchor} {name : String} :
    name ∈ namesOf (rows.foldl (addMention P py) mentions) anchor ↔
      name ∈ namesOf mentions anchor ∨
        ∃ row ∈ rows, anchorOf P py row = anchor ∧ nameOf py row = name ∧ anchor.1 ≠ "" ∧
          name ≠ "" := by
  induction rows generalizing mentions with
  | nil => simp
  | cons row rows ih =>
    rw [List.foldl_cons, ih, List.exists_mem_cons_iff, ← or_assoc]
    refine or_congr_left ?_
    unfold addMention
    dsimp only
    split
    · next hempty =>
      rw [Bool.or_eq_true, decide_eq_true_eq, decide_eq_true_eq] at hempty
      refine (or_iff_left_of_imp ?_).symm
      rintro ⟨rfl, rfl, hanchor, hname⟩
      rcases hempty with h | h
      · exact absurd h hanchor
      · exact absurd h hname
    · next hboth =>
      rw [Bool.or_eq_true, decide_eq_true_eq, decide_eq_true_eq, not_or] at hboth
      rw [namesOf_assign]
      by_cases hanchor : anchorOf P py row = anchor
      · subst hanchor
        rw [if_pos rfl]
        split
        · next hold =>
          refine (or_iff_left_of_imp ?_).symm
          rintro ⟨-, rfl, -⟩
          exact List.contains_iff_mem.mp hold
        · rw [List.mem_append, List.mem_singleton]
          refine or_congr_right ⟨?_, fun h => h.2.1.symm⟩
          rintro rfl
          exact ⟨rfl, rfl, hboth⟩
      · rw [if_neg hanchor]
        exact (or_iff_left_of_imp fun h => absurd h.1 hanchor).symm

/-- The edge leads from a paragraph with the anchor to an entity with the name. -/
def Mentioning (P : Platform) (py : Python) (anchor : Anchor) (name : String)
    (x : ParagraphNode × EntityNode) : Prop :=
  anchorOf P py (mentionRow x) = anchor ∧ nameOf py (mentionRow x) = name ∧ anchor.1 ≠ "" ∧
    name ≠ ""

theorem mem_plain {anchor : Anchor} {name : String} :
    name ∈ namesOf ((orderById (server.graph.edgeRows pid)).foldl (addMention P py) []) anchor ↔
      ∃ x ∈ server.graph.edges, x.1.inProject pid = true ∧ Mentioning P py anchor name x := by
  rw [mem_namesOf]
  constructor
  · rintro (h | ⟨row, hrow, h⟩)
    · cases h
    · obtain ⟨x, hx, rfl⟩ := List.mem_map.mp ((orderById_perm _).mem_iff.mp hrow)
      obtain ⟨hx, hproject⟩ := List.mem_filter.mp hx
      exact ⟨x, hx, hproject, h⟩
  · rintro ⟨x, hx, hproject, h⟩
    refine Or.inr ⟨edgeRow x, (orderById_perm _).mem_iff.mpr ?_, h⟩
    exact List.mem_map_of_mem (List.mem_filter.mpr ⟨hx, hproject⟩)

theorem mem_mentionsOf {eids : List Int} {anchor : Anchor} {name : String} :
    name ∈ namesOf (mentionsOf P py server pid eids) anchor ↔
      ∃ chunk ∈ Points.batches 500 eids,
        ∃ x ∈ (server.arrange (server.graph.edgesOf pid chunk)).take server.cap,
          Mentioning P py anchor name x := by
  unfold mentionsOf
  rw [← List.foldl_flatMap, mem_namesOf]
  constructor
  · rintro (h | ⟨row, hrow, h⟩)
    · cases h
    · obtain ⟨chunk, hchunk, hrow⟩ := List.mem_flatMap.mp hrow
      obtain ⟨x, hx, rfl⟩ := List.mem_map.mp hrow
      exact ⟨chunk, hchunk, x, hx, h⟩
  · rintro ⟨chunk, hchunk, x, hx, h⟩
    exact Or.inr ⟨mentionRow x, List.mem_flatMap.mpr ⟨chunk, hchunk, List.mem_map_of_mem hx⟩, h⟩

/-- **The names that the index knows are the same**, whichever way they are read. -/
theorem mem_mentionsOf_iff {index : MatchIndex} (h : TwoStage P py server pid index)
    {anchor : Anchor} {name : String} (hknown : known P index name = true) :
    name ∈ namesOf (mentionsOf P py server pid
        (matchedEids P py index (orderById (server.graph.entityRows pid)))) anchor ↔
      name ∈ namesOf
        ((orderById (server.graph.edgeRows pid)).foldl (addMention P py) []) anchor := by
  rw [mem_mentionsOf, mem_plain]
  constructor
  · rintro ⟨chunk, -, x, hx, hmention⟩
    have hedge := (server.arrange_perm _).mem_iff.mp (List.mem_of_mem_take hx)
    obtain ⟨hx, hproject⟩ := List.mem_filter.mp hedge
    exact ⟨x, hx, (Bool.and_eq_true_iff.mp hproject).1, hmention⟩
  · rintro ⟨x, hx, hproject, hmention⟩
    have hname := hmention.2.1
    have htagged := h.tagged x hx hproject (hname ▸ hknown)
    have hid : x.2.id ∈ matchedEids P py index (orderById (server.graph.entityRows pid)) := by
      refine List.mem_filterMap.mpr ⟨x.2.row, (orderById_perm _).mem_iff.mpr ?_, ?_⟩
      · exact List.mem_map_of_mem
          (List.mem_filter.mpr ⟨server.graph.endpoints x hx, htagged⟩)
      · have hrow : nameOf py x.2.row = name := hname
        rw [hrow, if_pos hknown]
        rfl
    have hflat : (Points.batches 500 (matchedEids P py index
        (orderById (server.graph.entityRows pid)))).flatten = _ :=
      Points.flatten_batches (by decide)
    rw [← hflat] at hid
    obtain ⟨chunk, hchunk, hid⟩ := List.mem_flatten.mp hid
    refine ⟨chunk, hchunk, x, ?_, hmention⟩
    have hfits : (server.arrange (server.graph.edgesOf pid chunk)).length ≤ server.cap := by
      rw [(server.arrange_perm _).length_eq]
      exact h.fits chunk hchunk
    rw [List.take_of_length_le hfits, (server.arrange_perm _).mem_iff]
    refine List.mem_filter.mpr ⟨hx, ?_⟩
    rw [hproject, List.contains_iff_mem.mpr hid]
    rfl

/-! ## The pairs -/

variable {symbols : List EngineSymbol} {paragraphs : List ParagraphRef} {p : ParagraphRef}
  {mentions mentions' : Mentions} {index : MatchIndex}

theorem isLinkableToken_strip (value : String) :
    isLinkableToken (strip value) = isLinkableToken value := by
  have hkey : tokenMatchKey (strip value) = tokenMatchKey value := by
    unfold tokenMatchKey
    rw [strip_strip]
  unfold isLinkableToken
  rw [hkey]

theorem known_iff {name : String} : known P index name = true ↔
    isLinkableEntityToken P.toUnicode name = true ∧ index.refs (tokenMatchKey name) ≠ [] := by
  unfold known
  rw [Bool.and_eq_true]
  refine and_congr_right fun hname => ?_
  have htoken : isLinkableToken name = true := by
    unfold isLinkableEntityToken at hname
    simp only [Bool.and_eq_true] at hname
    rw [← isLinkableToken_strip]
    exact hname.1.2
  unfold matchIndexLookup
  rw [if_pos htoken]
  simp

theorem tokenCandidates_congr {stems stems' : List String}
    (h : ∀ stem, stem ∈ stems ↔ stem ∈ stems') (key : List String) :
    tokenCandidates P symbols index stems key = tokenCandidates P symbols index stems' key := by
  have hcontains : ∀ stem, stems.contains stem = stems'.contains stem := fun stem => by
    rw [Bool.eq_iff_iff, List.contains_iff_mem, List.contains_iff_mem, h]
  unfold tokenCandidates
  simp only [hcontains]

theorem activeStems_congr {keys keys' : List (List String)} (h : ∀ key, key ∈ keys ↔ key ∈ keys')
    (stem : String) :
    stem ∈ activeStems P symbols index p keys ↔ stem ∈ activeStems P symbols index p keys' := by
  unfold activeStems
  simp only [List.mem_append, List.mem_filter, List.mem_map, List.mem_flatMap, h]

theorem mem_paragraphKeys {key : List String} : key ∈ paragraphKeys P index mentions p ↔
    key ∈ addKeys index [] ((extractIdentifierTokens P.toUnicode p.text).filter isLinkableToken) ∨
      ∃ name ∈ namesOf mentions (p.anchor P), isLinkableEntityToken P.toUnicode name = true ∧
        tokenMatchKey name = key ∧ key ≠ [] ∧ (lookup Prod.fst key index).isSome = true := by
  unfold paragraphKeys namesOf
  dsimp only
  rw [mem_addKeys]
  refine or_congr_right (exists_congr fun name => ?_)
  rw [List.mem_filter, and_assoc]

/-- **The identities a paragraph mentions come from the names that the index knows.** -/
theorem identities_of_names
    (h : ∀ name, known P (indexOf P symbols) name = true →
      (name ∈ namesOf mentions (p.anchor P) ↔ name ∈ namesOf mentions' (p.anchor P))) :
    (identities P (paragraphCandidates P symbols (indexOf P symbols) mentions p)).Perm
      (identities P (paragraphCandidates P symbols (indexOf P symbols) mentions' p)) := by
  have hknown : ∀ name, isLinkableEntityToken P.toUnicode name = true →
      (lookup Prod.fst (tokenMatchKey name) (indexOf P symbols)).isSome = true →
        (name ∈ namesOf mentions (p.anchor P) ↔ name ∈ namesOf mentions' (p.anchor P)) :=
    fun name hname hsome => h name (known_iff.mpr ⟨hname, (isSome_lookup symbols _).mp hsome⟩)
  have hkeys : ∀ key, key ∈ paragraphKeys P (indexOf P symbols) mentions p ↔
      key ∈ paragraphKeys P (indexOf P symbols) mentions' p := by
    intro key
    rw [mem_paragraphKeys, mem_paragraphKeys]
    refine or_congr_right (exists_congr fun name => ?_)
    constructor
    · rintro ⟨hmem, hname, rfl, hne, hsome⟩
      exact ⟨(hknown name hname hsome).mp hmem, hname, rfl, hne, hsome⟩
    · rintro ⟨hmem, hname, rfl, hne, hsome⟩
      exact ⟨(hknown name hname hsome).mpr hmem, hname, rfl, hne, hsome⟩
  refine (List.perm_ext_iff_of_nodup (nodup_identities ..) (nodup_identities ..)).mpr fun id => ?_
  rw [mem_identities, mem_identities]
  refine exists_congr fun key => ?_
  rw [hkeys, tokenCandidates_congr (activeStems_congr hkeys)]

/-! ## Both ways -/

theorem plain_ends (hcap : 1 ≤ server.cap) : Ends (readDocEntityNames P py server pid none)
    ((orderById (server.graph.edgeRows pid)).foldl (addMention P py) []) := by
  have hbatch : 1 ≤ symbolReadBatch := by decide
  exact (pagedRows_ends (idTuples_edgeRows server.graph pid) hbatch (fun _ => hcap)
    "HAS_ENTITY edges").map fun read => read.1.foldl (addMention P py) []

theorem filtered_ends (hcap : 1 ≤ server.cap) (hcount : 0 < server.entityCount pid) :
    Ends (readDocEntityNames P py server pid (some index)) (mentionsOf P py server pid
      (matchedEids P py index (orderById (server.graph.entityRows pid)))) := by
  have hbatch : 1 ≤ symbolReadBatch := by decide
  have hread := (pagedRows_ends (idTuples_entityRows server.graph pid) hbatch (fun _ => hcap)
    "Entity").map fun read => mentionsOf P py server pid (matchedEids P py index read.1)
  unfold readDocEntityNames
  simp only [if_pos hcount]
  exact hread

/-- **Both ways of reading the entities lead to the same pairs**, if no entity of the project is
counted, or the entities that matter are the project's own and no chunk of edges is cut. -/
theorem two_stage_agrees (P : Platform) (py : Python) (server : DocServer)
    (hcap : symbolReadBatch ≤ server.cap) (pid : String) (symbols : List EngineSymbol)
    (h : server.entityCount pid = 0 ∨
      TwoStage P py server pid (buildMatchIndex (symbols.map (·.asSymbolRef P))))
    (paragraphs : List ParagraphRef) :
    ∃ full filtered, Ends (readDocEntityNames P py server pid none) full ∧
      Ends (readDocEntityNames P py server pid
        (some (buildMatchIndex (symbols.map (·.asSymbolRef P))))) filtered ∧
      ∀ pair, pair ∈ anchorPairs P (computeScoredPairs P paragraphs full symbols) ↔
        pair ∈ anchorPairs P (computeScoredPairs P paragraphs filtered symbols) := by
  have hpage : 1 ≤ server.cap := (by decide : 1 ≤ symbolReadBatch).trans hcap
  by_cases hcount : 0 < server.entityCount pid
  · have hstage := h.resolve_left (Nat.pos_iff_ne_zero.mp hcount)
    refine ⟨_, _, plain_ends hpage, filtered_ends hpage hcount, anchorPairs_iff ?_⟩
    refine linked_pairsFrom (fun p _ => ?_) (List.Perm.refl _)
    exact identities_of_names fun name hknown => (mem_mentionsOf_iff hstage hknown).symm
  · have hsame : readDocEntityNames P py server pid (some (indexOf P symbols)) =
        readDocEntityNames P py server pid none := by
      funext fuel
      unfold readDocEntityNames
      simp only [if_neg hcount]
    exact ⟨_, _, plain_ends hpage, hsame ▸ plain_ends hpage, fun pair => Iff.rfl⟩

/-- The texts of the samples are no containers. -/
def plainPython : Python where
  sha256Hex text := text
  reprContainer _ := ""
  casefold text := text
  parseInt _ := .error "invalid literal for int()"

/-- A paragraph that mentions the entity `a_bcd`, which belongs to the given project, beside an
entity of the project that it does not mention. -/
def sampleGraph (project : Scalar) : DocGraph where
  entities := [⟨1, .str "p", .str "Invoice"⟩, ⟨2, project, .str "a_bcd"⟩]
  edges := [(⟨7, .str "p", .str "d", .int 1⟩, ⟨2, project, .str "a_bcd"⟩)]
  entity_ids := by simp
  edge_ids := by simp
  endpoints := by simp

def sampleServer (project : Scalar) : DocServer where
  graph := sampleGraph project
  cap := 10000
  arrange edges := edges
  arrange_perm _ := List.Perm.refl _

theorem two_stage_agrees_sample : ∃ full filtered,
    Ends (readDocEntityNames samplePlatform plainPython (sampleServer (.str "p")) "p" none) full ∧
      Ends (readDocEntityNames samplePlatform plainPython (sampleServer (.str "p")) "p"
        (some (buildMatchIndex ([sampleSymbol "x" .null].map (·.asSymbolRef samplePlatform)))))
          filtered ∧
      ∀ pair, pair ∈ anchorPairs samplePlatform (computeScoredPairs samplePlatform
          [⟨"d", .int 1, ""⟩] full [sampleSymbol "x" .null]) ↔
        pair ∈ anchorPairs samplePlatform (computeScoredPairs samplePlatform
          [⟨"d", .int 1, ""⟩] filtered [sampleSymbol "x" .null]) :=
  two_stage_agrees samplePlatform plainPython (sampleServer (.str "p")) (by decide) "p"
    [sampleSymbol "x" .null] (Or.inr {
      tagged := fun x hx _ _ => by
        obtain rfl := List.mem_singleton.mp hx
        decide
      fits := fun chunk _ => (List.length_filter_le _ _).trans (by decide) }) _

/-- An entity without the project id is not found the short way. -/
theorem untagged_entity_lost : ¬ ∀ (P : Platform) (py : Python) (server : DocServer) (pid : String)
    (symbols : List EngineSymbol) (paragraphs : List ParagraphRef) (full filtered : Mentions),
    symbolReadBatch ≤ server.cap → Ends (readDocEntityNames P py server pid none) full →
      Ends (readDocEntityNames P py server pid
        (some (buildMatchIndex (symbols.map (·.asSymbolRef P))))) filtered →
      ∀ pair, pair ∈ anchorPairs P (computeScoredPairs P paragraphs full symbols) ↔
        pair ∈ anchorPairs P (computeScoredPairs P paragraphs filtered symbols) := by
  intro h
  have hedges : (sampleServer .null).graph.edgeRows "p" =
      [edgeRow (⟨7, .str "p", .str "d", .int 1⟩, ⟨2, .null, .str "a_bcd"⟩)] := rfl
  have hentities : (sampleServer .null).graph.entityRows "p" =
      [EntityNode.row ⟨1, .str "p", .str "Invoice"⟩] := rfl
  have hfull : (orderById ((sampleServer .null).graph.edgeRows "p")).foldl
      (addMention samplePlatform plainPython) [] = [(("d", .int 1), ["a_bcd"])] := by
    rw [hedges, orderById, List.mergeSort_singleton]
    decide +kernel
  have hfiltered : mentionsOf samplePlatform plainPython (sampleServer .null) "p"
      (matchedEids samplePlatform plainPython (buildMatchIndex
        ([sampleSymbol "x" .null].map (·.asSymbolRef samplePlatform)))
        (orderById ((sampleServer .null).graph.entityRows "p"))) = [] := by
    rw [hentities, orderById, List.mergeSort_singleton]
    decide +kernel
  have hpairs := h samplePlatform plainPython (sampleServer .null) "p" [sampleSymbol "x" .null]
    [⟨"d", .int 1, ""⟩] _ _ (by decide) (plain_ends (by decide))
    (filtered_ends (by decide) (by decide))
    (("d", .int 1), (sampleSymbol "x" .null).identity samplePlatform)
  rw [hfull, hfiltered] at hpairs
  exact absurd (hpairs.mp (by decide +kernel)) (by decide +kernel)

end CortexHarness.Link
