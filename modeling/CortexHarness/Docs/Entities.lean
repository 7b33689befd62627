import CortexHarness.Library.Best
import CortexHarness.Library.Python
import Mathlib.Data.Rat.Defs

/-!
# The entities of a paragraph

Model of `_normalize_entity_name`, `_entity_id`, `build_graph_components_from_entities` and
`_select_primary_mention` in `doc-tiny/graphrag_ingest_langextract.py`: the entities that a recogniser
found in a paragraph become nodes under a merge key of project, type and normalized name.

Results:
* `build_ids`: every node has the identifier of its merge key;
* `entityId_scope`: identifiers tell projects apart, when no project id has a colon.

Model notes: entities are merged (`merge_entities`); without merging every identifier is random. A
confidence is the rational number that the float is.
-/

namespace CortexHarness.Docs

open Table

/-- The functions of the standard library. -/
structure Texts where
  /-- `str.lower` -/
  lower : String → String
  /-- `str(uuid.uuid5(uuid.NAMESPACE_URL, key))` -/
  uuid5 : String → String

inductive NormalizeMode where
  | basic
  | aggressive
  deriving DecidableEq

/-! ## Names -/

/-- ``["`“”‘’'()[\]{}<>]`` -/
def isQuote (c : Char) : Bool :=
  ['"', '\x60', '“', '”', '‘', '’', '\'', '(', ')', '[', ']', '{', '}', '<', '>'].contains c

/-- `re.sub(r"\s+", " ", text).strip()` -/
def collapse (text : List Char) : List Char :=
  [' '].intercalate ((text.splitOnP isSpace).filter (· ≠ []))

/-- `[0-9a-zA-Z+#. ]` -/
def isPlain (c : Char) : Bool := c.isAlphanum || c == '+' || c == '#' || c == '.' || c == ' '

/-- `_normalize_entity_name` -/
def normalizeEntityName (env : Texts) (mode : NormalizeMode) (name : String) : String :=
  let cleaned := (env.lower (strip name)).toList
  if cleaned = [] then ""
  else
    let bare := ((cleaned.dropWhile isQuote).reverse.dropWhile isQuote).reverse
    let spaced := collapse (bare.map fun c => if c == '_' || c == '/' || c == '-' then ' ' else c)
    match mode with
    | .basic => String.ofList spaced
    | .aggressive => String.ofList (collapse (spaced.map fun c => if isPlain c then c else ' '))

/-- The merge key of an entity. -/
def entityKey (entType nameNorm : String) (projectIdNormalized : Option String) : String :=
  match projectIdNormalized with
  | some project =>
    if project = "" then entType ++ "::" ++ nameNorm
    else project ++ "::" ++ entType ++ "::" ++ nameNorm
  | none => entType ++ "::" ++ nameNorm

/-- `_entity_id` -/
def entityId (env : Texts) (name entType : String) (nameNorm projectIdNormalized : Option String) :
    String :=
  let namePart := match nameNorm with
    | some norm => if norm = "" then normalizeEntityName env .aggressive name else norm
    | none => normalizeEntityName env .aggressive name
  env.uuid5 (entityKey entType namePart projectIdNormalized)

/-! ## Nodes -/

/-- What a recogniser returns. -/
structure Found where
  name : String
  /-- `None` and the empty text are `UNKNOWN` -/
  type : String
  startChar : Option Nat
  endChar : Option Nat
  confidence : Option Rat
  deriving DecidableEq

structure FoundRelation where
  source : String
  target : String
  relation : String
  deriving DecidableEq

structure Mention where
  startChar : Option Nat
  endChar : Option Nat
  surface : Option String
  confidence : Option Rat
  deriving DecidableEq

structure DocNode where
  id : String
  name : String
  type : String
  nameNorm : String
  mentions : List Mention
  confidence : Option Rat
  deriving DecidableEq

structure DocRelation where
  sourceId : String
  targetId : String
  type : String
  deriving DecidableEq

/-- `mention`, `none` for the empty one -/
def mentionOf (name : String) (found : Found) : Option Mention :=
  match found.startChar, found.endChar with
  | some start, some stop =>
    some { startChar := start, endChar := stop, surface := name, confidence := found.confidence }
  | _, _ =>
    found.confidence.map fun confidence =>
      { startChar := none, endChar := none, surface := none, confidence }

/-- The state of the loops: the nodes by merge key, and the first merge key of every name. -/
structure Building where
  nodes : List (String × DocNode)
  nameIndex : List (String × String)

/-- `name_index.setdefault(name_norm, key)` -/
def Building.index (b : Building) (nameNorm key : String) : Building :=
  if (lookup Prod.fst nameNorm b.nameIndex).isSome then b
  else { b with nameIndex := b.nameIndex ++ [(nameNorm, key)] }

/-- A further mention of a node. -/
def DocNode.mentioned (node : DocNode) (name : String) (mention : Option Mention) : DocNode :=
  let named := if node.name.length < name.length then { node with name := name } else node
  match mention with
  | none => named
  | some mention =>
    { named with
      mentions := named.mentions ++ [mention]
      confidence := match mention.confidence, named.confidence with
        | some confidence, some existing =>
          if existing < confidence then some confidence else some existing
        | some confidence, none => some confidence
        | none, existing => existing }

section Build

variable (env : Texts) (mode : NormalizeMode) (projectIdNormalized : Option String)

/-- The node that an entity makes or extends. -/
def entityNode (b : Building) (name entType nameNorm : String) (mention : Option Mention) :
    DocNode :=
  match lookup Prod.fst (entityKey entType nameNorm projectIdNormalized) b.nodes with
  | none => {
      id := entityId env name entType (some nameNorm) projectIdNormalized
      name
      type := entType
      nameNorm
      mentions := mention.toList
      confidence := mention.bind Mention.confidence }
  | some (_, node) => node.mentioned name mention

/-- `nodes[key] = node`, and the index of the name. -/
def Building.store (b : Building) (node : DocNode) (nameNorm key : String) : Building :=
  { b with nodes := assign Prod.fst (key, node) b.nodes }.index nameNorm key

/-- One entity of `build_graph_components_from_entities`. -/
def addEntity (b : Building) (found : Found) : Building :=
  let name := strip found.name
  let nameNorm := normalizeEntityName env mode name
  if name = "" || nameNorm = "" then b
  else
    let entType := if found.type = "" then "UNKNOWN" else found.type
    let key := entityKey entType nameNorm projectIdNormalized
    let node := entityNode env projectIdNormalized b name entType nameNorm (mentionOf name found)
    b.store node nameNorm key

/-- The node of an end of a relation. -/
def endOf (b : Building) (name nameNorm : String) : Building × String :=
  match lookup Prod.fst nameNorm b.nameIndex with
  | some (_, key) => (b, key)
  | none =>
    let key := entityKey "UNKNOWN" nameNorm projectIdNormalized
    let node : DocNode := {
      id := entityId env name "UNKNOWN" (some nameNorm) projectIdNormalized
      name, nameNorm
      type := "UNKNOWN"
      mentions := []
      confidence := none }
    (b.store node nameNorm key, key)

/-- `nodes[key]["id"]` -/
def Building.idOf (b : Building) (key : String) : String :=
  (lookup Prod.fst key b.nodes).elim "" fun entry => entry.2.id

/-- One relation of `build_graph_components_from_entities`. -/
def addRelation (s : Building × List DocRelation) (found : FoundRelation) :
    Building × List DocRelation :=
  let source := strip found.source
  let target := strip found.target
  let relType := if strip found.relation = "" then "RELATED" else strip found.relation
  let sourceNorm := normalizeEntityName env mode source
  let targetNorm := normalizeEntityName env mode target
  if source = "" || target = "" || sourceNorm = "" || targetNorm = "" then s
  else
    let (b, sourceKey) := endOf env projectIdNormalized s.1 source sourceNorm
    let (b, targetKey) := endOf env projectIdNormalized b target targetNorm
    (b, s.2 ++ [{ sourceId := b.idOf sourceKey, targetId := b.idOf targetKey, type := relType }])

/-- `build_graph_components_from_entities` -/
def buildGraphComponentsFromEntities (entities : List Found) (relations : List FoundRelation) :
    List DocNode × List DocRelation :=
  let found := entities.foldl (addEntity env mode projectIdNormalized)
    { nodes := [], nameIndex := [] }
  let (b, cleaned) := relations.foldl (addRelation env mode projectIdNormalized) (found, [])
  (b.nodes.map Prod.snd, cleaned)

end Build

/-! ## Identifiers -/

section Identifiers

variable {env : Texts} {mode : NormalizeMode} {projectIdNormalized : Option String}

theorem entityId_norm {name entType nameNorm : String} (h : nameNorm ≠ "") :
    entityId env name entType (some nameNorm) projectIdNormalized =
      env.uuid5 (entityKey entType nameNorm projectIdNormalized) := by
  simp only [entityId, if_neg h]

/-- Every node is stored under its merge key, and has the identifier of it. -/
def Building.Identified (env : Texts) (projectIdNormalized : Option String) (b : Building) : Prop :=
  ∀ e ∈ b.nodes, e.1 = entityKey e.2.type e.2.nameNorm projectIdNormalized ∧
    e.2.id = env.uuid5 e.1

theorem Building.Identified.store {b : Building} (h : b.Identified env projectIdNormalized)
    {node : DocNode} {nameNorm key : String}
    (hkey : key = entityKey node.type node.nameNorm projectIdNormalized)
    (hid : node.id = env.uuid5 key) :
    (b.store node nameNorm key).Identified env projectIdNormalized := by
  have hassign : ∀ e ∈ Table.assign Prod.fst (key, node) b.nodes,
      e.1 = entityKey e.2.type e.2.nameNorm projectIdNormalized ∧ e.2.id = env.uuid5 e.1 := by
    intro e he
    rcases mem_assign he with rfl | he
    · exact ⟨hkey, hid⟩
    · exact h e he
  unfold Building.store Building.index
  split
  · exact hassign
  · exact hassign

theorem mentioned_fields (node : DocNode) (name : String) (mention : Option Mention) :
    (node.mentioned name mention).id = node.id ∧ (node.mentioned name mention).type = node.type ∧
      (node.mentioned name mention).nameNorm = node.nameNorm := by
  unfold DocNode.mentioned
  cases mention <;> (simp only; split <;> exact ⟨rfl, rfl, rfl⟩)

theorem entityNode_fields {b : Building} (h : b.Identified env projectIdNormalized)
    {name entType nameNorm : String} {mention : Option Mention} {node : DocNode}
    (hnorm : nameNorm ≠ "")
    (hnode : entityNode env projectIdNormalized b name entType nameNorm mention = node) :
    entityKey entType nameNorm projectIdNormalized =
        entityKey node.type node.nameNorm projectIdNormalized ∧
      node.id = env.uuid5 (entityKey entType nameNorm projectIdNormalized) := by
  subst hnode
  unfold entityNode
  split
  · exact ⟨rfl, entityId_norm hnorm⟩
  · next old node hold =>
    obtain ⟨hid, htype, hname⟩ := mentioned_fields node name mention
    have hkey : old = entityKey entType nameNorm projectIdNormalized := lookup_key hold
    obtain ⟨hold', hid'⟩ := h _ (lookup_mem hold)
    simp only at hold' hid' ⊢
    rw [htype, hname, hid, ← hold', hid', hkey]
    exact ⟨rfl, rfl⟩

theorem Building.Identified.addEntity {b : Building} (h : b.Identified env projectIdNormalized)
    (found : Found) : (addEntity env mode projectIdNormalized b found).Identified env
      projectIdNormalized := by
  unfold Docs.addEntity
  simp only
  split
  · exact h
  · next hname =>
    rw [Bool.or_eq_true, decide_eq_true_eq, decide_eq_true_eq, not_or] at hname
    obtain ⟨hkey, hid⟩ := entityNode_fields h hname.2 rfl
    exact h.store hkey hid

theorem Building.Identified.endOf {b : Building} (h : b.Identified env projectIdNormalized)
    {name nameNorm : String} (hnorm : nameNorm ≠ "") :
    (endOf env projectIdNormalized b name nameNorm).1.Identified env projectIdNormalized := by
  unfold Docs.endOf
  split
  · exact h
  · exact h.store rfl (entityId_norm hnorm)

/-- **Every node has the identifier of its merge key.** -/
theorem build_ids {entities : List Found} {relations : List FoundRelation} {node : DocNode}
    (h : node ∈ (buildGraphComponentsFromEntities env mode projectIdNormalized entities
      relations).1) :
    node.id = env.uuid5 (entityKey node.type node.nameNorm projectIdNormalized) := by
  have hentities : ∀ (entities : List Found) (b : Building), b.Identified env projectIdNormalized →
      (entities.foldl (addEntity env mode projectIdNormalized) b).Identified env
        projectIdNormalized := by
    intro entities
    induction entities with
    | nil => exact fun _ h => h
    | cons found entities ih => exact fun b h => ih _ (h.addEntity found)
  have hrelations : ∀ (relations : List FoundRelation) (s : Building × List DocRelation),
      s.1.Identified env projectIdNormalized →
        (relations.foldl (addRelation env mode projectIdNormalized) s).1.Identified env
          projectIdNormalized := by
    intro relations
    induction relations with
    | nil => exact fun _ h => h
    | cons found relations ih =>
      intro s h
      refine ih _ ?_
      unfold addRelation
      simp only
      split
      · exact h
      · next hends =>
        simp only [Bool.or_eq_true, decide_eq_true_eq, not_or] at hends
        exact (h.endOf hends.1.2).endOf hends.2
  obtain ⟨e, he, rfl⟩ := List.mem_map.mp h
  obtain ⟨hkey, hid⟩ := hrelations relations _ (hentities entities _ (fun _ h => (List.not_mem_nil h).elim)) e he
  rw [hid, hkey]

/-- **Identifiers tell projects apart**, when no project id has a colon. -/
theorem entityId_scope (huuid : Function.Injective env.uuid5) {a b : String}
    (ha : ':' ∉ a.toList) (hb : ':' ∉ b.toList) (ha' : a ≠ "") (hb' : b ≠ "")
    {entType entType' nameNorm nameNorm' : String}
    (h : env.uuid5 (entityKey entType nameNorm (some a)) =
      env.uuid5 (entityKey entType' nameNorm' (some b))) : a = b := by
  have hkey := congrArg String.toList (huuid h)
  have hsplit : ∀ (p entType nameNorm : String), p ≠ "" →
      (entityKey entType nameNorm (some p)).toList =
        p.toList ++ ':' :: (':' :: entType.toList ++ "::".toList ++ nameNorm.toList) := by
    intro p entType nameNorm hp
    simp [entityKey, hp]
  rw [hsplit a _ _ ha', hsplit b _ _ hb'] at hkey
  -- the project is what stands before the first colon
  have hhead : ∀ (p : List Char) (rest : List Char), ':' ∉ p →
      (p ++ ':' :: rest).takeWhile (· != ':') = p := by
    intro p rest hp
    rw [List.takeWhile_append_of_pos, List.takeWhile_cons_of_neg (by simp), List.append_nil]
    intro c hc
    exact bne_iff_ne.mpr fun he => hp (he ▸ hc)
  have htake := congrArg (List.takeWhile (· != ':')) hkey
  rw [hhead _ _ ha, hhead _ _ hb] at htake
  exact String.toList_inj.mp htake

/-- A colon in a project id can make the keys of two projects the same. -/
example : entityKey "Person" "user" (some "shop::web") = entityKey "web::Person" "user" (some "shop") := by
  decide

end Identifiers

/-- The mention sorts before the other. -/
def Mention.before (m other : Mention) : Bool :=
  let rank := fun m : Mention => m.confidence.getD 0
  let start := fun m : Mention => m.startChar.getD (10 ^ 9)
  rank other < rank m || (rank m = rank other && start m < start other)

/-- `_select_primary_mention` -/
def selectPrimaryMention (mentions : List Mention) : Option Mention := best Mention.before mentions

end CortexHarness.Docs
