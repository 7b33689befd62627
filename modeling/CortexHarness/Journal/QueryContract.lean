import CortexHarness.Journal.Operation
import CortexHarness.Library.Dict
import CortexHarness.Library.Fallible
import CortexHarness.Library.Grouping

/-!
# Edge rows and their query contract

Model of `query_contract.py:1-306`, of `validate_cypher_identifier` and `has_identity_index`
(`manifest.py:14-93`) and of `project_id_lookup_key`. The rows of an edge batch are checked one by
one, scoped and grouped by the shape of their edge; a group is a shape whose identifiers are valid
and whose endpoints the schema indexes, so no other one is compiled into a query.

Results: `groupRows_single`: every row of a batch of one group was checked; `typedRow_ok` and
`evidenceRow_ok`: what is known of a row that was.

Model notes: the schema is a parameter. `CompileError` also covers what the compilers raise.
-/

namespace CortexHarness.Journal

open CortexHarness.Json Fallible

variable (py : Python)

/-- What the compilers of queries raise. -/
inductive CompileError where
  /-- `JournalError` -/
  | journal (code : TerminalErrorCode) (message : String)
  /-- `ValueError` -/
  | value (message : String)
  /-- `AttributeError` -/
  | attribute (message : String)

/-! ## The schema -/

/-- `_CYPHER_IDENTIFIER_RE.fullmatch` -/
def validIdentifier (text : String) : Bool :=
  match text.toList with
  | [] => false
  | c :: cs => (c.isAlpha || c == '_') && cs.all fun c => c.isAlphanum || c == '_'

/-- `SchemaIndex`. -/
structure SchemaIndex where
  label : String
  properties : List String
  indexType : String := "range"
  required : Bool := true

/-- `GraphSchemaManifest`, with the texts that messages show of it and of an identifier. -/
structure GraphSchemaManifest where
  name : String
  fingerprint : String
  indexes : List SchemaIndex
  /-- `repr(text)` -/
  repr : String → String

variable (schema : GraphSchemaManifest)

/-- `has_identity_index`. -/
def GraphSchemaManifest.hasIdentityIndex (label propertyName : String) : Bool :=
  schema.indexes.any fun index => index.label == label && index.properties == [propertyName] &&
    index.indexType == "range" && index.required

/-- `validate_cypher_identifier`. -/
def validateCypherIdentifier (text kind : String) : Except CompileError Unit :=
  if validIdentifier text then .ok ()
  else .error (.value ("unsafe Cypher " ++ kind ++ ": " ++ schema.repr text))

theorem validIdentifier_ne_empty {text : String} (h : validIdentifier text = true) : text ≠ "" := by
  rintro rfl
  cases h

theorem validateCypherIdentifier_ok {text kind : String} {u : Unit}
    (h : validateCypherIdentifier schema text kind = .ok u) : validIdentifier text = true := by
  unfold validateCypherIdentifier at h
  split at h
  · assumption
  · cases h

/-- `normalize_project_id`. -/
def normalizeProjectId (value : Json) : Option String :=
  if value.isNull then none
  else if strip (py.str value) = "" then none else some (strip (py.str value))

/-- `project_id_lookup_key`. -/
def projectIdLookupKey (value : Json) : Option String :=
  (normalizeProjectId py value).map py.casefold

/-- The loop of both groupings: every row is checked under its position, then filed. -/
def groupRows {κ : Type} [DecidableEq κ] (check : Row → Nat → Except CompileError (κ × Row))
    (rows : List Row) : Except CompileError (List (κ × List Row)) := do
  let pairs ← rows.zipIdx.mapM fun r => check r.1 r.2
  return Grouping.groups pairs

theorem groupRows_size {κ : Type} [DecidableEq κ] {check : Row → Nat → Except CompileError (κ × Row)}
    {rows : List Row} {gs : List (κ × List Row)} (h : groupRows check rows = .ok gs) :
    Grouping.size gs = rows.length := by
  unfold groupRows at h
  obtain ⟨pairs, hpairs, h⟩ := bind_ok.mp h
  cases h
  rw [Grouping.size_groups, ← (mapM_ok hpairs).length_eq, List.length_zipIdx]

/-- **A batch of one group: every row was checked, and has the group's key.** -/
theorem groupRows_single {κ : Type} [DecidableEq κ]
    {check : Row → Nat → Except CompileError (κ × Row)} {rows grouped : List Row} {g : κ}
    (h : groupRows check rows = .ok [(g, grouped)]) :
    rows ≠ [] ∧ List.Forall₂ (fun r row => check r.1 r.2 = .ok (g, row)) rows.zipIdx grouped := by
  obtain ⟨pairs, hpairs, hgroups⟩ := bind_ok.mp h
  obtain ⟨hne, rfl, hkey⟩ := Grouping.groups_eq_singleton (Except.ok.inj hgroups)
  have hchecked := mapM_ok hpairs
  constructor
  · rintro rfl
    rw [List.zipIdx_nil, List.forall₂_nil_left_iff] at hchecked
    exact hne hchecked
  · rw [List.forall₂_map_right_iff]
    refine (List.forall₂_iff_get.mpr ⟨hchecked.length_eq, fun i hi hi' => ?_⟩)
    rw [hchecked.get hi hi']
    congr 1
    exact Prod.ext (hkey _ (List.get_mem ..)) rfl

/-! ## Typed relationships -/

/-- `RelationshipGroup`, with what `__post_init__` checks. -/
structure RelationshipGroup where
  sourceLabel : String
  targetLabel : String
  relationshipType : String
  source_valid : validIdentifier sourceLabel = true
  target_valid : validIdentifier targetLabel = true
  type_valid : validIdentifier relationshipType = true
  source_indexed : schema.hasIdentityIndex sourceLabel "id" = true
  target_indexed : schema.hasIdentityIndex targetLabel "id" = true
  deriving DecidableEq

/-- The end of a message of `__post_init__`. -/
def missingIndex (role label message : String) : CompileError :=
  .value (role ++ " label " ++ schema.repr label ++ " has no required " ++ message ++
    " index in schema " ++ schema.name ++ "@" ++ schema.fingerprint)

/-- `RelationshipGroup(...)`. -/
def RelationshipGroup.make (source target type : String) :
    Except CompileError (RelationshipGroup schema) :=
  if hs : validIdentifier source = true then
    if ht : validIdentifier target = true then
      if hr : validIdentifier type = true then
        if hsi : schema.hasIdentityIndex source "id" = true then
          if hti : schema.hasIdentityIndex target "id" = true then
            .ok ⟨source, target, type, hs, ht, hr, hsi, hti⟩
          else .error (missingIndex schema "target" target "id")
        else .error (missingIndex schema "source" source "id")
      else .error (.value ("unsafe Cypher relationship type: " ++ schema.repr type))
    else .error (.value ("unsafe Cypher target label: " ++ schema.repr target))
  else .error (.value ("unsafe Cypher source label: " ++ schema.repr source))

/-- `properties.get("project_id") if isinstance(properties, Mapping) else None` -/
def propertyScope (relation : Row) : Json :=
  match field relation "properties" with
  | .obj properties => field properties "project_id"
  | _ => .null

/-- The project a typed row belongs to. -/
def relationProjectId (relation : Row) (defaultProjectId : Json) : Json :=
  either (field relation "project_id") (either (propertyScope relation) defaultProjectId)

/-- One round of `group_typed_relations`: the group of a row, and the row it appends. -/
def typedRow (defaultProjectId : Json) (relation : Row) (position : Nat) :
    Except CompileError (RelationshipGroup schema × Row) :=
  let at_ := " (row " ++ toString position ++ ")"
  if !(field relation "source_label").truthy || !(field relation "target_label").truthy ||
      !(field relation "rel_type").truthy then
    .error (.value ("typed relationship row requires source_label, target_label, and rel_type" ++
      at_))
  else if !(field relation "source_id").truthy || !(field relation "target_id").truthy then
    .error (.value ("typed relationship row requires source_id and target_id" ++ at_))
  else
    let projectId := relationProjectId relation defaultProjectId
    match projectIdLookupKey py projectId with
    | none => .error (.value ("typed relationship row requires project_id" ++ at_))
    | some normalizedScope => do
      let row := put relation "project_id" (.str (strip (py.str projectId)))
      let row := put row "project_id_normalized" (.str normalizedScope)
      let row := put row "_contract_row_position" (.int position)
      let group ← RelationshipGroup.make schema (py.str (field relation "source_label"))
        (py.str (field relation "target_label")) (py.str (field relation "rel_type"))
      return (group, row)

/-- `group_typed_relations`. -/
def groupTypedRelations (relations : List Row) (defaultProjectId : Json) :
    Except CompileError (List (RelationshipGroup schema × List Row)) :=
  groupRows (typedRow py schema defaultProjectId) relations

/-- What a typed row has that was not refused. -/
structure TypedRow (relation : Row) (group : RelationshipGroup schema) : Prop where
  source_label : (field relation "source_label").truthy = true
  target_label : (field relation "target_label").truthy = true
  rel_type : (field relation "rel_type").truthy = true
  source_id : (field relation "source_id").truthy = true
  target_id : (field relation "target_id").truthy = true
  source_eq : group.sourceLabel = py.str (field relation "source_label")
  target_eq : group.targetLabel = py.str (field relation "target_label")
  type_eq : group.relationshipType = py.str (field relation "rel_type")

theorem RelationshipGroup.make_ok {source target type : String} {group : RelationshipGroup schema}
    (h : RelationshipGroup.make schema source target type = .ok group) :
    group.sourceLabel = source ∧ group.targetLabel = target ∧ group.relationshipType = type := by
  unfold RelationshipGroup.make at h
  split_ifs at h
  cases h
  exact ⟨rfl, rfl, rfl⟩

/-- The row that a typed relationship becomes at its position. -/
def scopedRelation (defaultProjectId : Json) (relation : Row) (position : Nat) : Row :=
  let projectId := relationProjectId relation defaultProjectId
  let row := put relation "project_id" (.str (strip (py.str projectId)))
  let row := put row "project_id_normalized"
    (.str ((projectIdLookupKey py projectId).getD ""))
  put row "_contract_row_position" (.int position)

theorem typedRow_ok {defaultProjectId : Json} {relation row : Row} {position : Nat}
    {group : RelationshipGroup schema}
    (h : typedRow py schema defaultProjectId relation position = .ok (group, row)) :
    TypedRow py schema relation group ∧
      row = scopedRelation py defaultProjectId relation position := by
  unfold typedRow at h
  dsimp only at h
  split_ifs at h with hlabels hids
  simp only [Bool.or_eq_true, Bool.not_eq_true', not_or, Bool.not_eq_false] at hlabels hids
  split at h
  · cases h
  · next normalizedScope hscope =>
    obtain ⟨g, hg, h⟩ := bind_ok.mp h
    cases h
    obtain ⟨hs, ht, hr⟩ := RelationshipGroup.make_ok schema hg
    refine ⟨⟨hlabels.1.1, hlabels.1.2, hlabels.2, hids.1, hids.2, hs, ht, hr⟩, ?_⟩
    rw [scopedRelation, hscope]
    rfl

/-- `compile_relationship_upsert`. -/
def compileRelationshipUpsert (group : RelationshipGroup schema) : String :=
  "UNWIND $rows AS row MATCH (a:" ++ group.sourceLabel ++
    " \x7bid: row.source_id, project_id_normalized: row.project_id_normalized\x7d) " ++
    "WITH row, a MATCH (b:" ++ group.targetLabel ++
    " \x7bid: row.target_id, project_id_normalized: row.project_id_normalized\x7d) " ++
    "MERGE (a)-[r:" ++ group.relationshipType ++ "]->(b) " ++
    "SET r += coalesce(row.properties, \x7b\x7d), r.project_id = row.project_id, " ++
    "r.project_id_normalized = row.project_id_normalized RETURN count(r) AS count"

/-! ## Evidence edges -/

/-- `EvidenceEdgeGroup`, with what `__post_init__` checks. -/
structure EvidenceEdgeGroup where
  sourceLabel : String
  sourceProperty : String
  targetLabel : String
  targetProperty : String
  relationshipType : String
  edgeProperty : String
  source_valid : validIdentifier sourceLabel = true
  target_valid : validIdentifier targetLabel = true
  type_valid : validIdentifier relationshipType = true
  source_property_valid : validIdentifier sourceProperty = true
  target_property_valid : validIdentifier targetProperty = true
  edge_property_valid : edgeProperty = "" ∨ validIdentifier edgeProperty = true
  source_indexed : schema.hasIdentityIndex sourceLabel sourceProperty = true
  target_indexed : schema.hasIdentityIndex targetLabel targetProperty = true
  deriving DecidableEq

/-- `EvidenceEdgeGroup(...)`. -/
def EvidenceEdgeGroup.make (source sourceProperty target targetProperty type edgeProperty : String) :
    Except CompileError (EvidenceEdgeGroup schema) :=
  if hs : validIdentifier source = true then
    if ht : validIdentifier target = true then
      if hr : validIdentifier type = true then
        if hsp : validIdentifier sourceProperty = true then
          if htp : validIdentifier targetProperty = true then
            if he : edgeProperty = "" ∨ validIdentifier edgeProperty = true then
              if hsi : schema.hasIdentityIndex source sourceProperty = true then
                if hti : schema.hasIdentityIndex target targetProperty = true then
                  .ok ⟨source, sourceProperty, target, targetProperty, type, edgeProperty, hs, ht,
                    hr, hsp, htp, he, hsi, hti⟩
                else .error (missingIndex schema "target" target (schema.repr targetProperty))
              else .error (missingIndex schema "source" source (schema.repr sourceProperty))
            else .error (.value ("unsafe Cypher edge property: " ++ schema.repr edgeProperty))
          else .error (.value ("unsafe Cypher target property: " ++ schema.repr targetProperty))
        else .error (.value ("unsafe Cypher source property: " ++ schema.repr sourceProperty))
      else .error (.value ("unsafe Cypher relationship type: " ++ schema.repr type))
    else .error (.value ("unsafe Cypher target label: " ++ schema.repr target))
  else .error (.value ("unsafe Cypher source label: " ++ schema.repr source))

/-- `_EVIDENCE_EDGE_ROW_FIELDS`, and the two identities that are checked in the same way. -/
def evidenceEdgeRowFields : List String :=
  ["source_label", "source_property", "target_label", "target_property", "rel_type", "source_id",
    "target_id"]

/-- `str(row.get(key) or "")` -/
def text (row : Row) (key : String) : String := py.strOr (find? row key) ""

/-- `type(value).__name__` -/
def typeName : Json → String
  | .null => "NoneType"
  | .bool _ => "bool"
  | .int _ => "int"
  | .float _ => "float"
  | .str _ => "str"
  | .arr _ => "list"
  | .obj _ => "dict"

/-- `row.get("project_id") or (row.get("props") or {}).get("project_id")` -/
def evidenceProjectId (row : Row) : Except CompileError Json :=
  if (field row "project_id").truthy then .ok (field row "project_id")
  else
    match either (field row "props") (.obj []) with
    | .obj props => .ok (field props "project_id")
    | v => .error (.attribute ("'" ++ typeName v ++ "' object has no attribute 'get'"))

/-- One round of `group_evidence_edges`: the group of a row, and the row it appends. -/
def evidenceRow (edge : Row) (position : Nat) :
    Except CompileError (EvidenceEdgeGroup schema × Row) := do
  let at_ := " (row " ++ toString position ++ ")"
  if evidenceEdgeRowFields.any fun key => blank (text py edge key) then
    .error (.value ("evidence edge row requires source/target label, property, id, and rel_type" ++
      at_))
  else
    let projectId ← evidenceProjectId edge
    match projectIdLookupKey py projectId with
    | none => .error (.value ("evidence edge row requires project_id" ++ at_))
    | some normalizedScope =>
      let row := put edge "project_id" (.str (strip (py.str projectId)))
      let row := put row "project_id_normalized" (.str normalizedScope)
      let edgeProperty := text py edge "edge_property"
      let edgeId := text py edge "edge_id"
      if edgeProperty ≠ "" ∧ edgeId = "" then
        .error (.value ("evidence edge row with an edge_property requires a non-empty edge_id" ++
          at_))
      else
        let row := put row "edge_id" (if edgeId = "" then field row "source_id" else .str edgeId)
        let group ← EvidenceEdgeGroup.make schema (py.str (field edge "source_label"))
          (py.str (field edge "source_property")) (py.str (field edge "target_label"))
          (py.str (field edge "target_property")) (py.str (field edge "rel_type")) edgeProperty
        return (group, row)

/-- `group_evidence_edges`. -/
def groupEvidenceEdges (edges : List Row) :
    Except CompileError (List (EvidenceEdgeGroup schema × List Row)) :=
  groupRows (evidenceRow py schema) edges

/-- What an evidence row has that was not refused. -/
structure EvidenceRow (edge : Row) (group : EvidenceEdgeGroup schema) : Prop where
  filled : ∀ key ∈ evidenceEdgeRowFields, blank (text py edge key) = false
  source_eq : group.sourceLabel = py.str (field edge "source_label")
  source_property_eq : group.sourceProperty = py.str (field edge "source_property")
  target_eq : group.targetLabel = py.str (field edge "target_label")
  target_property_eq : group.targetProperty = py.str (field edge "target_property")
  type_eq : group.relationshipType = py.str (field edge "rel_type")
  edge_eq : group.edgeProperty = text py edge "edge_property"
  keyed : text py edge "edge_property" ≠ "" → text py edge "edge_id" ≠ ""

theorem EvidenceEdgeGroup.make_ok {source sourceProperty target targetProperty type edge : String}
    {group : EvidenceEdgeGroup schema}
    (h : EvidenceEdgeGroup.make schema source sourceProperty target targetProperty type edge =
      .ok group) :
    group.sourceLabel = source ∧ group.sourceProperty = sourceProperty ∧
      group.targetLabel = target ∧ group.targetProperty = targetProperty ∧
      group.relationshipType = type ∧ group.edgeProperty = edge := by
  unfold EvidenceEdgeGroup.make at h
  split_ifs at h
  cases h
  exact ⟨rfl, rfl, rfl, rfl, rfl, rfl⟩

/-- The row that an evidence edge becomes. -/
def scopedEdge (edge : Row) : Row :=
  let projectId := (evidenceProjectId edge).toOption.getD .null
  let row := put edge "project_id" (.str (strip (py.str projectId)))
  let row := put row "project_id_normalized"
    (.str ((projectIdLookupKey py projectId).getD ""))
  let edgeId := text py edge "edge_id"
  put row "edge_id" (if edgeId = "" then field row "source_id" else .str edgeId)

theorem evidenceRow_ok {edge row : Row} {position : Nat} {group : EvidenceEdgeGroup schema}
    (h : evidenceRow py schema edge position = .ok (group, row)) :
    EvidenceRow py schema edge group ∧ row = scopedEdge py edge := by
  unfold evidenceRow at h
  split_ifs at h with hfields
  obtain ⟨projectId, hproject, h⟩ := bind_ok.mp h
  dsimp only at h
  split at h
  · cases h
  · next normalizedScope hscope =>
    split at h
    · cases h
    · next hkeyed =>
      obtain ⟨g, hg, h⟩ := bind_ok.mp h
      cases h
      obtain ⟨hs, hsp, ht, htp, hr, he⟩ := EvidenceEdgeGroup.make_ok schema hg
      refine ⟨⟨fun key hkey => ?_, hs, hsp, ht, htp, hr, he, fun hp hi => hkeyed ⟨hp, hi⟩⟩, ?_⟩
      · rw [Bool.not_eq_true, List.any_eq_false] at hfields
        exact Bool.not_eq_true _ ▸ hfields key hkey
      · unfold scopedEdge
        rw [hproject]
        dsimp only [Except.toOption, Option.getD_some]
        rw [hscope]
        rfl

/-- `compile_evidence_edge_upsert`. -/
def compileEvidenceEdgeUpsert (group : EvidenceEdgeGroup schema) : String :=
  let edgePattern :=
    if group.edgeProperty ≠ "" then
      "MERGE (a)-[r:" ++ group.relationshipType ++ " \x7b" ++ group.edgeProperty ++
        ": row.edge_id\x7d]->(b) "
    else "MERGE (a)-[r:" ++ group.relationshipType ++ "]->(b) "
  "UNWIND $rows AS row MATCH (a:" ++ group.sourceLabel ++ " \x7b" ++ group.sourceProperty ++
    ": row.source_id, project_id_normalized: row.project_id_normalized\x7d) " ++
    "WITH row, a MATCH (b:" ++ group.targetLabel ++ " \x7b" ++ group.targetProperty ++
    ": row.target_id, project_id_normalized: row.project_id_normalized\x7d) " ++ edgePattern ++
    "SET r += coalesce(row.props, \x7b\x7d), r.project_id = row.project_id, " ++
    "r.updated_at = datetime() RETURN count(r) AS count"

end CortexHarness.Journal
