import CortexHarness.Journal.Identity

/-!
# Manifest candidates: the graph identities of a batch

Model of `_typed_identity` and `_manifest_candidates` (`sqlite_store.py:204-369`). Every row of a
batch whose operation descriptor is not empty becomes one candidate: a node identity, an edge
identity, or a `REJECTED` one when the row does not carry what its descriptor asks for. The
`KeyError`, `ValueError` and `TypeError` of the `try` blocks are `none` here.
-/

namespace CortexHarness.Journal

variable (py : Python)

/-- One endpoint tuple of an edge candidate: role, label, property, type and JSON text. -/
structure EndpointKey where
  role : EndpointRole
  label : String
  property : String
  identityType : String
  identityJson : String
  deriving Repr, DecidableEq

/-- One entry of the list `_manifest_candidates` returns. -/
structure Candidate where
  kind : ManifestKind
  manifestId : String
  rowOrdinal : Nat
  payloadDigest : String
  disposition : ManifestDisposition
  identity : ManifestIdentity
  endpoints : List EndpointKey
  deriving Repr, DecidableEq

/-- `_typed_identity`. -/
def typedIdentity : Json → Option (String × String)
  | .null => none
  | .arr _ => none
  | .obj _ => none
  | .bool b => some ("boolean", (Json.bool b).dumps)
  | .int n => some ("integer", (Json.int n).dumps)
  | .float repr => some ("number", (Json.float repr).dumps)
  | .str s => some ("string", (Json.str s).dumps)

/-- `digest_row` of `base`: an object without its `_contract_` members. -/
def digestRow : Json → Json
  | .obj members => .obj (members.filter fun m => !("_contract_".toList.isPrefixOf m.1.toList))
  | v => v

def ManifestKind.value : ManifestKind → String
  | .node => "node"
  | .edge => "edge"

/-- `manifest_id` of `base`. -/
def manifestIdOf (jobId : String) (kind : ManifestKind) (ordinal : Nat) : String :=
  py.sha256Hex (Json.dumps
    (.obj [("job_id", .str jobId), ("kind", .str kind.value), ("row", .int ordinal)]))

/-- `producer_id`. -/
def producerIdOf (operation : List (String × Json)) (operationKey : String) : String :=
  py.strOr (Json.orElse (Json.find? operation "producer_id") (Json.find? operation "label"))
    operationKey

/-- `reconciliation`. -/
def reconciliationOf (operation : List (String × Json)) : String :=
  py.strOr (Json.find? operation "reconciliation") "unsupported"

/-- The `scope` of one row. -/
def scopeOf (row : Json) (scopeDefault : String) : String :=
  py.strOr (Json.orElse (row.get? "project_id_normalized") (row.get? "project_id")) scopeDefault

/-- `semantic_row`: an external `Type` observation without its provenance. -/
def semanticRow : Json → Json
  | .obj members => .obj (members.filter fun m => m.1 != "file_path")
  | v => v

/-- The `node_identity` branch on one row. -/
def nodeCandidate (operation : List (String × Json)) (scopeDefault jobId : String) (raw : Json)
    (ordinal : Nat) : Candidate :=
  let label := py.strOr (Json.find? operation "node_label") ""
  let property := py.strOr (Json.find? operation "identity_property") ""
  let rowProperty := py.strOr (Json.find? operation "row_identity_property") "id"
  let manifestId := manifestIdOf py jobId .node ordinal
  let scope := scopeOf py raw scopeDefault
  match (raw.get? rowProperty).bind typedIdentity with
  | some (identityType, identityJson) =>
    if label = "" ∨ property = "" then
      { kind := .node, manifestId, rowOrdinal := ordinal,
        payloadDigest := py.sha256Hex (digestRow raw).dumps, disposition := .rejected,
        identity := ⟨scope, label, property, "invalid", "null"⟩, endpoints := [] }
    else
      { kind := .node, manifestId, rowOrdinal := ordinal,
        payloadDigest :=
          if label = "Type" ∧ py.casefold (py.strOr (raw.get? "kind") "") = "external" then
            py.sha256Hex (semanticRow raw).dumps
          else py.sha256Hex (digestRow raw).dumps,
        disposition := .stagedUnique,
        identity := ⟨scope, label, property, identityType, identityJson⟩, endpoints := [] }
  | none =>
    { kind := .node, manifestId, rowOrdinal := ordinal,
      payloadDigest := py.sha256Hex (digestRow raw).dumps, disposition := .rejected,
      identity := ⟨scope, label, property, "invalid", "null"⟩, endpoints := [] }

/-- What the edge branches read off a row before the identities are typed. -/
structure EdgeShape where
  sourceLabel : String
  sourceProperty : String
  sourceValue : Json
  targetLabel : String
  targetProperty : String
  targetValue : Json
  relationshipType : String
  edgeProperty : String
  edgeValue : Option Json

/-- `edge_value in {None, ""}`; an unhashable value raises `TypeError` there. -/
def missingEdgeValue : Option Json → Bool
  | none => true
  | some .null => true
  | some (.str s) => s == ""
  | some (.arr _) => true
  | some (.obj _) => true
  | some _ => false

/-- The branch on `reconciliation` of the edge `try` block. -/
def edgeShape (reconciliation : String) (row : Json) : Option EdgeShape :=
  if reconciliation = "typed_relationship" ∨ reconciliation = "evidence_edge" then do
    let sourceLabel ← row.get? "source_label"
    let targetLabel ← row.get? "target_label"
    let sourceValue ← row.get? "source_id"
    let targetValue ← row.get? "target_id"
    let relationshipType ← row.get? "rel_type"
    let edgeProperty := py.strOr (row.get? "edge_property") ""
    let edgeValue := if edgeProperty = "" then none else row.get? "edge_id"
    if edgeProperty ≠ "" ∧ missingEdgeValue edgeValue = true then none
    else some ⟨py.str sourceLabel, py.strOr (row.get? "source_property") "id", sourceValue,
      py.str targetLabel, py.strOr (row.get? "target_property") "id", targetValue,
      py.str relationshipType, edgeProperty, edgeValue⟩
  else if reconciliation = "repository_file" then do
    let repo ← row.get? "repo"
    let file ← row.get? "id"
    some ⟨"Repository", "name", repo, "File", "id", file, "HAS_FILE", "", none⟩
  else if reconciliation = "call_edge" ∨ reconciliation = "call_site" ∨
      reconciliation = "possible_call_site" then do
    let caller ← row.get? "caller_id"
    let callee ← row.get? "callee_id"
    let relationshipType := if reconciliation = "possible_call_site" then "POSSIBLE_CALLS" else "CALLS"
    let edgeProperty := if reconciliation = "call_edge" then "" else "site_id"
    let edgeValue := if edgeProperty = "" then none else row.get? "site_id"
    if edgeProperty ≠ "" ∧ missingEdgeValue edgeValue = true then none
    else some ⟨"Function", "id", caller, "Function", "id", callee, relationshipType, edgeProperty,
      edgeValue⟩
  else none

/-- `edge_key`, as the list of JSON texts it is made of. -/
def edgeKey (source target : List String) (relationshipType : String) (edge : Option (List String)) :
    Json :=
  .obj ([("source", .arr (source.map .str)), ("relationship", .str relationshipType),
      ("target", .arr (target.map .str))] ++
    match edge with
    | some key => [("edge", .arr (key.map .str))]
    | none => [])

/-- The typed identity of an edge and its two endpoints. -/
def edgeIdentity (e : EdgeShape) : Option (Json × List EndpointKey) :=
  if e.sourceLabel = "" ∨ e.targetLabel = "" ∨ e.relationshipType = "" then none
  else do
    let source ← typedIdentity e.sourceValue
    let target ← typedIdentity e.targetValue
    let endpoints := [⟨.source, e.sourceLabel, e.sourceProperty, source.1, source.2⟩,
      ⟨.target, e.targetLabel, e.targetProperty, target.1, target.2⟩]
    let sourceKey := [e.sourceLabel, e.sourceProperty, source.1, source.2]
    let targetKey := [e.targetLabel, e.targetProperty, target.1, target.2]
    if e.edgeProperty = "" then some (edgeKey sourceKey targetKey e.relationshipType none, endpoints)
    else do
      let edge ← e.edgeValue.bind typedIdentity
      some (edgeKey sourceKey targetKey e.relationshipType
        (some [e.edgeProperty, edge.1, edge.2]), endpoints)

/-- The edge branch on one row. -/
def edgeCandidate (reconciliation scopeDefault jobId : String) (raw : Json) (ordinal : Nat) :
    Candidate :=
  let manifestId := manifestIdOf py jobId .edge ordinal
  let payloadDigest := py.sha256Hex (digestRow raw).dumps
  let scope := scopeOf py raw scopeDefault
  match (edgeShape py reconciliation raw).bind fun e => (edgeIdentity e).map fun i => (e, i) with
  | some (e, key, endpoints) =>
    { kind := .edge, manifestId, rowOrdinal := ordinal, payloadDigest, disposition := .stagedUnique,
      identity := ⟨scope, e.relationshipType, "", "edge_key", key.dumps⟩, endpoints }
  | none =>
    { kind := .edge, manifestId, rowOrdinal := ordinal, payloadDigest, disposition := .rejected,
      identity := ⟨scope, py.strOr (raw.get? "rel_type") "invalid", "", "invalid", "null"⟩,
      endpoints := [] }

/-- `operation.get("mutation_kind", "merge") == "merge"`. -/
def isMerge : Option Json → Bool
  | none => true
  | some (.str kind) => kind == "merge"
  | some _ => false

/-- The loop over the rows, from `ordinal` on. -/
def candidatesFrom (operation : List (String × Json)) (scopeDefault jobId : String) :
    Nat → List Json → List Candidate
  | _, [] => []
  | ordinal, raw :: rows =>
    let rest := candidatesFrom operation scopeDefault jobId (ordinal + 1) rows
    let reconciliation := reconciliationOf py operation
    if reconciliation = "node_identity" ∧ isMerge (Json.find? operation "mutation_kind") = true then
      nodeCandidate py operation scopeDefault jobId raw ordinal :: rest
    else if reconciliation = "file_cleanup" ∨ reconciliation = "orphan_unknown_cleanup" then rest
    else edgeCandidate py reconciliation scopeDefault jobId raw ordinal :: rest

/-- `_manifest_candidates`: the producer and its candidates, or `none` for a caller without a
replay descriptor. -/
def manifestCandidates (metadata : RunMetadata) (spec : BatchSpec) (rows : List Json)
    (jobId : String) : Option (String × List Candidate) :=
  if spec.operation.isEmpty then none
  else some (producerIdOf py spec.operation spec.operationKey,
    candidatesFrom py spec.operation metadata.projectId jobId 0 rows)

end CortexHarness.Journal
