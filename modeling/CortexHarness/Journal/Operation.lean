import CortexHarness.Journal.Manifest

/-!
# Graph-write operations

Model of `operation.py`: the descriptor of one replay-safe mutation, the constructor `for_label`
with its tables, and the dictionary a batch stores it as. `GraphWriteOperation` carries what
`__post_init__` checks; `idempotent` is `True` in every value it admits and is left out.
-/

namespace CortexHarness.Journal

variable (py : Python)

/-- `mutation_kind`. -/
inductive MutationKind where
  | merge | match_
  deriving Repr, DecidableEq

def MutationKind.value : MutationKind → String
  | .merge => "merge"
  | .match_ => "match"

/-- `GraphWriteOperation`, with what `__post_init__` checks. -/
structure GraphWriteOperation where
  label : String
  phase : OperationPhase
  version : Int := 1
  reconciliation : String := "unsupported"
  nodeLabel : Option String := none
  identityProperty : Option String := none
  rowIdentityProperty : String := "id"
  rowPropertiesProperty : Option String := none
  mutationKind : MutationKind := .merge
  queryFingerprint : Option String := none
  label_named : blank label = false
  version_pos : 1 ≤ version

theorem GraphWriteOperation.first_version : (1 : Int) ≤ 1 := le_rfl

/-! ## Labels -/

/-- `_NODE_LABELS`. -/
def nodeLabels : List String :=
  ["aliases", "classes", "fields", "files", "function_types", "functions", "namespaces",
    "packages", "projects", "templates", "types", "variables"]

/-- An entry of `_NODE_CONTRACTS`. -/
structure NodeContract where
  nodeLabel : String
  identityProperty : String
  rowIdentityProperty : String := "id"
  rowPropertiesProperty : Option String := none
  deriving Repr, DecidableEq

/-- `_NODE_CONTRACTS`. -/
def nodeContracts : List (String × NodeContract) :=
  [("aliases", ⟨"Alias", "id", "id", none⟩), ("classes", ⟨"Class", "id", "id", none⟩),
    ("fields", ⟨"Field", "id", "id", none⟩), ("files", ⟨"File", "id", "id", none⟩),
    ("function_types", ⟨"FunctionType", "id", "id", none⟩),
    ("functions", ⟨"Function", "id", "id", none⟩),
    ("namespaces", ⟨"Namespace", "id", "id", none⟩), ("packages", ⟨"Package", "id", "id", none⟩),
    ("projects", ⟨"Project", "project_id", "id", none⟩),
    ("templates", ⟨"Template", "id", "id", none⟩), ("types", ⟨"Type", "id", "id", none⟩),
    ("variables", ⟨"Variable", "id", "id", none⟩), ("properties", ⟨"Property", "id", "id", none⟩),
    ("events", ⟨"Event", "id", "id", none⟩), ("interfaces", ⟨"Interface", "id", "id", none⟩),
    ("enums", ⟨"Enum", "id", "id", none⟩), ("constants", ⟨"Constant", "id", "id", none⟩),
    ("navigators", ⟨"Navigator", "id", "id", none⟩),
    ("param_lists", ⟨"ParamList", "id", "id", none⟩),
    ("workflows", ⟨"Workflow", "id", "id", none⟩),
    ("workflow_steps", ⟨"WorkflowStep", "id", "id", none⟩),
    ("call_evidence:sites", ⟨"CallSite", "site_id", "site_id", some "props"⟩),
    ("call_evidence:configurations",
      ⟨"BuildConfiguration", "config_fingerprint", "config_fingerprint", some "props"⟩),
    ("call_evidence:coverage",
      ⟨"SemanticCoverage", "fingerprint", "fingerprint", some "props"⟩)]

/-- `phase_for_label`. -/
def phaseForLabel (label : String) : OperationPhase :=
  let normalized := py.casefold (strip label)
  if normalized = "calls" ∨ startsWith normalized "calls:" then .calls
  else if normalized ∈ nodeLabels then .nodes
  else if endsWith normalized "_edges" ∨ startsWith normalized "relations:" ∨
      normalized = "relations" ∨ normalized = "relationships" then .relationships
  else .custom

/-- `for_label`; a blank label raises. -/
def GraphWriteOperation.forLabel (label : String) : Except Failure GraphWriteOperation :=
  if h : blank label = false then
    let normalized := py.casefold (strip label)
    let edges (phase : OperationPhase) (reconciliation : String) : GraphWriteOperation :=
      { label, phase, reconciliation, label_named := h, version_pos := le_rfl }
    match (nodeContracts.find? fun c => c.1 == normalized).map Prod.snd with
    | some contract =>
      .ok { edges .nodes "node_identity" with
            nodeLabel := some contract.nodeLabel
            identityProperty := some contract.identityProperty
            rowIdentityProperty := contract.rowIdentityProperty
            rowPropertiesProperty := contract.rowPropertiesProperty }
    | none =>
      if startsWith normalized "relations:" then .ok (edges .relationships "typed_relationship")
      else if normalized = "call_evidence:edges" ∨ startsWith normalized "call_evidence:edges:" then
        .ok (edges .relationships "evidence_edge")
      else if normalized = "repo_file_edges" then .ok (edges .relationships "repository_file")
      else if normalized = "calls" then .ok (edges .calls "call_edge")
      else if normalized = "calls:site" then .ok (edges .calls "call_site")
      else if normalized = "possible_calls:site" then .ok (edges .calls "possible_call_site")
      else .ok (edges (phaseForLabel py label) "unsupported")
  else .error (.value "operation label must not be empty")

/-! ## The stored descriptor -/

/-- `operation_key`. -/
def GraphWriteOperation.operationKey (op : GraphWriteOperation) : String :=
  "graph-write/v" ++ toString op.version ++ "/" ++ op.phase.value ++ "/" ++ op.label ++
    match op.queryFingerprint with
    | some f => if f = "" then "" else "/" ++ f
    | none => ""

def Json.ofOption : Option String → Json
  | some s => .str s
  | none => .null

/-- `to_dict`. -/
def GraphWriteOperation.toDict (op : GraphWriteOperation) : List (String × Json) :=
  [("label", .str op.label), ("phase", .str op.phase.value), ("version", .int op.version),
    ("idempotent", .bool true), ("operation_key", .str op.operationKey),
    ("reconciliation", .str op.reconciliation), ("node_label", Json.ofOption op.nodeLabel),
    ("identity_property", Json.ofOption op.identityProperty),
    ("row_identity_property", .str op.rowIdentityProperty),
    ("row_properties_property", Json.ofOption op.rowPropertiesProperty),
    ("mutation_kind", .str op.mutationKind.value),
    ("query_fingerprint", Json.ofOption op.queryFingerprint)]

/-- `OperationPhase(text)`. -/
def OperationPhase.ofValue (text : String) : Except String OperationPhase :=
  if text = "nodes" then .ok .nodes
  else if text = "relationships" then .ok .relationships
  else if text = "calls" then .ok .calls
  else if text = "custom" then .ok .custom
  else .error ("'" ++ text ++ "' is not a valid OperationPhase")

/-- `from_dict`, with the text of the exception where it raises. -/
def GraphWriteOperation.fromDict (value : List (String × Json)) :
    Except String GraphWriteOperation := do
  let label ← ((Json.find? value "label").map .ok).getD (.error "'label'")
  let phase ← ((Json.find? value "phase").map .ok).getD (.error "'phase'")
  let phase ← OperationPhase.ofValue (py.str phase)
  let version ← ((Json.find? value "version").map py.int).getD (.ok 1)
  let kind := py.strDefault (Json.find? value "mutation_kind") "merge"
  if hl : blank (py.str label) = false then
    if hv : 1 ≤ version then
      if ((Json.find? value "idempotent").map Json.truthy).getD true = false then
        .error "journaled graph operations must be replay-safe"
      else if kind ≠ "merge" ∧ kind ≠ "match" then .error "unsupported persisted mutation kind"
      else
        let operation : GraphWriteOperation :=
          { label := py.str label, phase, version
            reconciliation := py.strDefault (Json.find? value "reconciliation") "unsupported"
            nodeLabel := py.optional (Json.find? value "node_label")
            identityProperty := py.optional (Json.find? value "identity_property")
            rowIdentityProperty := py.strDefault (Json.find? value "row_identity_property") "id"
            rowPropertiesProperty := py.optional (Json.find? value "row_properties_property")
            mutationKind := if kind = "merge" then .merge else .match_
            queryFingerprint := py.optional (Json.find? value "query_fingerprint")
            label_named := hl, version_pos := hv }
        match Json.find? value "operation_key" with
        | none => .ok operation
        | some .null => .ok operation
        | some (.str key) =>
          if key = operation.operationKey then .ok operation
          else .error "persisted operation key does not match its descriptor"
        | some (.arr _) => .error "unhashable type: 'list'"
        | some (.obj _) => .error "unhashable type: 'dict'"
        | some _ => .error "persisted operation key does not match its descriptor"
    else .error "operation version must be positive"
  else .error "operation label must not be empty"

end CortexHarness.Journal
