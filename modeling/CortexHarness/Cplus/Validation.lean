import CortexHarness.Evidence.Contract
import CortexHarness.Library.PosixPath

/-!
# Validation of C/C++ payloads

Model of `validate_cplus_payload` and `accounting_for_payload`
(`payload_validation.py:154-268, 355-738`): the rows of ten node collections, the relations and the
calls of one file are kept, counted as duplicates, or written to the quarantine, before anything is
stored.

* A payload is a dict; `Payload` has the members that are read or written. Rows are dicts of JSON
  values, and every value is read as Python does: `a or b`, `str`, `int`, iteration and `dict` of any
  value, with the exceptions that are not caught.
* Every collection is validated by itself: the two sets of identities, accepted and invalid, are
  only written there, and only read for relations and calls.
* A character is a control if its category is `Cc`; texts hold no surrogates.

Results: `checkCollection_length`, `judgeRelation`, `judgeCall`: every item has one exit.
-/

namespace CortexHarness.Cplus

open Json Evidence Fallible

variable (rt : Runtime)

/-! ## Values -/

/-- `for item in value or []` -/
def iterate (value : Json) : Except MergeError (List Json) :=
  if value.truthy then
    match value with
    | .arr items => .ok items
    | .obj members => .ok (members.map fun m => .str m.1)
    | .str s => .ok (s.toList.map fun c => .str (String.singleton c))
    | _ => .error (.type "object is not iterable")
  else .ok []

/-- `len(value or [])` -/
def lengthOf (value : Json) : Except MergeError Nat := (iterate value).map List.length

/-- `value.get(key)` -/
def getOf (value : Json) (key : String) : Except MergeError Json :=
  match value with
  | .obj members => .ok (field members key)
  | _ => .error (.type ("object has no attribute " ++ quote "get"))

/-- A key and a value, for `dict` of a sequence; other keys than texts are left out. -/
def pairOf : Json → Except MergeError (String × Json)
  | .arr [.str key, value] => .ok (key, value)
  | .obj [(key, _), (value, _)] => .ok (key, .str value)
  | .str s =>
    match s.toList with
    | [key, value] => .ok (String.singleton key, .str (String.singleton value))
    | _ => .error (.value "dictionary update sequence element has the wrong length")
  | _ => .error (.type "cannot convert dictionary update sequence element to a sequence")

/-- `dict(value or \x7b\x7d)` -/
def dictOr (value : Json) : Except MergeError Row :=
  match either value (.obj []) with
  | .obj members => .ok members
  | value => do
    let items ← iterate value
    items.foldlM (fun row item => do
      let (key, value) ← pairOf item
      return put row key value) []

/-- `value or \x7b\x7d` -/
def mappingOr (value : Json) : Json := either value (.obj [])

/-- `int(value or 0)`; `none` is a `TypeError` or `ValueError`, infinity raises `OverflowError`. -/
def intOr (value : Json) : Except MergeError (Option Int) :=
  match either value (.int 0) with
  | .float repr =>
    if repr = "inf" ∨ repr = "-inf" then
      .error (.convert "cannot convert float infinity to integer")
    else .ok (rt.int (.float repr)).toOption
  | value => .ok (rt.int value).toOption

/-- `type(value).__name__` -/
def typeName : Json → String
  | .null => "NoneType"
  | .bool _ => "bool"
  | .int _ => "int"
  | .float _ => "float"
  | .str _ => "str"
  | .arr _ => "list"
  | .obj _ => "dict"

/-- The mappings among the items. -/
def mappings (items : List Json) : List Row :=
  items.filterMap fun
    | .obj row => some row
    | _ => none

/-- The items that are no mappings. -/
def nonMappings (items : List Json) : List Json :=
  items.filter fun
    | .obj _ => false
    | _ => true

/-! ## Quarantine -/

inductive QuarantineReason where
  | malformedDeclarator
  | preprocessorLeakage
  | commentLeakage
  | conflictingDuplicate
  | invalidSpan
  | missingOwner
  | quarantinedFileQuality
  | unresolvedReference
  | invalidPath
  | invalidRecord
  | legacyStructureBackend
  deriving Repr, DecidableEq

structure QuarantineRecord where
  recordType : String
  identity : String
  reason : QuarantineReason
  sourcePath : String
  evidence : String
  provenance : Row

/-- `_record_identity` -/
def recordIdentity (record : Row) : String :=
  rt.textOr (either (field record "id") (field record "symbol_id"))

/-- `_record_path` -/
def recordPath (record : Row) (default : String) : String :=
  rt.str (either (either (field record "file_path") (field record "source_path")) (.str default))

/-- `_quarantine` -/
def quarantine (recordType : String) (record : Row) (reason : QuarantineReason)
    (defaultPath : String) : Except MergeError QuarantineRecord := do
  let provenance ← dictOr (field record "quality_provenance")
  return {
    recordType
    identity := recordIdentity rt record
    reason
    sourcePath := recordPath rt record defaultPath
    evidence := rt.str (either (either (field record "name") (field record "qualified_name"))
      (.str (recordIdentity rt record)))
    provenance }

/-- What stands for a record that is no mapping. -/
def placeholder (item : Json) (path : String) : Row :=
  [("name", .str (typeName item)), ("file_path", .str path)]

/-! ## Checks of a record -/

/-- `_has_forbidden_control` -/
def hasForbiddenControl (value : String) : Bool :=
  value.toList.any fun c => c.toNat < 32 || (127 ≤ c.toNat && c.toNat < 160)

/-- `part in value` -/
def contains (value part : String) : Bool := decide (part.toList <:+: value.toList)

/-- `_identity_reason` -/
def identityReason (value : Json) (name : Bool) : Option QuarantineReason :=
  match value with
  | .str s =>
    if blank s ∨ hasForbiddenControl s ∨ s ≠ strip s then some .malformedDeclarator
    else if name ∧ (startsWith (strip s) "#" ∨ contains (strip s) "#define" ∨
        contains (strip s) "#if") then some .preprocessorLeakage
    else if name ∧ ["/*", "*/", "//"].any (contains (strip s)) then some .commentLeakage
    else none
  | _ => some .malformedDeclarator

/-- `normalize_relative_path`; `none` is a `ValueError`. -/
def normalizeRelativePath (value : String) : Option String :=
  if blank value ∨ hasForbiddenControl value then none
  else
    let candidate := slashes value
    if startsWith candidate "/" ∨ candidate.toList[1]? = some ':' then none
    else
      let normalized := String.ofList (PosixPath.normpath candidate.toList)
      if normalized ∈ ["", ".", ".."] ∨ startsWith normalized "../" then none
      else some normalized

/-- One round of the loop of `_span_is_valid`. -/
def spanPart (record : Row) (startKey endKey : String) : Except MergeError Bool :=
  if find? record startKey = none ∧ find? record endKey = none then .ok true
  else do
    match ← intOr rt (field record startKey) with
    | none => return false
    | some start =>
      match ← intOr rt (field record endKey) with
      | none => return false
      | some last => return decide (0 ≤ start ∧ start ≤ last)

/-- `_span_is_valid` -/
def spanIsValid (record : Row) : Except MergeError Bool := do
  if ← spanPart rt record "start_byte" "end_byte" then spanPart rt record "start_line" "end_line"
  else return false

/-- The keys of `_CPLUS_COLLECTION_LABELS`. -/
inductive Collection where
  | namespaces
  | types
  | functionTypes
  | functions
  | fields
  | aliases
  | templates
  | resources
  | resourceElements
  | procNodes
  deriving Repr, DecidableEq

/-- The collections in the order of `_CPLUS_COLLECTION_LABELS`. -/
def Collection.all : List Collection :=
  [.namespaces, .types, .functionTypes, .functions, .fields, .aliases, .templates, .resources,
    .resourceElements, .procNodes]

theorem Collection.mem_all (c : Collection) : c ∈ Collection.all := by cases c <;> decide

/-- `_CPLUS_COLLECTION_LABELS` -/
def Collection.label : Collection → String
  | .namespaces => "Namespace"
  | .types => "Type"
  | .functionTypes => "FunctionType"
  | .functions => "Function"
  | .fields => "Field"
  | .aliases => "Alias"
  | .templates => "Template"
  | .resources => "Resource"
  | .resourceElements => "ResourceElement"
  | .procNodes => "SqlStatement"

/-- `_CPLUS_REQUIRED_FIELDS` -/
def Collection.requiredFields : Collection → List String
  | .namespaces => ["symbol_id", "name", "qualified_name", "file_path", "start_line", "end_line",
      "code", "comment", "summary", "note"]
  | .types => ["symbol_id", "name", "qualified_name", "kind", "file_path", "start_line", "end_line",
      "code", "comment", "summary", "note"]
  | .functionTypes => ["symbol_id", "type_signature", "file_path", "start_line", "end_line", "code"]
  | .functions => ["symbol_id", "name", "qualified_name", "kind", "scope_name", "file_path",
      "start_line", "end_line", "arity", "code", "comment", "summary", "note"]
  | .fields => ["symbol_id", "name", "qualified_name", "scope_name", "type_signature", "file_path",
      "start_line", "end_line", "code"]
  | .aliases => ["symbol_id", "name", "qualified_name", "kind", "target_name", "file_path",
      "start_line", "end_line", "code"]
  | .templates => ["symbol_id", "name", "file_path", "start_line", "end_line", "code"]
  | .resources => ["symbol_id", "name", "qualified_name", "kind", "resource_symbol", "file_path",
      "start_line", "end_line", "code", "comment", "summary", "note"]
  | .resourceElements => ["symbol_id", "name", "qualified_name", "kind", "file_path", "start_line",
      "end_line", "code", "comment", "summary", "note"]
  | .procNodes => ["symbol_id", "name", "qualified_name", "kind", "file_path", "start_line",
      "end_line", "code", "comment", "summary", "note"]

/-- `integer_fields` -/
def integerFields : List String := ["start_byte", "end_byte", "start_line", "end_line", "arity"]

/-- `optional_text_fields` -/
def optionalTextFields : List String := ["scope_name"]

/-- The value of a required field has its type. -/
def fieldValid (name : String) : Option Json → Bool
  | none => false
  | some (.int _) => name ∈ integerFields
  | some .null => name ∉ integerFields && name ∈ optionalTextFields
  | some (.str _) => name ∉ integerFields
  | some _ => false

/-- `_invalid_required_fields` -/
def invalidRequiredFields (c : Collection) (record : Row) : List String :=
  c.requiredFields.filter fun name => !fieldValid name (find? record name)

/-- `PROC_NODE_LABELS` -/
def procNodeLabels : List String :=
  ["SqlStatement", "SqlDirective", "SqlCursor", "SqlHostVariable", "DatabaseTable"]

/-- `str(row.get("label") or default_label)` -/
def labelOf (c : Collection) (row : Row) : String :=
  rt.str (either (field row "label") (.str c.label))

/-- A row of `proc_nodes` without one of its labels. -/
def procReason (c : Collection) (row : Row) : Option QuarantineReason :=
  if c = .procNodes ∧ (blank (rt.textOr (field row "label")) ∨
      labelOf rt c row ∉ procNodeLabels) then some .invalidRecord
  else none

/-- The reason for a row that is read from its name and its fields. -/
def recordReason (c : Collection) (row : Row) : Option QuarantineReason :=
  procReason rt c row <|> identityReason (.str (recordIdentity rt row)) false <|>
    ((find? row "name").bind fun name => identityReason name true) <|>
    if invalidRequiredFields c row = [] then none else some .invalidRecord

/-- `reason` at the end of the first loop. -/
def rowReason (sourcePath : String) (c : Collection) (row : Row) :
    Except MergeError (Option QuarantineReason) :=
  match recordReason rt c row with
  | some reason => .ok (some reason)
  | none => do
    if ← spanIsValid rt row then
      return if normalizeRelativePath (recordPath rt row sourcePath) = some sourcePath then none
        else some .missingOwner
    else return some .invalidSpan

/-! ## One collection -/

/-- A label and an identity. -/
abbrev NodeKey := String × String

/-- What the loops over the records read. -/
structure Scope where
  projectId : String
  known : Option (List NodeKey)
  blocked : Option (List NodeKey)
  sourcePath : String
  fileQuarantined : Bool

/-- What becomes of the rows of a collection. -/
structure Checked where
  rows : List Row := []
  quarantine : List QuarantineRecord := []
  invalid : List NodeKey := []
  rejected : Nat := 0
  deriving Inhabited

/-- `(label, identity)` of a row. -/
def keyOf (c : Collection) (row : Row) : NodeKey := (labelOf rt c row, recordIdentity rt row)

/-- The fields of `identity_merge_fingerprint`. -/
def mergeFields (label : String) : List String :=
  ["name", "qualified_name", "kind"] ++
    match label with
    | "Function" => ["scope_name", "arity", "identity_schema", "signature", "parameter_types",
        "qualifiers", "template_arity", "linkage"]
    | "FunctionType" => ["type_signature"]
    | "Field" => ["scope_name", "type_signature"]
    | "Alias" => ["target_name"]
    | "Resource" => ["resource_symbol"]
    | "ResourceElement" => ["resource_symbol", "dialog_symbol", "control_type"]
    | _ => []

/-- `identity_merge_fingerprint` -/
def identityMergeFingerprint (label : String) (record : Row) : String :=
  let semantic : Row := (mergeFields label).filterMap fun name =>
    (find? record name).map fun value => (name, value)
  -- A prototype is the declaration of the function, not a second symbol.
  let semantic := if label = "Function" ∧ (field semantic "kind").isText "declaration" then
    put semantic "kind" (.str "function") else semantic
  dumpsAscii (.obj semantic)

/-- `_duplicate_preference` -/
def duplicatePreference (label : String) (record : Row) : Nat :=
  if label = "Function" ∧ (field record "kind").isText "function" then 1 else 0

/-- `by_identity[identity]`, with the places of the rows. -/
def candidates (rows : List Row) (identity : String) : List (Row × Nat) :=
  rows.zipIdx.filter fun r => recordIdentity rt r.1 = identity

/-- `identity in conflicts` -/
def conflicting (c : Collection) (rows : List Row) (identity : String) : Bool :=
  (candidates rt rows identity).any fun a => (candidates rt rows identity).any fun b =>
    identityMergeFingerprint (labelOf rt c a.1) a.1 ≠
      identityMergeFingerprint (labelOf rt c b.1) b.1

local instance identity_lawful : LawfulBEq (String × String) := inferInstance

/-- `preferred_rows[identity]`: the first row with the highest preference. -/
def preferred (c : Collection) (rows : List Row) (identity : String) : Option (Row × Nat) :=
  (candidates rt rows identity).find? fun a => (candidates rt rows identity).all fun b =>
    duplicatePreference (labelOf rt c b.1) b.1 ≤ duplicatePreference (labelOf rt c a.1) a.1

/-- A row that is quarantined as a duplicate. -/
def conflicted (scope : Scope) (c : Collection) (rows : List Row) (row : Row) : Bool :=
  (scope.blocked.any fun blocked => keyOf rt c row ∈ blocked) ||
    conflicting rt c rows (recordIdentity rt row)

/-- The second loop over the rows of a collection. -/
def settleRows (scope : Scope) (c : Collection) (rows : List Row) :
    List (Row × Nat) → List String → Except MergeError Checked
  | [], _ => .ok {}
  | (row, i) :: rest, seen =>
    let identity := recordIdentity rt row
    if conflicted rt scope c rows row then do
      let record ← quarantine rt (labelOf rt c row) row .conflictingDuplicate scope.sourcePath
      let checked ← settleRows scope c rows rest seen
      return { checked with
        quarantine := record :: checked.quarantine, invalid := keyOf rt c row :: checked.invalid }
    else if (preferred rt c rows identity).map Prod.snd ≠ some i ∨ identity ∈ seen then do
      let checked ← settleRows scope c rows rest seen
      return { checked with rejected := checked.rejected + 1 }
    else do
      let checked ← settleRows scope c rows rest (identity :: seen)
      return { checked with rows := row :: checked.rows }

/-- A row of a file that is not quarantined: with its owner, or in the quarantine. -/
inductive Verdict where
  | kept (row : Row)
  | quarantined (key : NodeKey) (record : QuarantineRecord)

def Verdict.row? : Verdict → Option Row
  | .kept row => some row
  | _ => none

def Verdict.record? : Verdict → Option QuarantineRecord
  | .quarantined _ record => some record
  | _ => none

def Verdict.key? : Verdict → Option NodeKey
  | .quarantined key _ => some key
  | _ => none

/-- The first loop over the rows of a collection. -/
def judgeRow (scope : Scope) (c : Collection) (row : Row) : Except MergeError Verdict := do
  match ← rowReason rt scope.sourcePath c row with
  | some reason =>
    let record ← quarantine rt (labelOf rt c row) row reason scope.sourcePath
    return .quarantined (keyOf rt c row) record
  | none => return .kept (put row "file_path" (.str scope.sourcePath))

/-- The body of the loop over the collections. -/
def checkCollection (scope : Scope) (c : Collection) (items : List Json) :
    Except MergeError Checked := do
  let strays ← (nonMappings items).mapM fun item =>
    quarantine rt c.label (placeholder item scope.sourcePath) .invalidRecord scope.sourcePath
  if scope.fileQuarantined then
    let records ← (mappings items).mapM fun row =>
      quarantine rt (labelOf rt c row) row .quarantinedFileQuality scope.sourcePath
    return { quarantine := strays ++ records, invalid := (mappings items).map (keyOf rt c) }
  else
    let verdicts ← (mappings items).mapM (judgeRow rt scope c)
    let rows := verdicts.filterMap Verdict.row?
    let checked ← settleRows rt scope c rows rows.zipIdx []
    return { checked with
      quarantine := strays ++ verdicts.filterMap Verdict.record? ++ checked.quarantine
      invalid := verdicts.filterMap Verdict.key? ++ checked.invalid }

/-! ## Relations and calls -/

/-- `_PROC_RELATION_ENDPOINTS` -/
def procRelationEndpoints : List (String × NodeKey) :=
  [("DECLARES_STATEMENT", "Function", "SqlStatement"),
    ("DECLARES_DIRECTIVE", "Function", "SqlDirective"),
    ("BINDS_PARAMETER", "SqlStatement", "SqlHostVariable"),
    ("DECLARES_CURSOR", "Function", "SqlCursor"),
    ("REFERENCES_CURSOR", "SqlStatement", "SqlCursor"),
    ("REFERENCES_STATEMENT", "SqlStatement", "SqlStatement"),
    ("READS_FROM", "SqlStatement", "DatabaseTable"),
    ("WRITES_TO", "SqlStatement", "DatabaseTable"),
    ("REFERENCES_TABLE", "SqlStatement", "DatabaseTable")]

/-- `PROC_RELATION_TYPES` -/
def procRelationTypes : List String := procRelationEndpoints.map Prod.fst

/-- The fields every relation has. -/
def relationFields : List String :=
  ["source_label", "target_label", "source_id", "target_id", "rel_type"]

/-- `source_key` -/
def sourceKey (row : Row) : NodeKey :=
  (rt.textOr (field row "source_label"), rt.textOr (field row "source_id"))

/-- `target_key` -/
def targetKey (row : Row) : NodeKey :=
  (rt.textOr (field row "target_label"), rt.textOr (field row "target_id"))

/-- A relation of Pro*C between nodes of other labels. -/
def badEndpoints (row : Row) : Bool :=
  rt.textOr (field row "rel_type") ∈ procRelationTypes &&
    (rt.textOr (field row "rel_type"), (sourceKey rt row).1, (targetKey rt row).1) ∉
      procRelationEndpoints

/-- `accepted_ids` and `invalid_keys` after the loop over the collections. -/
structure Ids where
  accepted : List NodeKey
  invalid : List NodeKey

/-- `unresolved` -/
def unresolved (scope : Scope) (ids : Ids) (row : Row) : Bool :=
  sourceKey rt row ∈ ids.invalid || targetKey rt row ∈ ids.invalid ||
    scope.known.any fun registry => sourceKey rt row ∉ registry || targetKey rt row ∉ registry

/-- What stands for a relation in the quarantine. -/
def relationRecord (scope : Scope) (row : Row) : Row :=
  [("id", .str ((sourceKey rt row).2 ++ "->" ++ (targetKey rt row).2)),
    ("file_path", .str scope.sourcePath)]

/-- Why a relation is quarantined. -/
def relationReason (scope : Scope) (ids : Ids) (row : Row) : Option QuarantineReason :=
  if relationFields.any fun name => (find? row name).isNone then some .invalidRecord
  else if badEndpoints rt row then some .invalidRecord
  else if scope.fileQuarantined then some .quarantinedFileQuality
  else if unresolved rt scope ids row then some .unresolvedReference
  else none

/-- A relation or a call: kept, or in the quarantine. -/
inductive Edge where
  | kept (row : Row)
  | quarantined (record : QuarantineRecord)

def Edge.row? : Edge → Option Row
  | .kept row => some row
  | _ => none

def Edge.record? : Edge → Option QuarantineRecord
  | .quarantined record => some record
  | _ => none

/-- The body of the loop over the relations. -/
def judgeRelation (scope : Scope) (ids : Ids) (item : Json) : Except MergeError Edge :=
  match item with
  | .obj row =>
    match relationReason rt scope ids row with
    | some reason => do
      let record := if relationFields.any fun name => (find? row name).isNone then row
        else relationRecord rt scope row
      return .quarantined (← quarantine rt "Relation" record reason scope.sourcePath)
    | none => .ok (.kept row)
  | item => do
    return .quarantined (← quarantine rt "Relation" (placeholder item scope.sourcePath)
      .invalidRecord scope.sourcePath)

/-- `caller_id` -/
def callerId (row : Row) : String := rt.textOr (field row "caller_id")

/-- What stands for a call in the quarantine. -/
def callRecord (scope : Scope) (row : Row) : Row :=
  [("id", .str (callerId rt row)), ("name", either (field row "callee_name") (.str "")),
    ("file_path", .str scope.sourcePath)]

/-- Why a classified call is quarantined. -/
def callReason (scope : Scope) (ids : Ids) (row : Row) : Option QuarantineReason :=
  if scope.fileQuarantined then some .quarantinedFileQuality
  else if ("Function", callerId rt row) ∈ ids.invalid ∨
      ("Function", callerId rt row) ∉ ids.accepted then some .unresolvedReference
  else none

/-- A claimed resolution without strong evidence, or of a callee that was not accepted, is made weak
evidence. -/
def demote (ids : Ids) (row : Row) : Except MergeError Row :=
  if (field row "resolution_class").isText directResolved then do
    if !(← isStrongCallEvidence row) ∨
        ("Function", rt.textOr (field row "callee_id")) ∉ ids.accepted then
      return put (put (put row "demoted_from" (.str directResolved)) "resolution_class"
        (.str lexicalCandidate)) "semantic_provider" (.str "tree_sitter")
    else return row
  else .ok row

/-- The body of the loop over the calls. -/
def judgeCall (scope : Scope) (ids : Ids) (item : Json) : Except MergeError Edge :=
  match item with
  | .obj row =>
    match normalizeCallRow rt row with
    | .error (.value _) => do
      return .quarantined (← quarantine rt "Call" (callRecord rt scope row) .invalidRecord
        scope.sourcePath)
    | .error error => .error error
    | .ok row =>
      match callReason rt scope ids row with
      | some reason => do
        return .quarantined (← quarantine rt "Call" (callRecord rt scope row) reason
          scope.sourcePath)
      | none => do return .kept (← demote rt ids row)
  | item => do
    return .quarantined (← quarantine rt "Call" (placeholder item scope.sourcePath)
      .invalidRecord scope.sourcePath)

/-! ## Payloads -/

/-- The members of a payload that are read or written. -/
structure Payload where
  fileDef : Json
  qualityProvenance : Json
  parseMeta : Json
  evidencePolicy : Json
  nodes : Collection → Json
  relations : Json
  calls : Json
  /-- `_validation_rejected_count` -/
  rejectedCount : Nat
  /-- `_quarantine_entire_payload` -/
  quarantineEntire : Bool

structure Validated where
  payload : Payload
  quarantine : List QuarantineRecord

/-- `structural_backend` -/
def structuralBackend (p : Payload) : Except MergeError String := do
  let quality ← getOf (mappingOr p.parseMeta) "quality"
  let context ← getOf (mappingOr quality) "context"
  let backend ← getOf (mappingOr p.qualityProvenance) "backend"
  if backend.truthy then return rt.str backend
  else
    let backend ← getOf (mappingOr context) "backend"
    if backend.truthy then return rt.str backend
    else return rt.textOr (← getOf (mappingOr p.parseMeta) "parser_backend")

/-- The fields of the file that have defaults. -/
def withDefaults (fileDef : Row) : Row :=
  let fileDef := setDefault fileDef "start_line" (.int 1)
  let fileDef := setDefault fileDef "end_line" (field fileDef "start_line")
  ["code", "comment", "summary", "note"].foldl (fun row key => setDefault row key (.str "")) fileDef

/-- `file_quarantined` -/
def fileQuarantined (p : Payload) (fileDef : Row) : Except MergeError Bool := do
  let tier ← getOf (mappingOr (field fileDef "parse_quality")) "tier"
  if rt.textOr tier = "quarantined" then return true
  else
    match ← getOf (mappingOr p.evidencePolicy) "strong_relations_allowed" with
    | .bool false => return true
    | _ => return false

/-- The payload of a file that is quarantined as a whole. -/
def emptied (p : Payload) (fileDef : Row) : Payload :=
  { p with
    fileDef := .obj fileDef
    nodes := fun _ => .arr []
    relations := .arr []
    calls := .arr []
    rejectedCount := 0
    quarantineEntire := true }

/-- What is done where the path of the file is invalid. -/
def invalidPath (p : Payload) (fileDef : Row) : Except MergeError Validated := do
  let path := recordPath rt fileDef ""
  let file ← quarantine rt "File" fileDef .invalidPath ""
  let records ← Collection.all.mapM fun c => do
    (← iterate (p.nodes c)).mapM fun
      | .obj row => quarantine rt c.label row .missingOwner path
      | item => quarantine rt c.label (placeholder item path) .invalidRecord path
  return { payload := emptied p fileDef, quarantine := file :: records.flatten }

/-- What is done with a structure of the legacy backend. -/
def legacyStructure (p : Payload) (fileDef : Row) (path : String) : Except MergeError Validated := do
  let file ← quarantine rt "File" fileDef .legacyStructureBackend path
  let records ← Collection.all.mapM fun c => do
    (mappings (← iterate (p.nodes c))).mapM fun row =>
      quarantine rt (labelOf rt c row) row .legacyStructureBackend path
  return { payload := emptied p fileDef, quarantine := file :: records.flatten }

/-- The loop over the collections. -/
def checkCollections (scope : Scope) (p : Payload) :
    Except MergeError (List (Collection × Checked)) :=
  Collection.all.mapM fun c => do return (c, ← checkCollection rt scope c (← iterate (p.nodes c)))

/-- The rows that are kept of a collection. -/
def rowsOf (checked : List (Collection × Checked)) (c : Collection) : List Row :=
  (checked.filter fun r => r.1 = c).flatMap fun r => r.2.rows

/-- `accepted_ids` and `invalid_keys` -/
def idsOf (scope : Scope) (checked : List (Collection × Checked)) : Ids where
  accepted := ("Project", scope.projectId) :: ("File", scope.sourcePath) ::
    checked.flatMap fun r => r.2.rows.map (keyOf rt r.1)
  invalid := checked.flatMap fun r => r.2.invalid

/-- What is done with a payload whose records are looked at one by one. -/
def validateRecords (scope : Scope) (p : Payload) (fileDef : Row) : Except MergeError Validated := do
  let checked ← checkCollections rt scope p
  let ids := idsOf rt scope checked
  let relations ← (← iterate p.relations).mapM (judgeRelation rt scope ids)
  let calls ← (← iterate p.calls).mapM (judgeCall rt scope ids)
  return {
    payload := { p with
      fileDef := .obj fileDef
      nodes := fun c => .arr ((rowsOf checked c).map .obj)
      relations := .arr ((relations.filterMap Edge.row?).map .obj)
      calls := .arr ((calls.filterMap Edge.row?).map .obj)
      rejectedCount := (checked.map fun r => r.2.rejected).sum }
    quarantine := (checked.flatMap fun r => r.2.quarantine) ++ relations.filterMap Edge.record? ++
      calls.filterMap Edge.record? }

/-- The arguments of `validate_cplus_payload` besides the payload. -/
structure Arguments where
  projectId : String
  known : Option (List NodeKey)
  blocked : Option (List NodeKey)

/-- `validate_cplus_payload` -/
def validateCplusPayload (args : Arguments) (p : Payload) : Except MergeError Validated := do
  let fileDef ← dictOr p.fileDef
  let backend ← structuralBackend rt p
  match normalizeRelativePath (recordPath rt fileDef "") with
  | none => invalidPath rt p fileDef
  | some path =>
    let fileDef := withDefaults (put fileDef "file_path" (.str path))
    if backend = "libclang" then legacyStructure rt p fileDef path
    else
      let quarantined ← fileQuarantined rt p fileDef
      validateRecords rt ⟨args.projectId, args.known, args.blocked, path, quarantined⟩ p fileDef

end CortexHarness.Cplus
