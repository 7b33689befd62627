import CortexHarness.Journal.Constructors
import CortexHarness.Journal.Fencing
import CortexHarness.Journal.QueryContract

/-!
# The replay compiler against the manifest

Model of `compile_persisted_mutation` (`executor.py:20-152`): the query and the rows that replay a
persisted batch. `enqueue_batch` admits the same batch through `_manifest_candidates`, and one
`REJECTED` candidate blocks the run.

Results:
* `rejected_free`: a batch has no rejected candidate exactly when every row is `RowStaged`;
* `manifest_agrees_iff`: when a batch that replays is admitted. It is not when it matches nodes,
  when a call site has an empty `site_id`, and when a typed relationship names an `edge_property`
  without a usable `edge_id`, which its query never reads.
-/

namespace CortexHarness.Journal

open CortexHarness.Json Fallible

variable (py : Python) (schema : GraphSchemaManifest)

/-! ## The compiler -/

/-- `_unsupported`. -/
def unsupported (operation : GraphWriteOperation) : CompileError :=
  .journal .invalidContract ("operation " ++ operation.operationKey ++
    " has no trusted replay compiler")

/-- The `node_identity` branch. -/
def compileNodeUpsert (operation : GraphWriteOperation) : Except CompileError String :=
  match operation.nodeLabel.filter (· != ""), operation.identityProperty.filter (· != "") with
  | some label, some identity => do
    validateCypherIdentifier schema label "node label"
    validateCypherIdentifier schema identity "identity property"
    validateCypherIdentifier schema operation.rowIdentityProperty "row identity property"
    let verb := if operation.mutationKind = .merge then "MERGE" else "MATCH"
    let rowValue ← match operation.rowPropertiesProperty.filter (· != "") with
      | some properties => do
        validateCypherIdentifier schema properties "row properties property"
        .ok ("coalesce(row." ++ properties ++ ", \x7b\x7d)")
      | none => .ok "row"
    return "UNWIND $rows AS row " ++ verb ++ " (n:" ++ label ++ " \x7b" ++ identity ++ ": row." ++
      operation.rowIdentityProperty ++ "\x7d) SET n += " ++ rowValue ++
      ", n.updated_at = datetime() RETURN count(n) AS count"
  | _, _ => .error (unsupported operation)

/-- The two endpoints of a call. -/
def matchCall : String :=
  "UNWIND $rows AS row MATCH (caller:Function \x7bid: row.caller_id, " ++
    "project_id_normalized: row.project_id_normalized\x7d) MATCH (callee:Function " ++
    "\x7bid: row.callee_id, project_id_normalized: row.project_id_normalized\x7d) "

/-- The query of the `call_site` and the `possible_call_site` branch. -/
def callSiteUpsert (relationshipType : String) : String :=
  matchCall ++ "MERGE (caller)-[edge:" ++ relationshipType ++
    " \x7bsite_id: row.site_id\x7d]->(callee) SET edge += coalesce(row.props, \x7b\x7d) " ++
    "RETURN count(edge) AS count"

/-- The query of the `repository_file` branch. -/
def repositoryFileUpsert : String :=
  "UNWIND $rows AS row MATCH (repository:Repository \x7bname: row.repo, " ++
    "project_id_normalized: row.project_id_normalized\x7d) MATCH (file:File \x7bid: row.id, " ++
    "project_id_normalized: row.project_id_normalized\x7d) " ++
    "MERGE (repository)-[edge:HAS_FILE]->(file) RETURN count(edge) AS count"

/-- The query of the `call_edge` branch. -/
def callEdgeUpsert : String :=
  matchCall ++ "MERGE (caller)-[edge:CALLS]->(callee) SET edge.count = row.count, " ++
    "edge.call_type = row.call_type, edge.project_id = row.project_id, " ++
    "edge.project_id_normalized = row.project_id_normalized, edge.updated_at = datetime() " ++
    "RETURN count(edge) AS count"

/-- The `file_cleanup` branch. -/
def compileFileCleanup (operation : GraphWriteOperation) : Except CompileError String :=
  if operation.version ≠ 2 then .error (unsupported operation)
  else
    match operation.nodeLabel.filter (· != "") with
    | some label => do
      validateCypherIdentifier schema label "node label"
      return "UNWIND $rows AS row OPTIONAL MATCH (n:" ++ label ++ ") WHERE " ++
        "n.project_id = row.project_id AND (coalesce(n.file_path, '') IN row.paths " ++
        "OR coalesce(n.path, '') IN row.paths OR (n:File AND n.id IN row.paths)) " ++
        "WITH row, collect(DISTINCT n) AS nodes FOREACH (node IN nodes | DETACH DELETE node) " ++
        "RETURN count(*) AS count"
    | none => .error (unsupported operation)

/-- The `orphan_unknown_cleanup` branch. -/
def compileOrphanCleanup (operation : GraphWriteOperation) : Except CompileError String :=
  if operation.version ≠ 2 then .error (unsupported operation)
  else .ok ("UNWIND $rows AS row OPTIONAL MATCH (u:UnknownFunction) WHERE " ++
    "u.project_id = row.project_id AND NOT ()-[:UNKNOWN_CALL]->(u) " ++
    "WITH row, collect(u) AS nodes FOREACH (node IN nodes | DETACH DELETE node) " ++
    "RETURN count(*) AS count")

/-- The query of a batch that must have one shape. -/
def compileSingle {κ : Type} (message : String) (compile : κ → String)
    (groups : List (κ × List Row)) : Except CompileError (String × List Row) :=
  match groups with
  | [(group, rows)] => .ok (compile group, rows)
  | _ => .error (.journal .invalidContract message)

/-- `compile_persisted_mutation`. -/
def compilePersistedMutation (operation : GraphWriteOperation) (rows : List Row) :
    Except CompileError (String × List Row) :=
  if operation.reconciliation = "node_identity" then
    (compileNodeUpsert schema operation).map fun query => (query, rows)
  else if operation.reconciliation = "typed_relationship" then
    (groupTypedRelations py schema rows .null).bind
      (compileSingle "persisted relationship batch must contain one endpoint/type triple"
        (compileRelationshipUpsert schema))
  else if operation.reconciliation = "evidence_edge" then
    (groupEvidenceEdges py schema rows).bind
      (compileSingle "persisted evidence-edge batch must contain one edge shape"
        (compileEvidenceEdgeUpsert schema))
  else if operation.reconciliation = "repository_file" then .ok (repositoryFileUpsert, rows)
  else if operation.reconciliation = "call_edge" then .ok (callEdgeUpsert, rows)
  else if operation.reconciliation = "call_site" then .ok (callSiteUpsert "CALLS", rows)
  else if operation.reconciliation = "possible_call_site" then
    .ok (callSiteUpsert "POSSIBLE_CALLS", rows)
  else if operation.reconciliation = "file_cleanup" then
    (compileFileCleanup schema operation).map fun query => (query, rows)
  else if operation.reconciliation = "orphan_unknown_cleanup" then
    (compileOrphanCleanup operation).map fun query => (query, rows)
  else .error (unsupported operation)

/-! ## What the manifest rejects -/

/-- `isinstance(value, (bool, int, float, str))` -/
def isScalar : Option Json → Bool
  | some (.bool _) | some (.int _) | some (.float _) | some (.str _) => true
  | _ => false

/-- The edge branch finds the identities it needs on the row. -/
def edgeStaged (reconciliation : String) (raw : Json) : Bool :=
  ((edgeShape py reconciliation raw).bind edgeIdentity).isSome

/-- The row gets no candidate, or one that is not rejected. -/
def RowStaged (operation : Row) (raw : Json) : Prop :=
  if reconciliationOf py operation = "node_identity" ∧
      isMerge (find? operation "mutation_kind") = true then
    isScalar (raw.get? (py.strOr (find? operation "row_identity_property") "id")) = true ∧
      py.strOr (find? operation "node_label") "" ≠ "" ∧
      py.strOr (find? operation "identity_property") "" ≠ ""
  else
    reconciliationOf py operation = "file_cleanup" ∨
      reconciliationOf py operation = "orphan_unknown_cleanup" ∨
      edgeStaged py (reconciliationOf py operation) raw = true

section Manifest

variable {py} {operation : Row} {scopeDefault jobId reconciliation : String} {raw : Json}
  {ordinal : Nat}

theorem isSome_typedIdentity (v : Option Json) : (v.bind typedIdentity).isSome = isScalar v := by
  match v with
  | none => rfl
  | some .null | some (.arr _) | some (.obj _) => rfl
  | some (.bool _) | some (.int _) | some (.float _) | some (.str _) => rfl

theorem nodeCandidate_staged :
    (nodeCandidate py operation scopeDefault jobId raw ordinal).disposition ≠ .rejected ↔
      isScalar (raw.get? (py.strOr (find? operation "row_identity_property") "id")) = true ∧
        py.strOr (find? operation "node_label") "" ≠ "" ∧
        py.strOr (find? operation "identity_property") "" ≠ "" := by
  rw [← isSome_typedIdentity]
  unfold nodeCandidate
  dsimp only
  cases (raw.get? (py.strOr (find? operation "row_identity_property") "id")).bind typedIdentity with
  | none => simp
  | some identity =>
    dsimp only
    split
    · next hempty => simpa [or_iff_not_imp_left] using hempty
    · next hempty => simpa using not_or.mp hempty

theorem edgeCandidate_staged :
    (edgeCandidate py reconciliation scopeDefault jobId raw ordinal).disposition ≠ .rejected ↔
      edgeStaged py reconciliation raw = true := by
  unfold edgeCandidate edgeStaged
  cases edgeShape py reconciliation raw with
  | none => simp
  | some e =>
    rw [Option.bind_some, Option.bind_some]
    cases edgeIdentity e <;> simp

/-- **No candidate is rejected exactly when every row is staged.** -/
theorem rejected_free {rows : List Json} :
    (∀ c ∈ candidatesFrom py operation scopeDefault jobId ordinal rows,
        c.disposition ≠ .rejected) ↔ ∀ raw ∈ rows, RowStaged py operation raw := by
  induction rows generalizing ordinal with
  | nil => simp [candidatesFrom]
  | cons raw rows ih =>
    rw [List.forall_mem_cons, ← @ih (ordinal + 1), candidatesFrom]
    unfold RowStaged
    split
    · rw [List.forall_mem_cons, nodeCandidate_staged]
    · split
      · next hclean => simp [← or_assoc, hclean]
      · next hclean =>
        rw [List.forall_mem_cons, edgeCandidate_staged, ← or_assoc, or_iff_right hclean]

end Manifest

/-! ## Edges -/

section Edges

variable {py schema} {row : Row} {key : String}

theorem find?_of_truthy (h : (field row key).truthy = true) :
    find? row key = some (field row key) := by
  unfold field at h ⊢
  cases hf : find? row key with
  | none =>
    rw [hf] at h
    exact absurd h (by decide)
  | some v => rfl

theorem find?_of_text (h : text py row key ≠ "") : find? row key = some (field row key) := by
  refine find?_of_truthy ?_
  unfold text Python.strOr at h
  unfold field
  cases hf : find? row key with
  | none =>
    rw [hf] at h
    exact absurd rfl h
  | some v =>
    by_contra hv
    rw [hf, orElse, if_neg (by simpa using hv)] at h
    exact h rfl

theorem exists_of_isScalar {v : Option Json} (h : isScalar v = true) : ∃ value, v = some value := by
  cases v with
  | none => cases h
  | some value => exact ⟨value, rfl⟩

theorem missingEdgeValue_iff {v : Option Json} :
    missingEdgeValue v = false ↔ isScalar v = true ∧ v ≠ some (.str "") := by
  match v with
  | none => simp [missingEdgeValue, isScalar]
  | some .null | some (.arr _) | some (.obj _) => simp [missingEdgeValue, isScalar]
  | some (.bool _) | some (.int _) | some (.float _) => simp [missingEdgeValue, isScalar]
  | some (.str s) => simp [missingEdgeValue, isScalar]

theorem isSome_edgeIdentity {e : EdgeShape} (hs : e.sourceLabel ≠ "") (ht : e.targetLabel ≠ "")
    (hr : e.relationshipType ≠ "") (hsource : isScalar (some e.sourceValue) = true)
    (htarget : isScalar (some e.targetValue) = true) :
    (edgeIdentity e).isSome = true ↔ e.edgeProperty = "" ∨ isScalar e.edgeValue = true := by
  rw [← isSome_typedIdentity] at hsource htarget
  obtain ⟨source, hsource⟩ := Option.isSome_iff_exists.mp hsource
  obtain ⟨target, htarget⟩ := Option.isSome_iff_exists.mp htarget
  rw [Option.bind_some] at hsource htarget
  unfold edgeIdentity
  rw [if_neg (by simp [hs, ht, hr]), hsource, htarget, ← isSome_typedIdentity]
  by_cases he : e.edgeProperty = ""
  · simp [he]
  · cases e.edgeValue.bind typedIdentity <;> simp [he]

theorem edgeStaged_described {reconciliation : String}
    (hkind : reconciliation = "typed_relationship" ∨ reconciliation = "evidence_edge")
    (hsource : find? row "source_label" = some (field row "source_label"))
    (htarget : find? row "target_label" = some (field row "target_label"))
    (htype : find? row "rel_type" = some (field row "rel_type"))
    (hs : py.str (field row "source_label") ≠ "") (ht : py.str (field row "target_label") ≠ "")
    (hr : py.str (field row "rel_type") ≠ "")
    (hsid : isScalar (find? row "source_id") = true) (htid : isScalar (find? row "target_id") = true) :
    edgeStaged py reconciliation (.obj row) = true ↔ text py row "edge_property" = "" ∨
      isScalar (find? row "edge_id") = true ∧ find? row "edge_id" ≠ some (.str "") := by
  obtain ⟨sid, hsid'⟩ := exists_of_isScalar hsid
  obtain ⟨tid, htid'⟩ := exists_of_isScalar htid
  rw [← missingEdgeValue_iff]
  unfold edgeStaged edgeShape
  rw [if_pos hkind]
  simp only [get?, hsource, htarget, htype, hsid', htid', Option.bind_eq_bind, Option.bind_some]
  rw [hsid'] at hsid
  rw [htid'] at htid
  change _ ↔ py.strOr (find? row "edge_property") "" = "" ∨ _
  by_cases he : py.strOr (find? row "edge_property") "" = ""
  · simp [he, isSome_edgeIdentity, hs, ht, hr, hsid, htid]
  · by_cases hv : missingEdgeValue (find? row "edge_id") = true
    · simp [he, hv]
    · rw [Bool.not_eq_true] at hv
      simp [he, hv, isSome_edgeIdentity, hs, ht, hr, hsid, htid, (missingEdgeValue_iff.mp hv).1]

theorem edgeStaged_repositoryFile (hrepo : isScalar (find? row "repo") = true)
    (hid : isScalar (find? row "id") = true) :
    edgeStaged py "repository_file" (.obj row) = true := by
  obtain ⟨repo, hrepo'⟩ := exists_of_isScalar hrepo
  obtain ⟨id, hid'⟩ := exists_of_isScalar hid
  rw [hrepo'] at hrepo
  rw [hid'] at hid
  unfold edgeStaged edgeShape
  rw [if_neg (by decide), if_pos rfl]
  simp only [get?, hrepo', hid', Option.bind_eq_bind, Option.bind_some]
  exact (isSome_edgeIdentity (by simp) (by simp) (by simp) hrepo hid).mpr (.inl rfl)

/-- An edge between two Functions. -/
theorem edgeStaged_call {reconciliation : String} (hkind : reconciliation = "call_edge" ∨
      reconciliation = "call_site" ∨ reconciliation = "possible_call_site")
    (hcaller : isScalar (find? row "caller_id") = true)
    (hcallee : isScalar (find? row "callee_id") = true) :
    edgeStaged py reconciliation (.obj row) = true ↔ reconciliation = "call_edge" ∨
      isScalar (find? row "site_id") = true ∧ find? row "site_id" ≠ some (.str "") := by
  obtain ⟨caller, hcaller'⟩ := exists_of_isScalar hcaller
  obtain ⟨callee, hcallee'⟩ := exists_of_isScalar hcallee
  rw [← missingEdgeValue_iff]
  unfold edgeStaged edgeShape
  simp only [get?, hcaller', hcallee', Option.bind_eq_bind, Option.bind_some]
  rw [hcaller'] at hcaller
  rw [hcallee'] at hcallee
  have hmissing (h : missingEdgeValue (find? row "site_id") = false) :=
    (missingEdgeValue_iff.mp h).1
  have hcall : ¬(reconciliation = "typed_relationship" ∨ reconciliation = "evidence_edge") ∧
      reconciliation ≠ "repository_file" := by
    rcases hkind with rfl | rfl | rfl <;> decide
  rw [if_neg hcall.1, if_neg hcall.2, if_pos hkind]
  by_cases hedge : reconciliation = "call_edge"
  · simp [hedge, isSome_edgeIdentity, hcaller, hcallee]
  · cases hv : missingEdgeValue (find? row "site_id")
    · have htype : (if reconciliation = "possible_call_site" then "POSSIBLE_CALLS" else "CALLS") ≠
          "" := by
        split <;> decide
      simp [hedge, hv, isSome_edgeIdentity, hcaller, hcallee, hmissing hv, htype]
    · simp [hedge, hv]

end Edges

/-! ## What replays is admitted -/

/-- The fields of a row whose values the query matches nodes and edges by. -/
def identityFields (operation : GraphWriteOperation) (row : Row) : List String :=
  if operation.reconciliation = "node_identity" then [operation.rowIdentityProperty]
  else if operation.reconciliation = "typed_relationship" then ["source_id", "target_id"]
  else if operation.reconciliation = "evidence_edge" then
    ["source_id", "target_id"] ++ if text py row "edge_property" = "" then [] else ["edge_id"]
  else if operation.reconciliation = "repository_file" then ["repo", "id"]
  else if operation.reconciliation = "call_edge" then ["caller_id", "callee_id"]
  else if operation.reconciliation = "call_site" ∨
      operation.reconciliation = "possible_call_site" then ["caller_id", "callee_id", "site_id"]
  else []

/-- What keeps the manifest from rejecting a row that replays. -/
def Agreed (operation : GraphWriteOperation) (row : Row) : Prop :=
  if operation.reconciliation = "node_identity" then operation.mutationKind = .merge
  else if operation.reconciliation = "typed_relationship" then
    text py row "edge_property" = "" ∨
      isScalar (find? row "edge_id") = true ∧ find? row "edge_id" ≠ some (.str "")
  else if operation.reconciliation = "call_site" ∨
      operation.reconciliation = "possible_call_site" then find? row "site_id" ≠ some (.str "")
  else True

section Agreement

variable {py schema} {operation : GraphWriteOperation} {rows : List Row} {row : Row}
  {compiled : String × List Row}

theorem compiled_reconciliation
    (h : compilePersistedMutation py schema operation rows = .ok compiled) :
    operation.reconciliation ≠ "" := by
  intro he
  unfold compilePersistedMutation at h
  rw [he] at h
  cases h

theorem compileNodeUpsert_ok {query : String}
    (h : compileNodeUpsert schema operation = .ok query) :
    (∃ label, operation.nodeLabel = some label ∧ label ≠ "") ∧
      (∃ identity, operation.identityProperty = some identity ∧ identity ≠ "") ∧
      operation.rowIdentityProperty ≠ "" := by
  unfold compileNodeUpsert at h
  split at h
  · next label identity hlabel hidentity =>
    rw [Option.filter_eq_some_iff] at hlabel hidentity
    obtain ⟨_, _, h⟩ := bind_ok.mp h
    obtain ⟨_, _, h⟩ := bind_ok.mp h
    obtain ⟨_, hrow, h⟩ := bind_ok.mp h
    refine ⟨⟨label, hlabel.1, by simpa using hlabel.2⟩, ⟨identity, hidentity.1, by
      simpa using hidentity.2⟩, ?_⟩
    exact validIdentifier_ne_empty (validateCypherIdentifier_ok schema hrow)
  · cases h

theorem strOr_str (s default : String) :
    py.strOr (some (.str s)) default = if s = "" then default else s := by
  unfold Python.strOr orElse truthy
  by_cases h : s = "" <;> simp [h, Python.str]

theorem strOr_ofOption {o : Option String} {s : String} (h : o = some s) (hs : s ≠ "") :
    py.strOr (some (Json.ofOption o)) "" = s := by
  rw [h, Json.ofOption, strOr_str, if_neg hs]

theorem reconciliationOf_toDict (h : operation.reconciliation ≠ "") :
    reconciliationOf py operation.toDict = operation.reconciliation := by
  have hfind : find? operation.toDict "reconciliation" = some (.str operation.reconciliation) := rfl
  rw [reconciliationOf, hfind, strOr_str, if_neg h]

theorem isMerge_toDict :
    isMerge (find? operation.toDict "mutation_kind") = true ↔ operation.mutationKind = .merge := by
  have hfind : find? operation.toDict "mutation_kind" =
    some (.str operation.mutationKind.value) := rfl
  rw [hfind, isMerge]
  cases operation.mutationKind <;> decide

theorem rowStaged_node (hkind : operation.reconciliation = "node_identity") {query : String}
    (hcompile : compileNodeUpsert schema operation = .ok query)
    (hscalar : ∀ key ∈ identityFields py operation row, isScalar (find? row key) = true) :
    RowStaged py operation.toDict (.obj row) ↔ operation.mutationKind = .merge := by
  obtain ⟨⟨label, hlabel, hl⟩, ⟨identity, hidentity, hi⟩, hrow⟩ := compileNodeUpsert_ok hcompile
  have hfield : find? operation.toDict "row_identity_property" =
    some (.str operation.rowIdentityProperty) := rfl
  have hlabel' : find? operation.toDict "node_label" = some (Json.ofOption operation.nodeLabel) :=
    rfl
  have hidentity' : find? operation.toDict "identity_property" =
    some (Json.ofOption operation.identityProperty) := rfl
  unfold RowStaged
  rw [reconciliationOf_toDict (by rw [hkind]; decide), hkind]
  by_cases hmerge : operation.mutationKind = .merge
  · rw [if_pos ⟨rfl, isMerge_toDict.mpr hmerge⟩, hfield, strOr_str, if_neg hrow, hlabel',
      hidentity', strOr_ofOption hlabel hl, strOr_ofOption hidentity hi]
    simpa [hmerge, hl, hi, get?] using hscalar _ (by simp [identityFields, hkind])
  · rw [if_neg fun h => hmerge (isMerge_toDict.mp h.2)]
    -- The descriptor is no edge either.
    have hedge : edgeShape py "node_identity" (.obj row) = none := by
      unfold edgeShape
      rw [if_neg (by decide), if_neg (by decide), if_neg (by decide)]
    simp [hmerge, edgeStaged, hedge]

/-- An edge of one of the kinds the manifest knows. -/
theorem rowStaged_edge (hkind : operation.reconciliation ≠ "node_identity")
    (hclean : operation.reconciliation ≠ "file_cleanup" ∧
      operation.reconciliation ≠ "orphan_unknown_cleanup")
    (hne : operation.reconciliation ≠ "") {raw : Json} :
    RowStaged py operation.toDict raw ↔ edgeStaged py operation.reconciliation raw = true := by
  unfold RowStaged
  rw [reconciliationOf_toDict hne, if_neg (by simp [hkind])]
  simp [hclean]

theorem compileSingle_ok {κ : Type} {message : String} {compile : κ → String}
    {groups : Except CompileError (List (κ × List Row))}
    (h : groups.bind (compileSingle message compile) = .ok compiled) :
    ∃ g grouped, groups = .ok [(g, grouped)] := by
  obtain ⟨gs, hgs, h⟩ := bind_ok.mp h
  unfold compileSingle at h
  split at h
  · next g grouped => exact ⟨g, grouped, hgs⟩
  · cases h

theorem groupRows_mem {κ : Type} [DecidableEq κ]
    {check : Row → Nat → Except CompileError (κ × Row)} {grouped : List Row} {g : κ}
    (h : groupRows check rows = .ok [(g, grouped)]) (hrow : row ∈ rows) :
    ∃ position row', check row position = .ok (g, row') := by
  obtain ⟨-, hchecked⟩ := groupRows_single h
  obtain ⟨i, hi, rfl⟩ := List.mem_iff_getElem.mp hrow
  have hi' : i < rows.zipIdx.length := by rwa [List.length_zipIdx]
  have h := hchecked.get hi' (hchecked.length_eq ▸ hi')
  exact ⟨_, _, by simpa using h⟩

theorem rowStaged_typed (hkind : operation.reconciliation = "typed_relationship")
    {group : RelationshipGroup schema} (hrow : TypedRow py schema row group)
    (hscalar : ∀ key ∈ identityFields py operation row, isScalar (find? row key) = true) :
    RowStaged py operation.toDict (.obj row) ↔ text py row "edge_property" = "" ∨
      isScalar (find? row "edge_id") = true ∧ find? row "edge_id" ≠ some (.str "") := by
  have hfields : identityFields py operation row = ["source_id", "target_id"] := by
    unfold identityFields
    rw [hkind, if_neg (by decide), if_pos rfl]
  rw [hfields] at hscalar
  rw [rowStaged_edge (by rw [hkind]; decide) (by rw [hkind]; decide) (by rw [hkind]; decide), hkind]
  exact edgeStaged_described (.inl rfl) (find?_of_truthy hrow.source_label)
    (find?_of_truthy hrow.target_label) (find?_of_truthy hrow.rel_type)
    (hrow.source_eq ▸ validIdentifier_ne_empty group.source_valid)
    (hrow.target_eq ▸ validIdentifier_ne_empty group.target_valid)
    (hrow.type_eq ▸ validIdentifier_ne_empty group.type_valid) (hscalar _ (by simp))
    (hscalar _ (by simp))

theorem rowStaged_evidence (hkind : operation.reconciliation = "evidence_edge")
    {group : EvidenceEdgeGroup schema} (hrow : EvidenceRow py schema row group)
    (hscalar : ∀ key ∈ identityFields py operation row, isScalar (find? row key) = true) :
    RowStaged py operation.toDict (.obj row) := by
  have hfields : identityFields py operation row = ["source_id", "target_id"] ++
      if text py row "edge_property" = "" then [] else ["edge_id"] := by
    unfold identityFields
    rw [hkind, if_neg (by decide), if_neg (by decide), if_pos rfl]
  have hfilled {key : String} (hkey : key ∈ evidenceEdgeRowFields) :
      find? row key = some (field row key) := by
    have htext : text py row key ≠ "" := by
      intro he
      have hfilled := hrow.filled key hkey
      rw [he] at hfilled
      exact absurd hfilled (by decide)
    exact find?_of_text htext
  rw [hfields] at hscalar
  rw [rowStaged_edge (by rw [hkind]; decide) (by rw [hkind]; decide) (by rw [hkind]; decide), hkind,
    edgeStaged_described (.inr rfl) (hfilled (by decide)) (hfilled (by decide))
      (hfilled (by decide)) (hrow.source_eq ▸ validIdentifier_ne_empty group.source_valid)
      (hrow.target_eq ▸ validIdentifier_ne_empty group.target_valid)
      (hrow.type_eq ▸ validIdentifier_ne_empty group.type_valid) (hscalar _ (by simp))
      (hscalar _ (by simp))]
  by_cases hedge : text py row "edge_property" = ""
  · exact .inl hedge
  · refine .inr ⟨hscalar _ (by simp [hedge]), fun he => hrow.keyed hedge ?_⟩
    rw [text, he, strOr_str, if_pos rfl]

theorem rowStaged_call (hkind : operation.reconciliation = "call_edge" ∨
      operation.reconciliation = "call_site" ∨ operation.reconciliation = "possible_call_site")
    (hscalar : ∀ key ∈ identityFields py operation row, isScalar (find? row key) = true) :
    RowStaged py operation.toDict (.obj row) ↔ Agreed py operation row := by
  have hkinds : operation.reconciliation ≠ "node_identity" ∧
      operation.reconciliation ≠ "typed_relationship" ∧
      operation.reconciliation ≠ "evidence_edge" ∧ operation.reconciliation ≠ "repository_file" ∧
      (operation.reconciliation ≠ "file_cleanup" ∧
        operation.reconciliation ≠ "orphan_unknown_cleanup") ∧ operation.reconciliation ≠ "" := by
    rcases hkind with hk | hk | hk <;> rw [hk] <;> decide
  obtain ⟨hnode, htyped, hevidence, hfile, hclean, hne⟩ := hkinds
  unfold identityFields at hscalar
  rw [if_neg hnode, if_neg htyped, if_neg hevidence, if_neg hfile] at hscalar
  rw [rowStaged_edge hnode hclean hne, Agreed, if_neg hnode, if_neg htyped]
  by_cases hedge : operation.reconciliation = "call_edge"
  · rw [if_pos hedge] at hscalar
    rw [edgeStaged_call hkind (hscalar _ (by simp)) (hscalar _ (by simp)),
      if_neg (by rw [hedge]; decide)]
    exact iff_of_true (.inl hedge) trivial
  · have hsite := hkind.resolve_left hedge
    rw [if_neg hedge, if_pos hsite] at hscalar
    rw [edgeStaged_call hkind (hscalar _ (by simp)) (hscalar _ (by simp)), if_pos hsite]
    simp [hedge, hscalar "site_id" (by simp)]

/-- The branches of the compiler that return. -/
theorem compiled_cases (h : compilePersistedMutation py schema operation rows = .ok compiled) :
    (operation.reconciliation = "node_identity" ∧
      ∃ query, compileNodeUpsert schema operation = .ok query) ∨
    (operation.reconciliation = "typed_relationship" ∧
      ∃ g grouped, groupTypedRelations py schema rows .null = .ok [(g, grouped)]) ∨
    (operation.reconciliation = "evidence_edge" ∧
      ∃ g grouped, groupEvidenceEdges py schema rows = .ok [(g, grouped)]) ∨
    operation.reconciliation = "repository_file" ∨
    (operation.reconciliation = "call_edge" ∨ operation.reconciliation = "call_site" ∨
      operation.reconciliation = "possible_call_site") ∨
    operation.reconciliation = "file_cleanup" ∨
    operation.reconciliation = "orphan_unknown_cleanup" := by
  unfold compilePersistedMutation at h
  split_ifs at h with hnode htyped hevidence hfile hedge hsite hpossible hclean horphan
  · cases hq : compileNodeUpsert schema operation with
    | error e =>
      rw [hq] at h
      cases h
    | ok query => exact .inl ⟨hnode, query, rfl⟩
  · exact .inr (.inl ⟨htyped, compileSingle_ok h⟩)
  · exact .inr (.inr (.inl ⟨hevidence, compileSingle_ok h⟩))
  · simp [hfile]
  · simp [hedge]
  · simp [hsite]
  · simp [hpossible]
  · simp [hclean]
  · simp [horphan]

/-- A row of a batch that replays. -/
theorem rowStaged_iff (h : compilePersistedMutation py schema operation rows = .ok compiled)
    (hrow : row ∈ rows)
    (hscalar : ∀ key ∈ identityFields py operation row, isScalar (find? row key) = true) :
    RowStaged py operation.toDict (.obj row) ↔ Agreed py operation row := by
  rcases compiled_cases h with ⟨hk, query, hq⟩ | ⟨hk, g, grouped, hg⟩ | ⟨hk, g, grouped, hg⟩ | hk |
    hk | hk
  · rw [rowStaged_node hk hq hscalar, Agreed, if_pos hk]
  · obtain ⟨position, row', hcheck⟩ := groupRows_mem hg hrow
    rw [rowStaged_typed hk (typedRow_ok py schema hcheck).1 hscalar, Agreed,
      if_neg (by rw [hk]; decide), if_pos hk]
  · obtain ⟨position, row', hcheck⟩ := groupRows_mem hg hrow
    refine iff_of_true (rowStaged_evidence hk (evidenceRow_ok py schema hcheck).1 hscalar) ?_
    rw [Agreed, hk, if_neg (by decide), if_neg (by decide), if_neg (by decide)]
    trivial
  · have hfields : identityFields py operation row = ["repo", "id"] := by
      unfold identityFields
      rw [hk, if_neg (by decide), if_neg (by decide), if_neg (by decide), if_pos rfl]
    rw [hfields] at hscalar
    rw [rowStaged_edge (by rw [hk]; decide) (by rw [hk]; decide) (by rw [hk]; decide), hk, Agreed,
      hk, if_neg (by decide), if_neg (by decide), if_neg (by decide)]
    exact iff_of_true (edgeStaged_repositoryFile (hscalar _ (by simp)) (hscalar _ (by simp))) trivial
  · exact rowStaged_call hk hscalar
  · have hclean : RowStaged py operation.toDict (.obj row) := by
      unfold RowStaged
      rw [reconciliationOf_toDict (compiled_reconciliation h), if_neg]
      · tauto
      · rcases hk with hk | hk <;> rw [hk] <;> simp
    refine iff_of_true hclean ?_
    unfold Agreed
    rcases hk with hk | hk <;>
    · rw [hk, if_neg (by decide), if_neg (by decide), if_neg (by decide)]
      trivial

end Agreement

/-! ## A node that is matched -/

theorem manifestCandidates_toDict (operation : GraphWriteOperation) (metadata : RunMetadata)
    (spec : BatchSpec) (rows : List Json) (jobId : String) :
    manifestCandidates py metadata { spec with operation := operation.toDict } rows jobId =
      some (producerIdOf py operation.toDict spec.operationKey,
        candidatesFrom py operation.toDict metadata.projectId jobId 0 rows) := rfl

/-- **A batch that replays is admitted exactly when its rows agree.** -/
theorem manifest_agrees_iff {operation : GraphWriteOperation} {rows : List Row}
    {compiled : String × List Row}
    (h : compilePersistedMutation py schema operation rows = .ok compiled)
    (hscalar : ∀ row ∈ rows, ∀ key ∈ identityFields py operation row,
      isScalar (find? row key) = true)
    (metadata : RunMetadata) (spec : BatchSpec) (jobId : String) :
    (∃ producer candidates,
      manifestCandidates py metadata { spec with operation := operation.toDict }
        (rows.map .obj) jobId = some (producer, candidates) ∧
      ∀ c ∈ candidates, c.disposition ≠ .rejected) ↔
      ∀ row ∈ rows, Agreed py operation row := by
  have hrows : (∀ raw ∈ rows.map Json.obj, RowStaged py operation.toDict raw) ↔
      ∀ row ∈ rows, Agreed py operation row := by
    rw [List.forall_mem_map]
    exact forall₂_congr fun row hrow => rowStaged_iff h hrow (hscalar row hrow)
  rw [← hrows, ← rejected_free, manifestCandidates_toDict]
  constructor
  · rintro ⟨producer, candidates, heq, hfree⟩
    obtain ⟨-, rfl⟩ := Prod.mk.inj (Option.some.inj heq)
    exact hfree
  · exact fun hfree => ⟨_, _, rfl, hfree⟩

/-- The ASCII part of what `re` knows. -/
def asciiRegex : Regex where
  identStart c := c.isAlpha || c == '_'
  word c := c.isAlphanum || c == '_'
  same c d := c.toLower == d.toLower

/-- A custom query that matches the functions it updates. -/
def sampleMatchQuery : String :=
  "UNWIND $rows AS row MATCH (n:Function \x7bid: row.id\x7d) SET n += row"

/-- SHA-256 on the texts the samples hash. -/
def sampleReplaySha256 (text : String) : String :=
  if text = sampleMatchQuery then
    "659c73ace7c8831d156449b8254bbbc40d087b100088dd527d54c36d325cbfdf"
  else if text = "\x7b\"job_id\":\"job\",\"kind\":\"edge\",\"row\":0\x7d" then
    "15299db323e3ffd5c16b82041b563d4c283fb9a6eb6c2f8f4eb7001ace1d0e9d"
  else if text = "\x7b\"id\":\"f\",\"rank\":1\x7d" then
    "2a16130dd0899ddd0635ba141258a0f99465832d0a4c18e97b4923cc2d623267"
  else if text = "\x7b\"callee_id\":\"g\",\"caller_id\":\"f\",\"site_id\":\"s\"\x7d" then
    "991954be3989380431cb368ba26705bd1f066389860bae2dc04a635b8de90012"
  else ""

def sampleReplayPython : Python :=
  { sha256Hex := sampleReplaySha256, reprContainer := fun _ => "",
    casefold := fun s => String.ofList (s.toList.map Char.toLower),
    parseInt := fun _ => .error "" }

def sampleReplaySchema : GraphSchemaManifest :=
  { name := "code_graph", fingerprint := "", indexes := [], repr := id }

def sampleReplayMetadata : RunMetadata :=
  { projectId := "demo", scopeId := "repo", sourceRevision := "r1", sourceSnapshot := "s1",
    physicalTarget := "graph", generation := "g1", parser := "python", parserVersion := "1",
    schemaFingerprint := "f1", queryShapeVersion := "journal-v1" }

def sampleReplaySpec : BatchSpec :=
  { sampleSpec 0 with artifact := ⟨"", "", 0, 1⟩, expectedCount := 1 }

/-- A call site of the sample. -/
def sampleSite : Row :=
  [("caller_id", .str "f"), ("callee_id", .str "g"), ("site_id", .str "s")]

def sampleSiteOperation : GraphWriteOperation :=
  { label := "calls:site", phase := .calls, reconciliation := "call_site",
    label_named := by decide, version_pos := by decide }

theorem sampleSite_replays :
    compilePersistedMutation sampleReplayPython sampleReplaySchema sampleSiteOperation
      [sampleSite] = .ok (callSiteUpsert "CALLS", [sampleSite]) := rfl

theorem sampleSite_agrees : ∀ row ∈ [sampleSite],
    Agreed sampleReplayPython sampleSiteOperation row := by
  rw [List.forall_mem_singleton]
  unfold Agreed
  rw [if_neg (by decide), if_neg (by decide), if_pos (by decide)]
  have hsite : find? sampleSite "site_id" = some (.str "s") := rfl
  rw [hsite]
  simp

theorem manifest_agrees_iff_sample :
    ∃ producer candidates,
      manifestCandidates sampleReplayPython sampleReplayMetadata
        { sampleReplaySpec with operation := sampleSiteOperation.toDict }
        ([sampleSite].map .obj) "job" = some (producer, candidates) ∧
      ∀ c ∈ candidates, c.disposition ≠ .rejected :=
  (manifest_agrees_iff _ _ sampleSite_replays (by decide) sampleReplayMetadata sampleReplaySpec
    "job").mpr sampleSite_agrees

/-- What the query of the sample declares. -/
def sampleMatchOperation : GraphWriteOperation :=
  { label := "functions:rank", phase := .nodes, reconciliation := "node_identity",
    nodeLabel := some "Function", identityProperty := some "id", mutationKind := .match_,
    queryFingerprint := some "659c73ace7c8831d", label_named := by decide,
    version_pos := by decide }

/-- A row that updates a function. -/
def sampleRank : Row := [("id", .str "f"), ("rank", .int 1)]

theorem sampleMatchQuery_groups :
    (safeNodeQueryPattern asciiRegex).fullmatch sampleMatchQuery =
      some ⟨"MATCH", "Function", "id", "id", none⟩ := by
  decide +kernel

theorem sampleMatchQuery_declares :
    operationForCustomQuery sampleReplayPython asciiRegex "functions:rank" sampleMatchQuery =
      .ok sampleMatchOperation := by
  have hverb : sampleReplayPython.casefold "MATCH" = "match" := by decide +kernel
  have hfingerprint : fingerprintOf sampleReplayPython sampleMatchQuery = "659c73ace7c8831d" := by
    decide +kernel
  unfold operationForCustomQuery
  rw [dif_pos (by decide), sampleMatchQuery_groups]
  simp only [hverb, hfingerprint]
  rfl

/-- **A query that matches its node replays, and its batch is rejected.** -/
theorem manifest_rejects_update :
    operationForCustomQuery sampleReplayPython asciiRegex "functions:rank" sampleMatchQuery =
      .ok sampleMatchOperation ∧
    compilePersistedMutation sampleReplayPython sampleReplaySchema sampleMatchOperation
      [sampleRank] =
      .ok ("UNWIND $rows AS row MATCH (n:Function \x7bid: row.id\x7d) SET n += row" ++
        ", n.updated_at = datetime() RETURN count(n) AS count", [sampleRank]) ∧
    (∀ key ∈ identityFields sampleReplayPython sampleMatchOperation sampleRank,
      isScalar (find? sampleRank key) = true) ∧
    ∃ producer candidate,
      manifestCandidates sampleReplayPython sampleReplayMetadata
        { sampleReplaySpec with operation := sampleMatchOperation.toDict }
        ([sampleRank].map .obj) "job" = some (producer, [candidate]) ∧
      candidate.disposition = .rejected := by
  refine ⟨sampleMatchQuery_declares, rfl, by decide, _, _, rfl, ?_⟩
  decide +kernel

end CortexHarness.Journal
