import CortexHarness.Journal.QueryContract
import CortexHarness.Library.Cypher

/-!
# The audit of edge endpoints

Model of `compile_endpoint_audit` (`reconcile.py:18-73`) with the two audit queries of
`query_contract.py`: a query that counts the nodes each row's endpoints match, and returns the rows
whose counts are not one.

Results:
* `records_ne_nil_iff`: the query yields a record exactly when a row of its parameters, counted as
  often as it is there, does not match one source or does not match one target;
* `endpoint_audit_iff`: so its verdict is right exactly when no two rows of the batch are equal, or
  some endpoint is not unique anyway. Typed relationships are numbered, the other kinds are not.
-/

namespace CortexHarness.Journal

open CortexHarness.Json CortexHarness.Cypher Fallible

variable (py : Python) (schema : GraphSchemaManifest)

/-! ## The query -/

/-- A label with the property that identifies its nodes, and the field of a row it is read from. -/
structure AuditEndpoint where
  label : String
  property : String
  field : String

/-- The pattern of an endpoint. -/
def AuditEndpoint.pattern (e : AuditEndpoint) : NodePattern :=
  ⟨e.label, [(e.property, e.field), ("project_id_normalized", "project_id_normalized")]⟩

/-- `:Label \x7bproperty: row.field, …\x7d` -/
def AuditEndpoint.text (e : AuditEndpoint) : String :=
  ":" ++ e.label ++ " \x7b" ++
    ", ".intercalate (e.pattern.properties.map fun p => p.1 ++ ": row." ++ p.2) ++ "\x7d"

/-- A query that audits the endpoints of one edge shape. -/
structure AuditQuery where
  source : AuditEndpoint
  target : AuditEndpoint
  /-- the project of a row is returned with it -/
  withProject : Bool

namespace AuditQuery

/-- The text of the query. -/
def text (q : AuditQuery) : String :=
  "UNWIND $rows AS row OPTIONAL MATCH (a" ++ q.source.text ++
    ") WITH row, count(a) AS source_matches OPTIONAL MATCH (b" ++ q.target.text ++
    ") WITH row, source_matches, count(b) AS target_matches " ++
    "WHERE source_matches <> 1 OR target_matches <> 1 RETURN row." ++ q.source.field ++
    " AS source_id, row." ++ q.target.field ++ " AS target_id, " ++
    (if q.withProject then "row.project_id_normalized AS project_id_normalized, " else "") ++
    "source_matches, target_matches LIMIT 20"

variable (q : AuditQuery) (c : Comparison) (graph : List Node)

/-- The nodes that match the source of a row. -/
def sources (row : Row) : List Node := q.source.pattern.hits c graph row

/-- The nodes that match the target of a row. -/
def targets (row : Row) : List Node := q.target.pattern.hits c graph row

/-- One record of the query. -/
def record (row : Row) (sourceMatches targetMatches : Nat) : Row :=
  [("source_id", Json.field row q.source.field), ("target_id", Json.field row q.target.field)] ++
    (if q.withProject then [("project_id_normalized", Json.field row "project_id_normalized")] else []) ++
    [("source_matches", .int sourceMatches), ("target_matches", .int targetMatches)]

/-- What the query returns for the rows. -/
def records (rows : List Row) : List Row :=
  (((countTwice c.sameRow (q.sources c graph) (q.targets c graph) rows).filter fun g =>
    g.1.2 != 1 || g.2 != 1).take 20).map fun g => q.record g.1.1 g.1.2 g.2

/-- An endpoint of the row is missing or not unique. -/
def Bad (row : Row) : Prop := (q.sources c graph row).length ≠ 1 ∨ (q.targets c graph row).length ≠ 1

end AuditQuery

/-! ## The compiler -/

/-- The query and the rows of `compile_endpoint_audit`. -/
def endpointAudit (operation : GraphWriteOperation) (rows : List Row) :
    Except CompileError (Option (AuditQuery × List Row)) :=
  if operation.reconciliation = "typed_relationship" then do
    match ← groupTypedRelations py schema rows .null with
    | [(group, grouped)] =>
      return some (⟨⟨group.sourceLabel, "id", "source_id"⟩, ⟨group.targetLabel, "id", "target_id"⟩,
        true⟩, grouped)
    | _ => .error (.value "one endpoint audit batch must contain one edge shape")
  else if operation.reconciliation = "repository_file" then
    .ok (some (⟨⟨"Repository", "name", "repo"⟩, ⟨"File", "id", "id"⟩, false⟩, rows))
  else if operation.reconciliation = "call_edge" ∨ operation.reconciliation = "call_site" ∨
      operation.reconciliation = "possible_call_site" then
    .ok (some (⟨⟨"Function", "id", "caller_id"⟩, ⟨"Function", "id", "callee_id"⟩, false⟩, rows))
  else if operation.reconciliation = "evidence_edge" then do
    match ← groupEvidenceEdges py schema rows with
    | [(group, grouped)] =>
      return some (⟨⟨group.sourceLabel, group.sourceProperty, "source_id"⟩,
        ⟨group.targetLabel, group.targetProperty, "target_id"⟩, true⟩, grouped)
    | _ => .error (.value "one evidence audit batch must contain one edge shape")
  else if operation.phase = .relationships ∨ operation.phase = .calls then
    .error (.value ("operation " ++ operation.operationKey ++ " has no endpoint audit contract"))
  else .ok none

/-- `compile_endpoint_audit`. -/
def compileEndpointAudit (operation : GraphWriteOperation) (rows : List Row) :
    Except CompileError (Option (String × List Row)) :=
  (endpointAudit py schema operation rows).map (Option.map fun a => (a.1.text, a.2))

/-- A row of the batch as the query receives it. -/
def auditRow (operation : GraphWriteOperation) (row : Row) (position : Nat) : Row :=
  if operation.reconciliation = "typed_relationship" then scopedRelation py .null row position
  else if operation.reconciliation = "evidence_edge" then scopedEdge py row
  else row

/-- The rows of the batch as the query receives them. -/
def auditRows (operation : GraphWriteOperation) (rows : List Row) : List Row :=
  rows.zipIdx.map fun r => auditRow py operation r.1 r.2

variable {py schema} {operation : GraphWriteOperation} {rows params : List Row} {q : AuditQuery}
  {c : Comparison} {graph : List Node}

theorem groupRows_rows {κ : Type} [DecidableEq κ]
    {check : Row → Nat → Except CompileError (κ × Row)} {g : κ} {grouped : List Row}
    {f : Row → Nat → Row}
    (hcheck : ∀ row position row', check row position = .ok (g, row') → row' = f row position)
    (h : groupRows check rows = .ok [(g, grouped)]) :
    grouped = rows.zipIdx.map fun r => f r.1 r.2 := by
  have hrows := (groupRows_single h).2.imp fun r row hr => hcheck r.1 r.2 row hr
  refine List.ext_getElem (by simp [← hrows.length_eq]) fun i hi hi' => ?_
  rw [List.getElem_map]
  exact hrows.get (by rw [hrows.length_eq]; exact hi) hi

/-- **The query receives every row of the batch.** -/
theorem endpointAudit_rows (h : endpointAudit py schema operation rows = .ok (some (q, params))) :
    params = auditRows py operation rows := by
  have hplain (htyped : operation.reconciliation ≠ "typed_relationship")
      (hevidence : operation.reconciliation ≠ "evidence_edge") :
      auditRows py operation rows = rows := by
    unfold auditRows auditRow
    simp [htyped, hevidence]
  unfold endpointAudit at h
  split_ifs at h with htyped hfile hcall hevidence hphase
  · obtain ⟨groups, hgroups, h⟩ := bind_ok.mp h
    split at h
    · cases h
      have hrows : auditRows py operation rows =
          rows.zipIdx.map fun r => scopedRelation py .null r.1 r.2 := by
        simp [auditRows, auditRow, htyped]
      rw [hrows]
      exact groupRows_rows (fun _ _ _ hrow => (typedRow_ok py schema hrow).2) hgroups
    · cases h
  · cases h
    rw [hplain htyped (by rw [hfile]; decide)]
  · cases h
    rw [hplain htyped]
    rcases hcall with hk | hk | hk <;> rw [hk] <;> decide
  · obtain ⟨groups, hgroups, h⟩ := bind_ok.mp h
    split at h
    · cases h
      have hrows : auditRows py operation rows = rows.zipIdx.map fun r => scopedEdge py r.1 := by
        simp [auditRows, auditRow, hevidence]
      rw [hrows]
      exact @groupRows_rows rows _ _ _ _ _ (fun row _ => scopedEdge py row)
        (fun _ _ _ hrow => (evidenceRow_ok py schema hrow).2) hgroups
    · cases h
  · cases h

/-! ## The verdict -/

/-- **When the query yields a record**: its source count is that of all equal rows. -/
theorem records_ne_nil_iff :
    q.records c graph params ≠ [] ↔
      ∃ row ∈ params, params.countP (c.sameRow row) * (q.sources c graph row).length ≠ 1 ∨
        (q.targets c graph row).length ≠ 1 := by
  have hcount := @exists_countTwice Row Node c.sameRow c.grouping (q.sources c graph)
    (q.targets c graph) params (fun r r' h => q.source.pattern.hits_congr h)
    (fun r r' h => q.target.pattern.hits_congr h) fun n m => n ≠ 1 ∨ m ≠ 1
  rw [← hcount]
  unfold AuditQuery.records
  rw [ne_eq, List.map_eq_nil_iff, List.take_eq_nil_iff, List.filter_eq_nil_iff]
  simp [imp_iff_not_or]

/-- A record is due: some row of the batch does not match one source and one target. -/
def Due (py : Python) (c : Comparison) (graph : List Node) (q : AuditQuery)
    (operation : GraphWriteOperation) (rows : List Row) : Prop :=
  ∃ row ∈ auditRows py operation rows, q.Bad c graph row

/-- No two rows of the batch reach the query as equal maps. -/
def Distinct (py : Python) (c : Comparison) (operation : GraphWriteOperation) (rows : List Row) :
    Prop :=
  (auditRows py operation rows).Pairwise fun r r' => c.sameRow r r' = false

theorem distinct_typed (h : operation.reconciliation = "typed_relationship") :
    Distinct py c operation rows := by
  unfold Distinct auditRows
  rw [List.pairwise_map]
  refine (List.pairwise_iff_getElem.mpr fun i j hi hj hij => ?_)
  rw [List.getElem_zipIdx, List.getElem_zipIdx]
  by_contra hne
  rw [Bool.not_eq_false] at hne
  have hposition := c.same_field hne "_contract_row_position"
  simp only [auditRow, if_pos h, scopedRelation, field_put, if_true] at hposition
  have hij' := c.int hposition
  omega

/-- **The audit's verdict is right exactly when no two rows reach the query as equal maps**, or some
endpoint is missing or ambiguous anyway. -/
theorem endpoint_audit_iff (h : endpointAudit py schema operation rows = .ok (some (q, params)))
    (c : Comparison) (graph : List Node) :
    (q.records c graph params ≠ [] ↔ Due py c graph q operation rows) ↔
      operation.reconciliation = "typed_relationship" ∨ Distinct py c operation rows ∨
        Due py c graph q operation rows := by
  obtain rfl := endpointAudit_rows h
  have htyped : operation.reconciliation = "typed_relationship" ∨ Distinct py c operation rows ∨
      Due py c graph q operation rows ↔
        Distinct py c operation rows ∨ Due py c graph q operation rows :=
    or_iff_right_of_imp fun hk => .inl (distinct_typed hk)
  rw [htyped, records_ne_nil_iff]
  unfold Due AuditQuery.Bad
  have hself (row : Row) (hrow : row ∈ auditRows py operation rows) :
      0 < (auditRows py operation rows).countP (c.sameRow row) :=
    List.countP_pos_iff.mpr ⟨row, hrow, c.sameRow_refl row⟩
  constructor
  · intro hiff
    by_contra hnot
    rw [not_or] at hnot
    obtain ⟨hsame, hbad⟩ := hnot
    -- Two equal rows whose endpoints are all there, once.
    rw [Distinct, pairwise_iff_countP c.grouping] at hsame
    push Not at hsame hbad
    obtain ⟨row, hrow, hcount⟩ := hsame
    have hrecord := hiff.mp ⟨row, hrow, .inl (by rw [(hbad row hrow).1, Nat.mul_one]; exact hcount)⟩
    obtain ⟨row', hrow', hbad'⟩ := hrecord
    exact hbad'.elim (fun h => h (hbad row' hrow').1) fun h => h (hbad row' hrow').2
  · intro hor
    constructor
    · rintro ⟨row, hrow, hcount⟩
      rcases hor with hdistinct | hbad
      · rw [Distinct, pairwise_iff_countP c.grouping] at hdistinct
        rw [hdistinct row hrow, Nat.one_mul] at hcount
        exact ⟨row, hrow, hcount⟩
      · exact hbad
    · rintro ⟨row, hrow, hbad⟩
      refine ⟨row, hrow, hbad.imp (fun hsource hone => ?_) id⟩
      exact hsource (Nat.eq_one_of_mul_eq_one_left hone)

/-! ## A false alarm -/

/-- What tells two values of the sample apart; `null` is nothing. -/
def valueKey : Json → Option (Option Int × String)
  | .null => none
  | .int n => some (some n, "")
  | .str s => some (none, "s" ++ s)
  | v => some (none, "v" ++ v.dumps)

/-- Values are equal when they look the same, and `null` equals nothing. -/
def sampleComparison : Comparison where
  same v w := valueKey v == valueKey w
  equals v w := valueKey v == valueKey w && (valueKey w).isSome
  refl v := beq_self_eq_true _
  symm h := beq_iff_eq.mpr (beq_iff_eq.mp h).symm
  trans h h' := beq_iff_eq.mpr ((beq_iff_eq.mp h).trans (beq_iff_eq.mp h'))
  congr u h := by rw [beq_iff_eq.mp h]
  int h := by simpa [valueKey] using h

def sampleCallOperation : GraphWriteOperation :=
  { label := "calls", phase := .calls, reconciliation := "call_edge", label_named := by decide,
    version_pos := GraphWriteOperation.first_version }

/-- A function that calls itself. -/
def sampleRecursion : Row :=
  [("caller_id", .str "f"), ("callee_id", .str "f"), ("project_id_normalized", .str "demo")]

def sampleFunctions : List Node :=
  [⟨["Function"], [("id", .str "f"), ("project_id_normalized", .str "demo")]⟩]

def sampleAuditPython : Python :=
  { sha256Hex := id, reprContainer := fun _ => "", casefold := id, parseInt := fun _ => .error "" }

def sampleAuditSchema : GraphSchemaManifest :=
  { name := "code_graph", fingerprint := "", indexes := [], repr := id }

def sampleAuditQuery : AuditQuery :=
  ⟨⟨"Function", "id", "caller_id"⟩, ⟨"Function", "id", "callee_id"⟩, false⟩

theorem endpointAudit_sample (rows : List Row) :
    endpointAudit sampleAuditPython sampleAuditSchema sampleCallOperation rows =
      .ok (some (sampleAuditQuery, rows)) := rfl

theorem endpoint_audit_iff_sample :
    (sampleAuditQuery.records sampleComparison sampleFunctions [sampleRecursion] ≠ [] ↔
      Due sampleAuditPython sampleComparison sampleFunctions sampleAuditQuery sampleCallOperation
        [sampleRecursion]) :=
  (endpoint_audit_iff (endpointAudit_sample [sampleRecursion]) sampleComparison
    sampleFunctions).mpr (.inr (.inl (List.pairwise_singleton _ _)))

/-- **A call that is submitted twice stops the edge phase**, though both its endpoints are unique. -/
theorem endpoint_audit_false_alarm :
    endpointAudit sampleAuditPython sampleAuditSchema sampleCallOperation
        [sampleRecursion, sampleRecursion] =
      .ok (some (sampleAuditQuery, [sampleRecursion, sampleRecursion])) ∧
    sampleAuditQuery.records sampleComparison sampleFunctions
      [sampleRecursion, sampleRecursion] ≠ [] ∧
    ¬Due sampleAuditPython sampleComparison sampleFunctions sampleAuditQuery sampleCallOperation
      [sampleRecursion, sampleRecursion] := by
  refine ⟨rfl, ?_, ?_⟩
  · intro h
    have hlength := congrArg List.length h
    revert hlength
    decide +kernel
  · unfold Due AuditQuery.Bad
    decide +kernel

end CortexHarness.Journal
