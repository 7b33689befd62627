import CortexHarness.Library.Latest
import CortexHarness.Library.Text
import CortexHarness.Proc.Regions
import CortexHarness.Proc.Statements

/-!
# The payload of a Pro*C file

Model of `analyze_proc_file` (`proc_analyzer.py:440-681`) with `_make_id`, `_make_statement_id`,
`_enclosing_function` and `_relation` (`:779-829`): every region of the file emits nodes and
relations, and a second pass adds the relations of `SELECT` statements to declared cursors.

Results:
* `makeId_injective`: the id of a node tells its region and its name;
* `emitted_closed`, `selected_closed`: what the passes emit refers to nodes of the payload;
* **`payload_closed_iff`**: the payload is closed exactly when no `OPEN`, `CLOSE` or `FETCH` names
  a cursor.

Model notes: whether the SQL parser of another module loads is a parameter, with its error. Nodes
are records: a field that a node lacks is `none`.
-/

namespace CortexHarness.Proc

open Table Json

/-- The labels of nodes and endpoints. -/
inductive ProcLabel where
  | sqlStatement | sqlDirective | sqlCursor | sqlHostVariable | databaseTable | function
  deriving Repr, DecidableEq

/-- The text of a label. -/
def ProcLabel.text : ProcLabel → String
  | .sqlStatement => "SqlStatement"
  | .sqlDirective => "SqlDirective"
  | .sqlCursor => "SqlCursor"
  | .sqlHostVariable => "SqlHostVariable"
  | .databaseTable => "DatabaseTable"
  | .function => "Function"

/-- The types of relations. -/
inductive ProcRelType where
  | declaresStatement | declaresDirective | bindsParameter | declaresCursor | referencesCursor
  | readsFrom | writesTo | referencesTable
  deriving Repr, DecidableEq

/-- A node of the payload. -/
structure ProcNode where
  label : ProcLabel
  id : String
  name : String
  filePath : String
  startLine : Nat
  endLine : Option Nat := none
  operation : Option String := none
  operationUpper : Option String := none
  isDynamic : Option Bool := none
  rawText : Option String := none
  deriving Repr, DecidableEq

/-- A relation of the payload. -/
structure ProcRelation where
  relType : ProcRelType
  sourceId : String
  targetId : String
  sourceLabel : ProcLabel
  targetLabel : ProcLabel
  filePath : String
  projectId : String
  deriving Repr, DecidableEq

/-- The payload of `analyze_proc_file`. -/
structure ProcPayload where
  nodes : List ProcNode
  relations : List ProcRelation
  diagnostics : List ProcDiagnostic
  encoding : String
  deriving Repr, DecidableEq

/-- `_make_id` -/
def makeId (filePath : String) (startByte : Nat) (label : ProcLabel) (name : String) : String :=
  label.text ++ "::" ++ filePath ++ "::" ++ toString startByte ++ "::" ++ name

/-- `_make_statement_id` -/
def makeStatementId (filePath : String) (startByte : Nat) (operation : String) : String :=
  makeId filePath startByte .sqlStatement operation

/-- The lines of a function, unless one of them is no number. -/
def functionLines (py : Python) (fn : Row) : Except String (Int × Int) := do
  let first ← py.int ((find? fn "start_line").getD (.int 0))
  let last ← py.int ((find? fn "end_line").getD (.int 0))
  pure (first, last)

/-- `_enclosing_function` -/
def enclosingFunction (py : Python) (functions : List Row) (startLine : Nat) : String :=
  (functions.foldl (fun (best : String × Int) fn =>
    match functionLines py fn with
    | .error _ => best
    | .ok (first, last) =>
      if first ≤ startLine ∧ startLine ≤ last ∧ best.2 ≤ last then
        (py.str (either (either (field fn "symbol_id") (field fn "id")) (.str "<file>")), last)
      else best) ("<file>", -1)).1

/-- `_READ_OPERATIONS` -/
def readOperations : List String := ["SELECT", "WITH", "FETCH", "OPEN"]

/-- `_WRITE_OPERATIONS` -/
def writeOperations : List String := ["INSERT", "UPDATE", "DELETE", "MERGE"]

/-- The arguments of `analyze_proc_file`, with what it takes from Python. -/
structure ProcInput where
  cd : Codecs
  upper : Char → List Char
  py : Python
  filePath : String
  projectId : String
  functions : List Row

variable (x : ProcInput)

/-- `_relation` -/
def ProcInput.relation (relType : ProcRelType) (sourceId targetId : String)
    (sourceLabel targetLabel : ProcLabel) : ProcRelation :=
  { relType, sourceId, targetId, sourceLabel, targetLabel, filePath := x.filePath
    projectId := x.projectId }

/-- `op` -/
def ProcInput.op (r : ProcRegion) : String := operationUpper x.upper r.rawText

/-- The cursor that a region names, where it names one. -/
def ProcInput.cursorName (r : ProcRegion) : Option String := extractCursorName x.upper r.rawText

/-- The nodes and relations of one region. -/
structure Emitted where
  nodes : List ProcNode := []
  relations : List ProcRelation := []

/-- `DECLARE` of a cursor. -/
def ProcInput.declaresCursor (r : ProcRegion) : Bool :=
  x.op r = "DECLARE" && namesCursor x.upper r.rawText

/-- Section 1 of the loop, for `DECLARE`. -/
def ProcInput.emitCursor (r : ProcRegion) : Emitted :=
  match x.cursorName r with
  | none => {}
  | some name =>
    let id := makeId x.filePath r.startByte .sqlCursor name
    { nodes := [{ label := .sqlCursor, id, name, filePath := x.filePath, startLine := r.startLine
                  endLine := some r.endLine, operation := some (x.op r)
                  rawText := some (String.ofList r.rawText) }]
      relations := [x.relation .declaresCursor (enclosingFunction x.py x.functions r.startLine) id
        .function .sqlCursor] }

/-- `OPEN`, `CLOSE` or `FETCH` of a cursor. -/
def ProcInput.usesCursor (r : ProcRegion) : Bool :=
  x.op r ∈ ["OPEN", "CLOSE", "FETCH"] && namesCursor x.upper r.rawText

/-- Section 1 of the loop, for `OPEN`, `CLOSE` and `FETCH`. -/
def ProcInput.cursorReference (r : ProcRegion) : List ProcRelation :=
  if x.usesCursor r then
    match x.cursorName r with
    | none => []
    | some name => [x.relation .referencesCursor (makeStatementId x.filePath r.startByte (x.op r))
        (makeId x.filePath r.startByte .sqlCursor name) .sqlStatement .sqlCursor]
  else []

/-- Section 2 of the loop: `WHENEVER` and `INCLUDE`. -/
def ProcInput.emitDirective (r : ProcRegion) : Emitted :=
  let id := makeId x.filePath r.startByte .sqlDirective (x.op r)
  { nodes := [{ label := .sqlDirective, id, name := x.op r, filePath := x.filePath
                startLine := r.startLine, endLine := some r.endLine, operation := some (x.op r)
                rawText := some (String.ofList r.rawText) }]
    relations := [x.relation .declaresDirective (enclosingFunction x.py x.functions r.startLine) id
      .function .sqlDirective] }

/-- `op or "UNKNOWN"` -/
def ProcInput.opOrUnknown (r : ProcRegion) : String := if x.op r = "" then "UNKNOWN" else x.op r

/-- `statement_id` -/
def ProcInput.statementId (r : ProcRegion) : String :=
  makeStatementId x.filePath r.startByte (x.opOrUnknown r)

/-- A host variable of a statement. -/
def ProcInput.emitHost (r : ProcRegion) (host : String) : Emitted :=
  let id := makeId x.filePath r.startByte .sqlHostVariable host
  { nodes := [{ label := .sqlHostVariable, id, name := host, filePath := x.filePath
                startLine := r.startLine, operation := some (x.op r), rawText := some host }]
    relations := [x.relation .bindsParameter (x.statementId r) id .sqlStatement .sqlHostVariable] }

/-- A table of a statement. -/
def ProcInput.emitTable (r : ProcRegion) (table : String) : Emitted :=
  let id := makeId x.filePath r.startByte .databaseTable table
  let relType : ProcRelType :=
    if x.op r ∈ readOperations then .readsFrom
    else if x.op r ∈ writeOperations then .writesTo
    else .referencesTable
  { nodes := [{ label := .databaseTable, id, name := table, filePath := x.filePath
                startLine := r.startLine }]
    relations := [x.relation relType (x.statementId r) id .sqlStatement .databaseTable] }

/-- Section 3 of the loop: the statement itself. -/
def ProcInput.statementNode (r : ProcRegion) : ProcNode :=
  { label := .sqlStatement, id := x.statementId r, name := x.opOrUnknown r
    operation := some (x.op r), operationUpper := some (x.op r), filePath := x.filePath
    startLine := r.startLine, endLine := some r.endLine, isDynamic := some (isDynamic r.rawText)
    rawText := some (String.ofList r.rawText) }

/-- Section 3 of the loop: a statement with its host variables and tables. -/
def ProcInput.emitStatement (r : ProcRegion) : Emitted :=
  let parts := (hostVariables r.rawText).map (x.emitHost r) ++
    (targetsOf x.cd x.upper r.rawText).map (x.emitTable r)
  { nodes := x.statementNode r :: parts.flatMap Emitted.nodes
    relations := x.relation .declaresStatement (enclosingFunction x.py x.functions r.startLine)
      (x.statementId r) .function .sqlStatement :: parts.flatMap Emitted.relations }

/-- One round of the loop over the regions. -/
def ProcInput.emit (r : ProcRegion) : Emitted :=
  if x.declaresCursor r then x.emitCursor r
  else
    let emitted := if x.op r ∈ ["WHENEVER", "INCLUDE"] then x.emitDirective r
      else x.emitStatement r
    { emitted with relations := x.cursorReference r ++ emitted.relations }

/-- What one round of the loop does to `cursor_state`. -/
def ProcInput.noteCursor (state : List (String × Nat)) (r : ProcRegion) : List (String × Nat) :=
  if x.declaresCursor r then
    match x.cursorName r with
    | some name => assign Prod.fst (name, r.startByte) state
    | none => state
  else state

/-- `cursor_state` after the loop: where each cursor was declared last. -/
def ProcInput.cursorState (regions : List ProcRegion) : List (String × Nat) :=
  regions.foldl x.noteCursor []

/-- One round of the second loop. -/
def ProcInput.select (state : List (String × Nat)) (r : ProcRegion) : List ProcRelation :=
  if x.op r = "SELECT" then
    match (x.cursorName r).bind fun name => lookup Prod.fst name state with
    | some (name, declaredAt) =>
      [x.relation .referencesCursor (makeStatementId x.filePath r.startByte (x.op r))
        (makeId x.filePath declaredAt .sqlCursor name) .sqlStatement .sqlCursor]
    | none => []
  else []

/-- `analyze_proc_file`, of the bytes of the file. -/
def analyzeProcFile (sqlError : Option String) (raw : List UInt8) : ProcPayload :=
  let prepared := prepareProcBytes x.cd raw
  { nodes := prepared.regions.flatMap fun r => (x.emit r).nodes
    relations := (prepared.regions.flatMap fun r => (x.emit r).relations) ++
      prepared.regions.flatMap (x.select (x.cursorState prepared.regions))
    diagnostics := prepared.diagnostics ++ (sqlError.toList.map fun message =>
      { code := "sql_parser_unavailable", message, startLine := 0 })
    encoding := prepared.encoding }

/-! ## Ids -/

/-- **The id of a node** tells its region and its name. -/
theorem makeId_injective {filePath : String} {label : ProcLabel} {start start' : Nat}
    {name name' : String}
    (h : makeId filePath start label name = makeId filePath start' label name') :
    start = start' ∧ name = name' := by
  have hchars := congrArg String.toList h
  unfold makeId at hchars
  simp only [String.toList_append, List.append_assoc, List.append_cancel_left_eq] at hchars
  have htake : ∀ (n : Nat) (rest : List Char),
      ((toString n).toList ++ ("::".toList ++ rest)).takeWhile Char.isDigit = (toString n).toList := by
    intro n rest
    rw [List.takeWhile_append_of_pos fun c hc => isDigit_toString hc]
    exact List.append_nil _
  have hnumber := congrArg (List.takeWhile Char.isDigit) hchars
  rw [htake, htake] at hnumber
  rw [hnumber] at hchars
  have hname := List.append_cancel_left (List.append_cancel_left hchars)
  exact ⟨toString_injective hnumber, String.toList_inj.mp hname⟩

/-! ## Closed payloads -/

/-- The id belongs to one of the nodes, unless it is of a function. -/
def HasNode (nodes : List ProcNode) (label : ProcLabel) (id : String) : Prop :=
  label ≠ .function → ∃ n ∈ nodes, n.label = label ∧ n.id = id

/-- The endpoints of the relation are among the nodes. -/
structure Attached (nodes : List ProcNode) (rel : ProcRelation) : Prop where
  source : HasNode nodes rel.sourceLabel rel.sourceId
  target : HasNode nodes rel.targetLabel rel.targetId

/-- Every endpoint of the payload that is no function is a node of it. -/
def ProcPayload.Closed (p : ProcPayload) : Prop := ∀ rel ∈ p.relations, Attached p.nodes rel

variable {x} {nodes nodes' : List ProcNode} {r r' : ProcRegion}

theorem HasNode.mono {label : ProcLabel} {id : String} (h : HasNode nodes label id)
    (hsub : nodes ⊆ nodes') : HasNode nodes' label id :=
  fun hne => (h hne).imp fun _ hn => ⟨hsub hn.1, hn.2⟩

theorem Attached.mono {rel : ProcRelation} (h : Attached nodes rel) (hsub : nodes ⊆ nodes') :
    Attached nodes' rel := ⟨h.source.mono hsub, h.target.mono hsub⟩

theorem hasNode_function (nodes : List ProcNode) (id : String) : HasNode nodes .function id :=
  fun hne => absurd rfl hne

theorem hasNode_mem {n : ProcNode} (h : n ∈ nodes) : HasNode nodes n.label n.id :=
  fun _ => ⟨n, h, rfl, rfl⟩

theorem emitCursor_attached {rel : ProcRelation} (h : rel ∈ (x.emitCursor r).relations) :
    Attached (x.emitCursor r).nodes rel := by
  unfold ProcInput.emitCursor at h ⊢
  cases hname : x.cursorName r with
  | none =>
    rw [hname] at h
    cases h
  | some name =>
    rw [hname] at h
    obtain rfl := List.mem_singleton.mp h
    exact ⟨hasNode_function _ _, hasNode_mem (List.mem_singleton_self _)⟩

theorem emitDirective_attached {rel : ProcRelation} (h : rel ∈ (x.emitDirective r).relations) :
    Attached (x.emitDirective r).nodes rel := by
  obtain rfl := List.mem_singleton.mp h
  exact ⟨hasNode_function _ _, hasNode_mem (List.mem_singleton_self _)⟩

theorem emitStatement_attached {rel : ProcRelation} (h : rel ∈ (x.emitStatement r).relations) :
    Attached (x.emitStatement r).nodes rel := by
  have hstatement : HasNode (x.emitStatement r).nodes .sqlStatement (x.statementId r) :=
    hasNode_mem (n := x.statementNode r) List.mem_cons_self
  rcases List.mem_cons.mp h with rfl | h
  · exact ⟨hasNode_function _ _, hstatement⟩
  · obtain ⟨part, hpart, hrel⟩ := List.mem_flatMap.mp h
    have hnodes : part.nodes ⊆ (x.emitStatement r).nodes := fun n hn =>
      List.mem_cons_of_mem _ (List.mem_flatMap.mpr ⟨part, hpart, hn⟩)
    rcases List.mem_append.mp hpart with hpart | hpart
    · obtain ⟨host, -, rfl⟩ := List.mem_map.mp hpart
      obtain rfl := List.mem_singleton.mp hrel
      exact ⟨hstatement, (hasNode_mem (List.mem_singleton_self _)).mono hnodes⟩
    · obtain ⟨table, -, rfl⟩ := List.mem_map.mp hpart
      obtain rfl := List.mem_singleton.mp hrel
      exact ⟨hstatement, (hasNode_mem (List.mem_singleton_self _)).mono hnodes⟩

/-- The region opens, closes or fetches from a cursor that it names. -/
def ProcInput.Dangles (x : ProcInput) (r : ProcRegion) : Prop :=
  x.usesCursor r = true ∧ x.cursorName r ≠ none

theorem declares_of_uses (h : x.usesCursor r = true) : ¬ x.declaresCursor r = true := by
  intro hdeclares
  unfold ProcInput.usesCursor at h
  unfold ProcInput.declaresCursor at hdeclares
  simp only [Bool.and_eq_true, decide_eq_true_iff] at h hdeclares
  rw [hdeclares.1] at h
  exact absurd h.1 (by decide)

theorem cursorReference_nil (h : ¬ x.Dangles r) : x.cursorReference r = [] := by
  unfold ProcInput.cursorReference
  by_cases huses : x.usesCursor r = true
  · have hname : x.cursorName r = none := by
      by_contra hne
      exact h ⟨huses, hne⟩
    rw [if_pos huses, hname]
  · rw [if_neg huses]

/-- **What a region emits** refers to its own nodes, unless it names a cursor that it uses. -/
theorem emitted_closed (h : ¬ x.Dangles r) {rel : ProcRelation} (hrel : rel ∈ (x.emit r).relations) :
    Attached (x.emit r).nodes rel := by
  unfold ProcInput.emit at hrel ⊢
  by_cases hdeclares : x.declaresCursor r = true
  · rw [if_pos hdeclares] at hrel ⊢
    exact emitCursor_attached hrel
  · rw [if_neg hdeclares] at hrel ⊢
    dsimp only at hrel ⊢
    rw [cursorReference_nil h, List.nil_append] at hrel
    split at hrel
    · next hop =>
      rw [if_pos hop]
      exact emitDirective_attached hrel
    · next hop =>
      rw [if_neg hop]
      exact emitStatement_attached hrel

/-! ## Cursors -/

theorem emit_cursor {name : String} (hdeclares : x.declaresCursor r = true)
    (hname : x.cursorName r = some name) : ∃ n ∈ (x.emit r).nodes, n.label = .sqlCursor ∧
      n.id = makeId x.filePath r.startByte .sqlCursor name := by
  unfold ProcInput.emit ProcInput.emitCursor
  rw [if_pos hdeclares, hname]
  exact ⟨_, List.mem_singleton_self _, rfl, rfl⟩

theorem cursor_emitted {n : ProcNode} (hn : n ∈ (x.emit r).nodes) (hlabel : n.label = .sqlCursor) :
    x.declaresCursor r = true ∧
      ∃ name, n.id = makeId x.filePath r.startByte .sqlCursor name := by
  unfold ProcInput.emit at hn
  by_cases hdeclares : x.declaresCursor r = true
  · rw [if_pos hdeclares] at hn
    unfold ProcInput.emitCursor at hn
    cases hname : x.cursorName r with
    | none =>
      rw [hname] at hn
      cases hn
    | some name =>
      rw [hname] at hn
      obtain rfl := List.mem_singleton.mp hn
      exact ⟨hdeclares, name, rfl⟩
  · exfalso
    rw [if_neg hdeclares] at hn
    dsimp only at hn
    split at hn
    · obtain rfl := List.mem_singleton.mp hn
      cases hlabel
    · rcases List.mem_cons.mp hn with rfl | hn
      · cases hlabel
      · obtain ⟨part, hpart, hn⟩ := List.mem_flatMap.mp hn
        rcases List.mem_append.mp hpart with hpart | hpart <;>
          (obtain ⟨_, -, rfl⟩ := List.mem_map.mp hpart
           obtain rfl := List.mem_singleton.mp hn
           cases hlabel)

theorem mem_noteCursor {state : List (String × Nat)} {name : String} {declaredAt : Nat}
    (h : (name, declaredAt) ∈ x.noteCursor state r) : (name, declaredAt) ∈ state ∨
      x.declaresCursor r = true ∧ x.cursorName r = some name ∧ r.startByte = declaredAt := by
  unfold ProcInput.noteCursor at h
  split at h
  · next hdeclares =>
    split at h
    · next name' hname =>
      rcases mem_assign h with heq | hmem
      · cases heq
        exact .inr ⟨hdeclares, hname, rfl⟩
      · exact .inl hmem
    · exact .inl h
  · exact .inl h

theorem mem_foldl_noteCursor {regions : List ProcRegion} {state : List (String × Nat)}
    {name : String} {declaredAt : Nat}
    (h : (name, declaredAt) ∈ regions.foldl x.noteCursor state) : (name, declaredAt) ∈ state ∨
      ∃ r ∈ regions, x.declaresCursor r = true ∧ x.cursorName r = some name ∧
        r.startByte = declaredAt := by
  induction regions generalizing state with
  | nil => exact .inl h
  | cons r regions ih =>
    rcases ih h with hmem | ⟨r', hr', hdeclared⟩
    · rcases mem_noteCursor hmem with hmem | hdeclared
      · exact .inl hmem
      · exact .inr ⟨r, List.mem_cons_self, hdeclared⟩
    · exact .inr ⟨r', List.mem_cons_of_mem _ hr', hdeclared⟩

theorem emit_select (hop : x.op r = "SELECT") : HasNode (x.emit r).nodes .sqlStatement
    (makeStatementId x.filePath r.startByte (x.op r)) := by
  have hdeclares : x.declaresCursor r = false := by
    unfold ProcInput.declaresCursor
    rw [hop]
    rfl
  have hid : x.statementId r = makeStatementId x.filePath r.startByte (x.op r) := by
    unfold ProcInput.statementId ProcInput.opOrUnknown
    rw [hop, if_neg (by decide)]
  have hdirective : x.op r ∉ ["WHENEVER", "INCLUDE"] := by
    rw [hop]
    decide
  unfold ProcInput.emit
  rw [if_neg (by rw [hdeclares]; decide)]
  dsimp only
  rw [if_neg hdirective, ← hid]
  exact hasNode_mem (n := x.statementNode r) List.mem_cons_self

/-- **What the second loop emits** refers to a statement of this region and to a declared cursor. -/
theorem selected_closed {regions : List ProcRegion} (hr : r ∈ regions) {rel : ProcRelation}
    (hrel : rel ∈ x.select (x.cursorState regions) r) :
    Attached (regions.flatMap fun r => (x.emit r).nodes) rel := by
  unfold ProcInput.select at hrel
  split at hrel
  · next hop =>
    split at hrel
    · next name declaredAt hfound =>
      obtain rfl := List.mem_singleton.mp hrel
      obtain ⟨name', hname', hlookup⟩ := Option.bind_eq_some_iff.mp hfound
      obtain ⟨r', hr', hdeclares, hname, hstart⟩ := (mem_foldl_noteCursor (lookup_mem hlookup)).resolve_left (fun hnil => by cases hnil)
      constructor
      · exact (emit_select hop).mono fun n hn => List.mem_flatMap.mpr ⟨r, hr, hn⟩
      · obtain ⟨n, hn, hlabel, hid⟩ := emit_cursor hdeclares hname
        rw [hstart] at hid
        exact fun _ => ⟨n, List.mem_flatMap.mpr ⟨r', hr', hn⟩, hlabel, hid⟩
    · cases hrel
  · cases hrel

theorem regions_apart {cd : Codecs} {raw : List UInt8}
    (hr : r ∈ (prepareProcBytes cd raw).regions) (hr' : r' ∈ (prepareProcBytes cd raw).regions)
    (hstart : r.startByte = r'.startByte) : r = r' := by
  have hsound := scanner_regions cd (decodeSource cd raw).1
  have hkeyed : Keyed ProcRegion.startByte (prepareProcBytes cd raw).regions := by
    refine List.pairwise_map.mpr (hsound.ordered.imp_of_mem fun {a b} ha _ hab => ?_)
    have hlt := hsound.increasing a ha
    omega
  exact eq_of_keyed hkeyed hr hr' hstart

/-- **The payload is closed** exactly when no region uses a cursor that it names. -/
theorem closed_iff (x : ProcInput) (sqlError : Option String) (raw : List UInt8) :
    (analyzeProcFile x sqlError raw).Closed ↔
      ∀ r ∈ (prepareProcBytes x.cd raw).regions, ¬ x.Dangles r := by
  constructor
  · rintro hclosed r hr ⟨huses, hname⟩
    obtain ⟨name, hname⟩ := Option.ne_none_iff_exists'.mp hname
    -- the reference has the bytes of this region, where no cursor is declared
    have hreference : x.relation .referencesCursor (makeStatementId x.filePath r.startByte (x.op r))
        (makeId x.filePath r.startByte .sqlCursor name) .sqlStatement .sqlCursor ∈
          (analyzeProcFile x sqlError raw).relations := by
      refine List.mem_append_left _ (List.mem_flatMap.mpr ⟨r, hr, ?_⟩)
      unfold ProcInput.emit
      rw [if_neg (declares_of_uses huses)]
      refine List.mem_append_left _ ?_
      unfold ProcInput.cursorReference
      rw [if_pos huses, hname]
      exact List.mem_singleton_self _
    obtain ⟨n, hn, hlabel, hid⟩ := (hclosed _ hreference).target (fun h => by cases h)
    obtain ⟨r', hr', hn⟩ := List.mem_flatMap.mp hn
    obtain ⟨hdeclares, name', hid'⟩ := cursor_emitted hn hlabel
    obtain ⟨hstart, -⟩ := makeId_injective (hid'.symm.trans hid)
    obtain rfl := regions_apart hr' hr hstart
    exact declares_of_uses huses hdeclares
  · intro hall rel hrel
    rcases List.mem_append.mp hrel with hrel | hrel
    · obtain ⟨r, hr, hrel⟩ := List.mem_flatMap.mp hrel
      refine (emitted_closed (hall r hr) hrel).mono fun n hn => ?_
      exact List.mem_flatMap.mpr ⟨r, hr, hn⟩
    · obtain ⟨r, hr, hrel⟩ := List.mem_flatMap.mp hrel
      exact selected_closed hr hrel

/-- **The payload of a file is closed** exactly when none of its `OPEN`, `CLOSE` and `FETCH`
statements names a cursor. -/
theorem payload_closed_iff (x : ProcInput) (sqlError : Option String) (raw : List UInt8) :
    (analyzeProcFile x sqlError raw).Closed ↔ ∀ r ∈ (prepareProcBytes x.cd raw).regions,
      x.op r ∈ ["OPEN", "CLOSE", "FETCH"] → namesCursor x.upper r.rawText = true →
        extractCursorName x.upper r.rawText = none := by
  rw [closed_iff]
  refine forall_congr' fun r => forall_congr' fun _ => ?_
  unfold ProcInput.Dangles ProcInput.usesCursor ProcInput.cursorName
  simp only [Bool.and_eq_true, decide_eq_true_iff, not_and, not_not, and_imp]

/-- `str.upper` of an ASCII character. -/
def asciiUpper (c : Char) : List Char := [c.toUpper]

def cursorInput : ProcInput :=
  { cd := asciiCodecs, upper := asciiUpper, filePath := "a.pc", projectId := "demo", functions := []
    py := { sha256Hex := id, reprContainer := fun _ => "", casefold := id,
            parseInt := fun _ => .error "" } }

/-- A cursor that is declared and opened. -/
def cursorSource : List Char :=
  "EXEC SQL DECLARE cursor1 CURSOR FOR x;EXEC SQL OPEN cursor1;".toList

/-- **A cursor that is opened** is looked for where it is opened, and not where it is declared. -/
theorem opened_cursor_dangles :
    ¬ (analyzeProcFile cursorInput none (encode cursorSource)).Closed := by
  intro hclosed
  have hregions : (prepareProcBytes cursorInput.cd (encode cursorSource)).regions =
      (maskExecutableSql asciiCodecs cursorSource).2.1 := by
    have hdecode : (decodeSource asciiCodecs (encode cursorSource)).1 = cursorSource := by
      unfold decodeSource
      rw [decodeUtf8_encode]
    have hprepared : (prepareProcBytes asciiCodecs (encode cursorSource)).regions =
        (maskExecutableSql asciiCodecs (decodeSource asciiCodecs (encode cursorSource)).1).2.1 := rfl
    rw [hdecode] at hprepared
    exact hprepared
  have hopened : ∃ r ∈ (maskExecutableSql asciiCodecs cursorSource).2.1,
      cursorInput.usesCursor r = true ∧ cursorInput.cursorName r ≠ none := by decide +kernel
  obtain ⟨r, hr, hdangles⟩ := hopened
  rw [← hregions] at hr
  exact (closed_iff _ _ _).mp hclosed r hr hdangles

end CortexHarness.Proc
