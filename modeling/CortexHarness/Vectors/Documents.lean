import CortexHarness.Library.Dict
import CortexHarness.Library.Fallible
import CortexHarness.Library.Python

/-!
# The documents of a vector sync

Model of `code-tiny/tools/common/primary_vector_sync.py`: `documents_from_payloads` makes of every
row an analyzer wrote one `VectorDocument`, whose point id is the `uuid5` of the parser, the project,
the root scope and the symbol (`deterministic_point_id`).

* `Encoding` collects what the standard library computes on texts (`uuid5` in the private namespace
  of the module, `str.lower`) and `redact_text`; the results hold for all of them.

Results:
* `documentOf_ok`: what a document carries;
* `documents_ids_nodup`: documents of one scope with distinct symbols have distinct point ids.
-/

namespace CortexHarness.Vectors

open Json

/-- The functions on texts that a document is made with. -/
structure Encoding where
  /-- `str(uuid.uuid5(_POINT_NAMESPACE, identity))` -/
  uuid5 : String → String
  /-- `str.lower` -/
  lower : String → String
  /-- `redact_text` of a text -/
  redactText : String → String

variable (py : Python) (enc : Encoding)

/-- A semantic document ready for embedding (`VectorDocument`). -/
structure VectorDocument where
  id : String
  text : String
  payload : Row

/-- The `ValueError`s of a document. -/
inductive DocumentError where
  /-- `vector payloads require symbol_id/id and project_id` -/
  | missingIdentity
  /-- `parser, project_id, root_scope, and symbol_id are required for vector identity` -/
  | incompleteScope
  /-- `max_chars must be positive` -/
  | maxChars
  deriving DecidableEq

/-- The text that is hashed to a point id. -/
def identityText (parser projectId symbolId rootScope : String) : String :=
  "\x00".intercalate [enc.lower (strip parser), strip projectId, strip rootScope, strip symbolId]

/-- `deterministic_point_id` -/
def deterministicPointId (parser projectId symbolId rootScope : String) :
    Except DocumentError String :=
  if [parser, projectId, rootScope, symbolId].any fun part => strip part = "" then
    .error .incompleteScope
  else .ok (enc.uuid5 (identityText enc parser projectId symbolId rootScope))

/-- `str(a or b or default)`. -/
def textOf (values : List Json) (default : String) : String :=
  match values.find? truthy with
  | some value => py.str value
  | none => default

@[simp] theorem textOf_str (value : String) : textOf py [.str value] "" = value := by
  by_cases h : value = "" <;> simp [textOf, truthy, Python.str, h]

/-- `MAX_VECTOR_TEXT_CHARS` -/
def maxVectorTextChars : Int := 16000

/-- `_bounded_text` -/
def boundedText (parts : List Json) (maxChars : Int) : Except DocumentError String :=
  if maxChars ≤ 0 then .error .maxChars
  else
    let kept := parts.filter fun part => !part.isNull && !part.isText ""
    let text := enc.redactText ("\n".intercalate (kept.map py.str))
    .ok (String.ofList (text.toList.take (min maxChars maxVectorTextChars).toNat))

/-- `project_id_lookup_key` -/
def projectIdLookupKey (projectId : String) : Option String :=
  if strip projectId = "" then none else some (py.casefold (strip projectId))

/-- A text field that may be `None`. -/
def optionalText : Option String → Json
  | some value => .str value
  | none => .null

/-- One turn of `documents_from_payloads`. -/
def documentOf (parser rootScope : String) (maxChars : Int) (source : Row) :
    Except DocumentError VectorDocument := do
  let symbolId := strip (textOf py [field source "symbol_id", field source "id"] "")
  let projectId := strip (textOf py [field source "project_id"] "")
  if symbolId = "" || projectId = "" then .error .missingIdentity
  let filePath := slashes (textOf py [field source "file_path", field source "path"] "")
  let name := textOf py [field source "name", .str filePath, .str symbolId] ""
  let qualifiedName := textOf py [field source "qualified_name", .str name] ""
  let nodeType := textOf py [field source "node_type", field source "kind"] "symbol"
  let text ← boundedText py enc [
    .str (nodeType ++ ": " ++ qualifiedName),
    .str (if filePath = "" then "" else "file: " ++ filePath),
    field source "summary", field source "comment", field source "note", field source "code"]
    maxChars
  let lines := ["start_line", "end_line"].filterMap fun key =>
    if (field source key).isNull then none else some (key, field source key)
  let id ← deterministicPointId enc parser projectId symbolId rootScope
  return {
    id
    text
    payload := [
      ("node_type", .str nodeType),
      ("symbol_id", .str symbolId),
      ("project_id", .str projectId),
      ("project_id_normalized", optionalText (projectIdLookupKey py projectId)),
      ("project_name", .str (textOf py [field source "project_name", .str projectId] "")),
      ("language", .str (textOf py [field source "language", .str parser] "")),
      ("repo", .str (textOf py [field source "repo"] "")),
      ("file_path", .str filePath),
      ("name", .str name),
      ("qualified_name", .str qualifiedName),
      ("parser", .str parser),
      ("root_scope", .str rootScope),
      ("text", .str text)] ++ lines }

/-- `documents_from_payloads` -/
def documentsFromPayloads (parser rootScope : String) (maxChars : Int) (payloads : List Row) :
    Except DocumentError (List VectorDocument) :=
  payloads.mapM (documentOf py enc parser rootScope maxChars)

/-! ## What a document carries -/

/-- A document of a symbol and a project, made for a parser and a root scope. -/
structure Describes (parser rootScope : String) (d : VectorDocument) (symbolId projectId : String) :
    Prop where
  id : d.id = enc.uuid5 (identityText enc parser projectId symbolId rootScope)
  symbol : field d.payload "symbol_id" = .str symbolId
  project : field d.payload "project_id" = .str projectId
  normalized :
    field d.payload "project_id_normalized" = optionalText (projectIdLookupKey py projectId)
  parser : field d.payload "parser" = .str parser
  rootScope : field d.payload "root_scope" = .str rootScope
  trimmed : strip symbolId = symbolId

variable {parser rootScope : String} {maxChars : Int}

theorem documentOf_ok {source : Row} {d : VectorDocument}
    (h : documentOf py enc parser rootScope maxChars source = .ok d) :
    ∃ symbolId projectId, Describes py enc parser rootScope d symbolId projectId := by
  unfold documentOf at h
  dsimp only at h
  split at h
  · cases h
  · obtain ⟨text, -, h⟩ := Fallible.bind_ok.mp h
    obtain ⟨id, hid, h⟩ := Fallible.bind_ok.mp h
    unfold deterministicPointId at hid
    split at hid
    · cases hid
    · obtain rfl := Except.ok.inj hid
      obtain rfl := Except.ok.inj h
      exact ⟨strip (textOf py [field source "symbol_id", field source "id"] ""),
        strip (textOf py [field source "project_id"] ""),
        { id := rfl
          symbol := by simp [field, find?]
          project := by simp [field, find?]
          normalized := by simp [field, find?]
          parser := by simp [field, find?]
          rootScope := by simp [field, find?]
          trimmed := strip_strip _ }⟩

theorem identityText_injective {projectId symbolId symbolId' : String}
    (hs : strip symbolId = symbolId) (hs' : strip symbolId' = symbolId')
    (h : identityText enc parser projectId symbolId rootScope =
      identityText enc parser projectId symbolId' rootScope) : symbolId = symbolId' := by
  unfold identityText at h
  rw [hs, hs'] at h
  have hchars := congrArg String.toList h
  exact String.toList_inj.mp (by simpa [String.intercalate_cons_cons] using hchars)

theorem documents_describe {payloads : List Row} {docs : List VectorDocument}
    (h : documentsFromPayloads py enc parser rootScope maxChars payloads = .ok docs)
    {d : VectorDocument} (hd : d ∈ docs) :
    ∃ symbolId projectId, Describes py enc parser rootScope d symbolId projectId := by
  obtain ⟨source, -, hsource⟩ := Fallible.mapM_mem h d hd
  exact documentOf_ok py enc hsource

/-- **Documents of one scope with distinct symbols have distinct point ids.** -/
theorem documents_ids_nodup {projectId : String} {docs : List VectorDocument}
    (hinj : Function.Injective enc.uuid5)
    (hdocs : ∀ d ∈ docs, ∃ symbolId project,
      Describes py enc parser rootScope d symbolId project)
    (hproject : ∀ d ∈ docs, field d.payload "project_id" = .str projectId)
    (hsymbols : (docs.map fun d => field d.payload "symbol_id").Nodup) :
    (docs.map (·.id)).Nodup := by
  rw [List.Nodup, List.pairwise_map] at hsymbols ⊢
  refine List.Pairwise.imp_of_mem (fun {d d'} hd hd' hne hid => hne ?_) hsymbols
  obtain ⟨symbolId, project, hdesc⟩ := hdocs d hd
  obtain ⟨symbolId', project', hdesc'⟩ := hdocs d' hd'
  have hp : project = project' := by
    have heq := (hproject d hd).trans (hproject d' hd').symm
    rw [hdesc.project, hdesc'.project] at heq
    exact Json.str.inj heq
  subst hp
  rw [hdesc.id, hdesc'.id] at hid
  rw [hdesc.symbol, hdesc'.symbol,
    identityText_injective enc hdesc.trimmed hdesc'.trimmed (hinj hid)]

end CortexHarness.Vectors
