import CortexHarness.Library.Best
import CortexHarness.Library.Python
import CortexHarness.Sync.Routing

/-!
# The scan for messages

Model of `collect_messages_for_parser` in `code-tiny/tools/common/message_scan.py`: which files of a
tree a parser reads, in a full scan or in one of named files, and which calls in them it records as
messages.

Results: `mem_iterParserFiles`, `mem_targetFilesOf`: the files that are read; `recordOf_fields`: what
every message carries.

Model notes:

* A tree is its regular files under the root, by slash-separated relative paths, each with the text
  that is read of it. Symbolic links and unreadable files are left out.
* `Scanner` collects what lies outside this module: the standard library's functions on texts, the
  directories that are excluded, and the detectors. A confidence is carried in hundredths.
-/

namespace CortexHarness.Messages

open Table

/-! ## The environment -/

/-- A `BaseMessageDetector`. -/
structure Detector where
  keywords : List String
  /-- `extract_sender`, the empty text for `None` -/
  extractSender : String → String
  /-- `extract_fields`: the name, the receiver, the payload and the explanation -/
  extractFields : String → List String → String × String × String × String

structure Scanner where
  /-- `str.lower` -/
  lower : String → String
  /-- `hashlib.sha1(base.encode("utf-8")).hexdigest()` -/
  sha1Hex : String → String
  /-- `str(uuid.uuid5(uuid.NAMESPACE_URL, id))` -/
  uuid5 : String → String
  /-- `os.path.relpath(os.path.realpath(path), root)` of an absolute path -/
  relativeToRoot : String → String
  /-- `is_excluded_dir` -/
  isExcludedDir : String → Bool
  /-- `get_detector` -/
  getDetector : String → Detector
  /-- `unquote` -/
  unquote : String → Option String
  /-- `project_id_lookup_key` -/
  projectIdLookupKey : String → String

/-- `_PARSER_EXTENSIONS` -/
def parserExtensions : List (String × List String) :=
  [("cplus", [".c", ".cc", ".cpp", ".cxx", ".h", ".hh", ".hpp", ".hxx"]),
   ("delphi", [".pas", ".dpr", ".inc"]),
   ("java", [".java"]),
   ("csharp", [".cs"]),
   ("kotlin", [".kt", ".kts"]),
   ("android", [".kt", ".kts", ".java", ".xml", ".gradle", ".gradle.kts"]),
   ("vbnet", [".vb"]),
   ("vb6", [".vbp", ".vbw", ".bas", ".cls", ".frm", ".frx"]),
   ("vba", [".bas", ".cls", ".frm"]),
   ("vbscript", [".vbs", ".wsf", ".asp"]),
   ("python", [".py"]),
   ("swift", [".swift"]),
   ("js", [".js", ".jsx", ".mjs", ".cjs"]),
   ("ts", [".ts", ".tsx", ".mts", ".cts"]),
   ("php", [".php"]),
   ("sql", [".sql", ".ddl", ".dml", ".psql"]),
   ("plsql", [".pls", ".plsql", ".pks", ".pkb", ".pkg", ".pck", ".spc", ".spb", ".trg", ".fnc"])]

/-- `_PARSER_EXTENSIONS.get(parser, ())` -/
def extensionsOf (parser : String) : List String :=
  (parserExtensions.find? fun p => p.1 = parser).elim [] Prod.snd

/-! ## Trees -/

/-- The files of a tree. -/
structure Tree where
  files : List (String × String)
  keyed : Keyed Prod.fst files

/-- The text of a file. -/
def Tree.content (t : Tree) (path : String) : Option String :=
  (lookup Prod.fst path t.files).map Prod.snd

def Tree.empty : Tree := { files := [], keyed := List.nodup_nil }

/-- The components that `os.path.normpath` keeps; `stack` has the last one first. -/
def normParts : List String → List String → List String
  | stack, [] => stack.reverse
  | stack, part :: parts =>
    if part = "" || part = "." then normParts stack parts
    else if part ≠ ".." || stack = [] || stack.head? = some ".." then
      normParts (part :: stack) parts
    else normParts stack.tail parts

/-- `os.path.normpath` of a relative path -/
def normPath (path : String) : String :=
  let parts := normParts [] ((path.toList.splitOnP (· == '/')).map String.ofList)
  if parts = [] then "." else "/".intercalate parts

/-- The path leads out of the root. -/
def leavesRoot (path : String) : Bool := path = ".." || startsWith path "../"

/-- `_normalize_rel_path` -/
def normalizeRelPath (env : Scanner) (value : String) : Option String :=
  let raw := slashes (strip value)
  if raw = "" then none
  else if startsWith raw "/" then
    let rel := slashes (env.relativeToRoot raw)
    if leavesRoot rel then none else some rel
  else
    let rel := normPath raw
    if rel = "." || leavesRoot rel then none else some rel

/-- The directories of a path. -/
def directories (path : String) : List String :=
  ((path.toList.splitOnP (· == '/')).dropLast).map String.ofList

section Walk

variable (env : Scanner)

/-- `_file_matches_parser` -/
def fileMatchesParser (path parser : String) : Bool :=
  (extensionsOf parser).contains (Sync.extension (env.lower path))

/-- The file is found by the walk of `_iter_parser_files`. -/
def walks (parser path : String) : Bool :=
  !(directories path).any env.isExcludedDir &&
    (extensionsOf parser).any fun ext => endsWith (env.lower (Sync.basename path)) ext

/-- `_iter_parser_files` -/
def iterParserFiles (t : Tree) (parser : String) : List String :=
  ((t.files.map Prod.fst).filter (walks env parser)).insertionSort (· ≤ ·)

/-- The files of `target_files` that the scan reads. -/
def targetFilesOf (t : Tree) (parser : String) (targets : List String) : List String :=
  ((t.files.map Prod.fst).filter fun path =>
    (targets.filterMap (normalizeRelPath env)).contains path &&
      fileMatchesParser env path parser).insertionSort (· ≤ ·)

end Walk

/-! ## The lines of a file -/

/-- `c` ends a line for `str.splitlines`. -/
def isLineEnd (c : Char) : Bool :=
  let n := c.toNat
  (10 ≤ n && n ≤ 13) || (28 ≤ n && n ≤ 30) || n == 0x85 || n == 0x2028 || n == 0x2029

/-- `str.splitlines`; `line` is the line so far, last character first. -/
def splitLines : List Char → List Char → List String
  | [], [] => []
  | line, [] => [String.ofList line.reverse]
  | line, '\r' :: '\n' :: text => String.ofList line.reverse :: splitLines [] text
  | line, c :: text =>
    if isLineEnd c then String.ofList line.reverse :: splitLines [] text
    else splitLines (c :: line) text

/-- `_extract_sender_by_line`: the sender of every line. -/
def senders (detector : Detector) (active : String) : List String → List String
  | [] => []
  | line :: lines =>
    let stripped := strip line
    let candidate := if stripped = "" then "" else detector.extractSender stripped
    let now := if candidate = "" then active else candidate
    now :: senders detector now lines

/-! ## The calls of a line -/

/-- `[A-Za-z_]` -/
def calleeStart (c : Char) : Bool := c.isAlpha || c == '_'

/-- `[A-Za-z0-9_:.>]` -/
def calleeChar (c : Char) : Bool := c.isAlphanum || c == '_' || c == ':' || c == '.' || c == '>'

/-- `_CALL_PATTERN` at the start of a text: the callee, its arguments and the rest. A shorter callee
would be followed by a callee character, so nothing else can match. -/
def callAt (text : List Char) : Option (List Char × List Char × List Char) :=
  if (text.head?.any calleeStart) then
    match (text.dropWhile calleeChar).dropWhile isSpace with
    | '(' :: body =>
      match body.dropWhile (· != ')') with
      | ')' :: rest => some (text.takeWhile calleeChar, body.takeWhile (· != ')'), rest)
      | _ => none
    | _ => none
  else none

/-- `_CALL_PATTERN.finditer`: the callees and their arguments. A match is not empty, so a text has no
more matches than characters. -/
def findCalls : Nat → List Char → List (String × String)
  | 0, _ => []
  | _, [] => []
  | n + 1, c :: text =>
    match callAt (c :: text) with
    | some (callee, args, rest) =>
      (String.ofList callee, String.ofList args) :: findCalls n rest
    | none => findCalls n text

/-- The state of `_split_args`; `current` has the last character first. -/
structure ArgState where
  args : List String
  current : List Char
  depth : Nat
  inQuote : Option Char
  escape : Bool

/-- The end of an argument. -/
def ArgState.close (s : ArgState) : ArgState :=
  let token := strip (String.ofList s.current.reverse)
  { s with args := if token = "" then s.args else s.args ++ [token], current := [] }

/-- One character of `_split_args`. -/
def ArgState.read (s : ArgState) (c : Char) : ArgState :=
  let added := { s with current := c :: s.current }
  match s.inQuote with
  | some quote =>
    if s.escape then { added with escape := false }
    else if c = '\\' then { added with escape := true }
    else if c = quote then { added with inQuote := none }
    else added
  | none =>
    if c = '"' || c = '\'' then { added with inQuote := some c }
    else if c = '(' || c = '[' || c = '{' then { added with depth := s.depth + 1 }
    else if c = ')' || c = ']' || c = '}' then { added with depth := s.depth - 1 }
    else if c = ',' && s.depth = 0 then s.close
    else added

/-- `_split_args` -/
def splitArgs (text : String) : List String :=
  (text.toList.foldl ArgState.read
    { args := [], current := [], depth := 0, inQuote := none, escape := false }).close.args

/-- `re.split(r"[.:>]+", callee)[-1].lower()` -/
def shortName (callee : String) : String :=
  String.ofList ((callee.toList.reverse.takeWhile fun c =>
    !(c == '.' || c == ':' || c == '>')).reverse.map Char.toLower)

/-! ## Messages -/

structure MessageRecord where
  id : String
  name : String
  sender : String
  receiver : String
  payload : String
  explanation : String
  filePath : String
  line : Nat
  /-- in hundredths -/
  confidence : Nat
  language : String
  projectId : String
  deriving DecidableEq

/-- `_MAX_MESSAGE_LINE_CHARS` -/
def maxMessageLineChars : Nat := 4000

section Collect

variable (env : Scanner) (projectId language parser : String)

/-- `_stable_message_id` -/
def stableMessageId (filePath : String) (line : Nat)
    (sender receiver messageName payload : String) : String :=
  let base := "||".intercalate [strip projectId, strip filePath, toString line, strip sender,
    strip receiver, strip messageName, strip payload]
  "msg::" ++ String.ofList ((env.sha1Hex base).toList.take 24)

/-- A call of a line, as it is recorded. -/
def recordOf (relPath : String) (line : Nat) (lineSender : String) (call : String × String) :
    Option MessageRecord :=
  let detector := env.getDetector parser
  let callee := strip call.1
  if shortName callee ∉ detector.keywords then none
  else
    let args := splitArgs call.2
    let (name, receiver, payload, explanation) := detector.extractFields callee args
    let sender := if strip lineSender = "" then Sync.basename relPath else strip lineSender
    if name = "" then none
    else
      let quoted := ((args.head?.bind env.unquote).getD "") ≠ ""
      let confidence := 55 + (if quoted then 20 else 0) + (if sender ≠ "" then 10 else 0) +
        (if receiver ≠ "" then 10 else 0)
      some {
        id := stableMessageId env projectId relPath line sender receiver name payload
        name, sender, receiver, payload, explanation, language, projectId, line
        filePath := relPath
        confidence := min confidence 99 }

/-- The calls of one line. -/
def recordsOfLine (relPath : String) (line : Nat) (text lineSender : String) :
    List MessageRecord :=
  let stripped := strip text
  if stripped = "" || maxMessageLineChars < stripped.length then []
  else (findCalls stripped.length stripped.toList).filterMap
    (recordOf env projectId language parser relPath line lineSender)

/-- The calls of one file. -/
def recordsOfFile (t : Tree) (path : String) : List MessageRecord :=
  match t.content path with
  | some content =>
    let lines := splitLines [] content.toList
    let lineSenders := senders (env.getDetector parser) "" lines
    ((lines.zip lineSenders).zipIdx 1).flatMap fun l =>
      recordsOfLine env projectId language parser (slashes path) l.2 l.1.1 l.1.2
  | none => []

/-- `record.confidence > existing.confidence` -/
def beats (record existing : MessageRecord) : Bool := existing.confidence < record.confidence

/-- `collect_messages_for_parser`, `none` for an unsupported parser. -/
def collectMessagesForParser (t : Tree) (targets : Option (List String)) :
    Option (List MessageRecord) :=
  if parserExtensions.any fun p => p.1 = parser then
    let files := match targets with
      | none => iterParserFiles env t parser
      | some targets => targetFilesOf env t parser targets
    some (keepBest MessageRecord.id beats
      (files.flatMap (recordsOfFile env projectId language parser t)))
  else none

end Collect

/-! ## What is collected -/

section Results

variable {env : Scanner} {projectId language parser : String} {t t' : Tree} {path : String}
  {r : MessageRecord}

theorem content_isSome : (t.content path).isSome ↔ path ∈ t.files.map Prod.fst := by
  unfold Tree.content
  rw [Option.isSome_map, Option.isSome_iff_ne_none, Ne, lookup_eq_none, List.mem_map]
  push Not
  rfl

theorem mem_iterParserFiles :
    path ∈ iterParserFiles env t parser ↔
      (t.content path).isSome ∧ walks env parser path = true := by
  rw [iterParserFiles, List.mem_insertionSort, List.mem_filter, content_isSome]

theorem nodup_iterParserFiles : (iterParserFiles env t parser).Nodup :=
  (List.perm_insertionSort _ _).nodup_iff.mpr (List.Nodup.filter _ t.keyed)

theorem mem_targetFilesOf {targets : List String} :
    path ∈ targetFilesOf env t parser targets ↔
      (t.content path).isSome ∧ path ∈ targets.filterMap (normalizeRelPath env) ∧
        fileMatchesParser env path parser = true := by
  rw [targetFilesOf, List.mem_insertionSort, List.mem_filter, content_isSome, Bool.and_eq_true,
    List.contains_iff_mem]

theorem nodup_targetFilesOf {targets : List String} : (targetFilesOf env t parser targets).Nodup :=
  (List.perm_insertionSort _ _).nodup_iff.mpr (List.Nodup.filter _ t.keyed)

theorem recordsOfFile_congr (h : t.content path = t'.content path) :
    recordsOfFile env projectId language parser t path =
      recordsOfFile env projectId language parser t' path := by
  unfold recordsOfFile
  rw [h]

theorem recordOf_fields {relPath lineSender : String} {line : Nat} {call : String × String}
    (h : recordOf env projectId language parser relPath line lineSender call = some r) :
    r.filePath = relPath ∧ r.projectId = projectId ∧ r.language = language := by
  unfold recordOf at h
  simp only at h
  split at h
  · cases h
  · split at h
    · cases h
    · obtain rfl := (Option.some.inj h).symm
      exact ⟨rfl, rfl, rfl⟩

/-- What every message of a file carries. -/
theorem recordsOfFile_fields (h : r ∈ recordsOfFile env projectId language parser t path) :
    r.filePath = slashes path ∧ r.projectId = projectId ∧ r.language = language := by
  unfold recordsOfFile at h
  split at h
  · obtain ⟨l, -, hl⟩ := List.mem_flatMap.mp h
    unfold recordsOfLine at hl
    simp only at hl
    split at hl
    · cases hl
    · obtain ⟨call, -, hcall⟩ := List.mem_filterMap.mp hl
      exact recordOf_fields hcall
  · cases h

theorem collectMessagesForParser_full
    (h : (parserExtensions.any fun p => p.1 = parser) = true) :
    collectMessagesForParser env projectId language parser t none =
      some (keepBest MessageRecord.id beats ((iterParserFiles env t parser).flatMap
        (recordsOfFile env projectId language parser t))) := if_pos h

/-- A scan of named files. -/
theorem collectMessagesForParser_targets {targets : List String}
    (h : (parserExtensions.any fun p => p.1 = parser) = true) :
    collectMessagesForParser env projectId language parser t (some targets) =
      some (keepBest MessageRecord.id beats ((targetFilesOf env t parser targets).flatMap
        (recordsOfFile env projectId language parser t))) := if_pos h

end Results

end CortexHarness.Messages
