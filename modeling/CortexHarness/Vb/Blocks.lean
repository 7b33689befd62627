import CortexHarness.Library.Python
import CortexHarness.Library.Search
import CortexHarness.Messages.Scan

/-!
# The blocks of a VB file

Model of the block stacks and of the properties of `parse_vb_file`
(`code-tiny/tools/vb/vb_common.py`), with `_split_params`, `_guess_arity`, `_line_slice` and the
patterns they read lines with.

* A stack is a list, its top first.
* The file path is relative to the root already (`rel_path`).
* What the file is read for besides is left out: calls, events, interfaces, enums, constants and
  variables, and the notes, which repeat the code.
-/

namespace CortexHarness.Vb

open Matcher
open Messages (splitLines)

/-- What `re` and `str.lower` compute. -/
structure Rules where
  alphabet : Alphabet
  lower : String → String

variable (rules : Rules)

/-! ## Patterns -/

section Patterns

/-- `[A-Za-z_]` under `IGNORECASE` -/
def nameStart (c : Char) : Bool :=
  "abcdefghijklmnopqrstuvwxyzABCDEFGHIJKLMNOPQRSTUVWXYZ_".toList.any (rules.alphabet.same · c)

/-- `[A-Za-z0-9_]` under `IGNORECASE` -/
def nameChar (c : Char) : Bool :=
  nameStart rules c || "0123456789".toList.any (rules.alphabet.same · c)

/-- `[A-Za-z_][A-Za-z0-9_]*` -/
def identifier : Pattern := seq [one (nameStart rules), star (nameChar rules)]

/-- `(?:Public\s+|…)*` -/
def modifiers (words : List String) : Pattern :=
  many (anyOf (words.map fun word => seq [literal rules.alphabet word, plus isSpace]))

/-- `^\s*End\s+(Sub|…)\b` -/
def endOf (words : List String) : Pattern :=
  seq [star isSpace, literal rules.alphabet "End", plus isSpace,
    anyOf (words.map (literal rules.alphabet)), boundary rules.alphabet]

/-- The words of `_TYPE_START_RE` and `_TYPE_END_RE` -/
def typeKinds : List String := ["Class", "Module", "Structure", "Interface", "Enum"]

/-- `_FUNC_END_RE` -/
def isFuncEnd (line : String) : Bool :=
  Matcher.startsWith (endOf rules ["Sub", "Function", "Property"]) line.toList

/-- `_TYPE_END_RE` -/
def isTypeEnd (line : String) : Bool := Matcher.startsWith (endOf rules typeKinds) line.toList

/-- `_NAMESPACE_END_RE` -/
def isNamespaceEnd (line : String) : Bool :=
  Matcher.startsWith (endOf rules ["Namespace"]) line.toList

/-- `_NAMESPACE_START_RE`: the name. -/
def namespaceStart : Reader String := fun c =>
  (seq [star isSpace, opt (anyOf (["Public", "Private", "Friend"].map fun word =>
      seq [literal rules.alphabet word, plus isSpace])),
    literal rules.alphabet "Namespace", plus isSpace] c).flatMap fun start =>
  (seq [one (nameStart rules), star fun c => nameChar rules c || c == '.',
    boundary rules.alphabet] start).map fun stop => (between start stop, stop)

/-- The modifiers of `_TYPE_START_RE` -/
def typeModifiers : List String :=
  ["Public", "Private", "Friend", "Protected", "Partial", "Static", "Shadows", "Default",
    "NotInheritable", "MustInherit", "Global"]

/-- `_TYPE_START_RE`: the kind and the name. -/
def typeStart : Reader (String × String) := fun c =>
  (seq [star isSpace, modifiers rules typeModifiers] c).flatMap fun kindStart =>
  (anyOf (typeKinds.map (literal rules.alphabet)) kindStart).flatMap fun kindStop =>
  (plus isSpace kindStop).flatMap fun start =>
  (seq [identifier rules, boundary rules.alphabet] start).map fun stop =>
    ((between kindStart kindStop, between start stop), stop)

/-- What `_FUNC_START_RE` captures. -/
structure FuncHead where
  kind : String
  name : String
  params : Option String
  deriving DecidableEq

/-- The modifiers of `_FUNC_START_RE` -/
def funcModifiers : List String :=
  ["Public", "Private", "Friend", "Protected", "Static", "Shared", "Overloads", "Overrides",
    "Overridable", "NotOverridable", "MustOverride", "Partial", "Default", "Async", "Iterator",
    "Shadows", "Global"]

/-- `Property\s+Get` -/
def accessor (word : String) : Pattern :=
  seq [literal rules.alphabet "Property", plus isSpace, literal rules.alphabet word]

/-- `\s*(?:\((.*?)\))?` -/
def params : Reader (Option String) := fun c =>
  (star isSpace c).flatMap fun open_ =>
    ((one (· == '(') open_).flatMap fun start =>
      (lazyStar (· != '\n') start).flatMap fun stop =>
        (one (· == ')') stop).map fun close => (some (between start stop), close)) ++
      [(none, open_)]

/-- `_FUNC_START_RE` -/
def funcStart : Reader FuncHead := fun c =>
  (seq [star isSpace, modifiers rules funcModifiers] c).flatMap fun kindStart =>
  (anyOf [literal rules.alphabet "Sub", literal rules.alphabet "Function", accessor rules "Get",
    accessor rules "Set", accessor rules "Let"] kindStart).flatMap fun kindStop =>
  (plus isSpace kindStop).flatMap fun start =>
  (identifier rules start).flatMap fun stop =>
  (params stop).map fun rest =>
    (⟨between kindStart kindStop, between start stop, rest.1⟩, rest.2)

/-- `_VISIBILITY_PRIVATE_RE` -/
def isPrivate (line : String) : Bool :=
  Matcher.startsWith (seq [star isSpace, modifiers rules ["Public", "Private", "Friend", "Static"],
    literal rules.alphabet "Private", boundary rules.alphabet]) line.toList

/-- What `_PROPERTY_RE` captures, and the number of characters before the name. -/
structure PropertyHead where
  kind : String
  name : String
  nameAt : Nat
  params : Option String
  type : Option String

/-- The modifiers of `_PROPERTY_RE` -/
def propertyModifiers : List String :=
  ["Public", "Private", "Friend", "Protected", "ReadOnly", "WriteOnly", "Overrides", "Overridable",
    "MustOverride", "Default", "Shared"]

/-- `(?:\s+As\s+([A-Za-z0-9_.<>]+))?` -/
def asType : Reader (Option String) := fun c =>
  ((seq [plus isSpace, literal rules.alphabet "As", plus isSpace] c).flatMap fun start =>
    (plus (fun c => nameChar rules c || ['.', '<', '>'].contains c) start).map fun stop =>
      (some (between start stop), stop)) ++ [(none, c)]

/-- `_PROPERTY_RE` -/
def property : Reader PropertyHead := fun c =>
  (seq [lineStart, star isSpace, modifiers rules propertyModifiers,
    literal rules.alphabet "Property", plus isSpace] c).flatMap fun kindStart =>
  (anyOf (["Get", "Set", "Let"].map (literal rules.alphabet)) kindStart).flatMap fun kindStop =>
  (plus isSpace kindStop).flatMap fun start =>
  (identifier rules start).flatMap fun stop =>
  (params stop).flatMap fun head =>
  (asType rules head.2).map fun type =>
    (⟨between kindStart kindStop, between start stop, start.before.length, head.1, type.1⟩, type.2)

end Patterns

/-! ## Parameters -/

/-- The loop of `_split_params`. -/
structure ParamScan where
  chunks : List String
  /-- `current`, the last character first -/
  current : List Char
  depth : Nat
  /-- `quote`, within a text -/
  quote : Option Char

/-- The chunks with the token that ends here, unless it is blank. -/
def ParamScan.flush (s : ParamScan) : List String :=
  let token := strip (String.ofList s.current.reverse)
  if token = "" then s.chunks else s.chunks ++ [token]

/-- One turn of the loop of `_split_params`. -/
def ParamScan.read (s : ParamScan) (ch : Char) : ParamScan :=
  match s.quote with
  | some quote =>
    { s with current := ch :: s.current, quote := if ch = quote then none else some quote }
  | none =>
    if ch = '"' || ch = '\'' then { s with current := ch :: s.current, quote := some ch }
    else if ch = '(' || ch = '[' then
      { s with current := ch :: s.current, depth := s.depth + 1 }
    else if ch = ')' || ch = ']' then
      { s with current := ch :: s.current, depth := s.depth - 1 }
    else if ch = ',' && s.depth = 0 then { s with chunks := s.flush, current := [] }
    else { s with current := ch :: s.current }

/-- `_split_params` -/
def splitParams (text : String) : List String :=
  ((strip text).toList.foldl ParamScan.read ⟨[], [], 0, none⟩).flush

/-- `_guess_arity` -/
def guessArity (paramText : String) : Nat := (splitParams paramText).length

/-! ## What is emitted -/

/-- `_line_slice` -/
def lineSlice (lines : List String) (startLine endLine : Nat) : String :=
  let start := max 1 startLine
  let stop := max start endLine
  "\n".intercalate ((lines.take stop).drop (start - 1))

/-- `".".join([part for part in parts if part])` -/
def qualify (parts : List String) : String := ".".intercalate (parts.filter (· ≠ ""))

/-- `".".join(item[0] for item in stack) if stack else None`; the names have the top first. -/
def dotted (names : List String) : Option String :=
  if names.isEmpty then none else some (".".intercalate names.reverse)

structure FunctionDef where
  symbolId : String
  qualifiedName : String
  name : String
  kind : String
  className : Option String
  namespaceName : Option String
  filePath : String
  startLine : Nat
  endLine : Nat
  arity : Nat
  code : String
  isPrivate : Bool
  deriving DecidableEq

structure ClassDef where
  symbolId : String
  qualifiedName : String
  name : String
  kind : String
  namespaceName : Option String
  filePath : String
  startLine : Nat
  endLine : Nat
  code : String
  deriving DecidableEq

structure NamespaceDef where
  symbolId : String
  qualifiedName : String
  name : String
  filePath : String
  startLine : Nat
  endLine : Nat
  code : String
  deriving DecidableEq

structure PropertyDef where
  symbolId : String
  qualifiedName : String
  name : String
  kind : String
  className : Option String
  namespaceName : Option String
  filePath : String
  startLine : Nat
  endLine : Nat
  parameters : String
  returnType : String
  code : String
  deriving DecidableEq

/-! ## The stacks -/

/-- An entry of `func_stack`. -/
structure OpenFunc where
  kind : String
  name : String
  arity : Nat
  startLine : Nat
  namespaceName : Option String
  className : Option String
  isPrivate : Bool
  deriving DecidableEq

/-- An entry of `type_stack`. -/
structure OpenType where
  name : String
  kind : String
  startLine : Nat
  deriving DecidableEq

/-- An entry of `ns_stack`. -/
structure OpenNamespace where
  name : String
  startLine : Nat
  deriving DecidableEq

/-- The stacks and what has been emitted. -/
structure State where
  nsStack : List OpenNamespace
  typeStack : List OpenType
  funcStack : List OpenFunc
  functions : List FunctionDef
  classes : List ClassDef
  namespaces : List NamespaceDef
  deriving DecidableEq

section Emit

variable (relPath : String) (lines : List String)

/-- The function of an entry that ends at `endLine`. -/
def functionDef (open_ : OpenFunc) (endLine : Nat) : FunctionDef :=
  let qualified := qualify [open_.namespaceName.getD "", open_.className.getD "", open_.name]
  { symbolId := (if qualified ≠ "" then qualified else open_.name) ++ "/" ++
      toString open_.arity ++ "@" ++ relPath
    qualifiedName := qualified
    name := open_.name
    kind := open_.kind
    className := open_.className
    namespaceName := open_.namespaceName
    filePath := relPath
    startLine := open_.startLine
    endLine := endLine
    arity := open_.arity
    code := lineSlice lines open_.startLine endLine
    isPrivate := open_.isPrivate }

/-- The class of an entry that ends at `endLine`, inside the namespaces `names`. -/
def classDef (names : List String) (open_ : OpenType) (endLine : Nat) : ClassDef :=
  let namespaceName := dotted names
  let qualified := qualify [namespaceName.getD "", open_.name]
  { symbolId := (if qualified ≠ "" then qualified else open_.name) ++ "@" ++ relPath
    qualifiedName := qualified
    name := open_.name
    kind := rules.lower open_.kind
    namespaceName := namespaceName
    filePath := relPath
    startLine := open_.startLine
    endLine := endLine
    code := lineSlice lines open_.startLine endLine }

/-- The namespace of an entry that ends at `endLine`, inside the namespaces `names`. -/
def namespaceDef (names : List String) (open_ : OpenNamespace) (endLine : Nat) : NamespaceDef :=
  let qualified := qualify [(dotted names).getD "", open_.name]
  { symbolId := "namespace::" ++ qualified ++ "@" ++ relPath
    qualifiedName := qualified
    name := open_.name
    filePath := relPath
    startLine := open_.startLine
    endLine := endLine
    code := lineSlice lines open_.startLine endLine }

/-- The entry that a procedure's first line puts on the stack. -/
def openFunc (types namespaces : List String) (stripped : String) (head : FuncHead) (idx : Nat) :
    OpenFunc where
  kind := rules.lower head.kind
  name := head.name
  arity := guessArity (head.params.getD "")
  startLine := idx
  namespaceName := dotted namespaces
  className := dotted types
  isPrivate := isPrivate rules stripped

/-- The part of the loop body that looks for a line that opens a block. -/
def openBlock (s : State) (idx : Nat) (stripped : String) : State :=
  match (namespaceStart rules).match? stripped.toList with
  | some name => { s with nsStack := ⟨name, idx⟩ :: s.nsStack }
  | none =>
    match (typeStart rules).match? stripped.toList with
    | some (kind, name) => { s with typeStack := ⟨name, kind, idx⟩ :: s.typeStack }
    | none =>
      match (funcStart rules).match? stripped.toList with
      | some head =>
        let open_ := openFunc rules (s.typeStack.map (·.name)) (s.nsStack.map (·.name)) stripped
          head idx
        { s with funcStack := open_ :: s.funcStack }
      | none => s

theorem openBlock_nothing {s : State} {idx : Nat} {stripped : String}
    (hnamespace : (namespaceStart rules).match? stripped.toList = none)
    (htype : (typeStart rules).match? stripped.toList = none)
    (hfunc : (funcStart rules).match? stripped.toList = none) :
    openBlock rules s idx stripped = s := by
  simp [openBlock, hnamespace, htype, hfunc]

/-- The part of the loop body that looks for a line that closes a namespace. -/
def closeNamespace (s : State) (idx : Nat) (stripped : String) : State :=
  match isNamespaceEnd rules stripped, s.nsStack with
  | true, open_ :: rest =>
    { s with
      nsStack := rest
      namespaces := s.namespaces ++
        [namespaceDef relPath lines (rest.map (·.name)) open_ idx] }
  | _, _ => openBlock rules s idx stripped

/-- The part of the loop body that looks for a line that closes a type. -/
def closeType (s : State) (idx : Nat) (stripped : String) : State :=
  match isTypeEnd rules stripped, s.typeStack with
  | true, open_ :: rest =>
    { s with
      typeStack := rest
      classes := s.classes ++
        [classDef rules relPath lines (s.nsStack.map (·.name)) open_ idx] }
  | _, _ => closeNamespace rules relPath lines s idx stripped

/-- The loop body: it looks for a line that closes a procedure first. -/
def readLine (s : State) (idx : Nat) (raw : String) : State :=
  let stripped := strip raw
  if stripped = "" then s
  else
    match isFuncEnd rules stripped, s.funcStack with
    | true, open_ :: rest =>
      { s with
        funcStack := rest
        functions := s.functions ++ [functionDef relPath lines open_ idx] }
    | _, _ => closeType rules relPath lines s idx stripped

theorem readLine_open {s : State} {idx : Nat} {raw : String} (hblank : strip raw ≠ "")
    (hfunc : isFuncEnd rules (strip raw) = false) (htype : isTypeEnd rules (strip raw) = false)
    (hnamespace : isNamespaceEnd rules (strip raw) = false) :
    readLine rules relPath lines s idx raw = openBlock rules s idx (strip raw) := by
  simp [readLine, closeType, closeNamespace, hblank, hfunc, htype, hnamespace]

/-- The loop over the lines, from line `idx` on. -/
def readLines : State → Nat → List String → State
  | s, _, [] => s
  | s, idx, raw :: rest => readLines (readLine rules relPath lines s idx raw) (idx + 1) rest

/-- `while ns_stack`, at the end of the file. -/
def closeNamespaces (endLine : Nat) : List OpenNamespace → List NamespaceDef
  | [] => []
  | open_ :: rest =>
    namespaceDef relPath lines (rest.map (·.name)) open_ endLine :: closeNamespaces endLine rest

/-- The blocks that are open at the end of the file, closed there. -/
def closeBlocks (s : State) : State :=
  let endLine := if lines.isEmpty then 1 else lines.length
  { nsStack := []
    typeStack := []
    funcStack := []
    functions := s.functions ++ s.funcStack.map fun open_ => functionDef relPath lines open_ endLine
    classes := s.classes ++ s.typeStack.map fun open_ =>
      classDef rules relPath lines (s.nsStack.map (·.name)) open_ endLine
    namespaces := s.namespaces ++ closeNamespaces relPath lines endLine s.nsStack }

end Emit

/-! ## Properties -/

section Properties

variable (source : List Char) (lines : List String)

/-- The first place of `line` in the source from `at_` on. -/
def findFrom (line : List Char) : Nat → List Char → Option Nat
  | at_, [] => if line.isEmpty then some at_ else none
  | at_, c :: rest =>
    if line.isPrefixOf (c :: rest) then some at_ else findFrom line (at_ + 1) rest

/-- `source.find(line, start)`, where a negative start counts from the end. -/
def find (line : String) (start : Int) : Int :=
  let from_ := if start < 0 then (source.length + start).toNat else start.toNat
  if source.length < from_ then -1
  else
    match findFrom line.toList from_ (source.drop from_) with
    | some at_ => at_
    | none => -1

/-- `line_num`: the first line that ends where the match starts. -/
def lineNum (matchStart : Nat) : Nat :=
  match lines.findIdx? fun line =>
    find source line ((matchStart : Int) - line.length) = (matchStart : Int) - line.length with
  | some i => i + 1
  | none => 1

/-- `re.search(r"^\s*End\s+Property\b", line, re.IGNORECASE)` -/
def isPropertyEnd (line : String) : Bool :=
  Matcher.startsWith (endOf rules ["Property"]) line.toList

/-- `end_line_num`: the next line that ends a property. -/
def endLineNum (line : Nat) : Nat :=
  match (lines.drop line).findIdx? (isPropertyEnd rules) with
  | some i => line + i + 1
  | none => line

/-- A property of the source, with what is left on the stacks. -/
def propertyDef (relPath : String) (types namespaces : List String)
    (found : Found PropertyHead) : PropertyDef :=
  let line := lineNum source lines found.start
  let endLine := endLineNum rules lines line
  let className := dotted types
  let namespaceName := dotted namespaces
  let qualified := qualify [namespaceName.getD "", className.getD "", found.captured.name]
  { symbolId := qualified ++ "@" ++ relPath
    qualifiedName := qualified
    name := found.captured.name
    kind := rules.lower found.captured.kind
    className := className
    namespaceName := namespaceName
    filePath := relPath
    startLine := line
    endLine := endLine
    parameters := found.captured.params.getD ""
    returnType := found.captured.type.getD ""
    code := if line < endLine then lineSlice lines line endLine else found.text }

end Properties

/-! ## The file -/

/-- What `parse_vb_file` returns of the blocks. -/
structure Parsed where
  functions : List FunctionDef
  classes : List ClassDef
  namespaces : List NamespaceDef
  properties : List PropertyDef
  deriving DecidableEq

/-- `parse_vb_file`, from the decoded source. -/
def parseVbFile (relPath source : String) : Parsed :=
  let lines := splitLines [] source.toList
  let s := closeBlocks rules relPath lines
    (readLines rules relPath lines ⟨[], [], [], [], [], []⟩ 1 lines)
  { functions := s.functions
    classes := s.classes
    namespaces := s.namespaces
    properties := (findAll (property rules) source.toList).map
      (propertyDef rules source.toList lines relPath (s.typeStack.map (·.name))
        (s.nsStack.map (·.name))) }

end CortexHarness.Vb
