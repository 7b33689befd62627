import CortexHarness.Library.Text

/-!
# Windows resource scripts

Model of `rc_parser.py:86-575`: the lines of an `.rc` file are read into resources, controls and
the relations between them. A text is its list of characters.

* `Chars` is what the regular expressions ask of a character: `\w`, and whether `re.IGNORECASE`
  takes it for a letter of the pattern; and `str.upper`, `str.lower`. Their laws say that no colon
  comes in.
* A string on the stack of conditions is kept as it was put together (`Condition`), and
  `Condition.text` is the string. The innermost condition is the head of the list.
* A regular expression that matches at one place only is written as the split of the line there.
* A field that only repeats or displays others (notes, summaries, metadata, the snippet) is left
  out, and so are includes, macros and the file's own record.
* `step` is one round of the main loop, and `parseLines` as many rounds as there are lines.

Results:
* `rest_eq_nil`: that many rounds reach the end of the file;
* `parseLines_invariant`: what a round keeps holds of the payload.
-/

namespace CortexHarness.ResourceScript

abbrev Text := List Char

structure Chars where
  /-- `\w` -/
  word : Char → Bool
  /-- whether a letter of a pattern matches a character under `re.IGNORECASE` -/
  ignoreCase : Char → Char → Bool
  upper : Text → Text
  lower : Text → Text
  word_colon : word ':' = false
  upper_colon : ∀ t, ':' ∈ upper t → ':' ∈ t
  lower_colon : ∀ t, ':' ∈ lower t → ':' ∈ t

variable (C : Chars)

/-! ## Lines -/

/-- `_strip_line_comment`; the flag says whether the place is quoted. -/
def stripLineComment : Bool → Text → Text
  | _, [] => []
  | true, '"' :: '"' :: rest => '"' :: '"' :: stripLineComment true rest
  | quoted, '"' :: rest => '"' :: stripLineComment (!quoted) rest
  | false, '/' :: '/' :: _ => []
  | quoted, c :: rest => c :: stripLineComment quoted rest

/-- `_strip_line_comment(line).strip()` -/
def codeOf (line : Text) : Text := stripChars (stripLineComment false line)

/-- `_mask_strings`, of a line without its comment. -/
def maskStrings : Bool → Text → Text
  | _, [] => []
  | true, '"' :: '"' :: rest => ' ' :: ' ' :: maskStrings true rest
  | quoted, '"' :: rest => ' ' :: maskStrings (!quoted) rest
  | quoted, c :: rest => (if quoted then ' ' else c) :: maskStrings quoted rest

/-- The loop of `_split_fields`: the field so far (last character first), whether the place is
quoted and how deep it is in brackets. `trailing` says whether the text ends in a comma. -/
def splitFrom (trailing : Bool) : Text → Bool → Nat → Text → List Text
  | current, _, _, [] => if current ≠ [] || trailing then [stripChars current.reverse] else []
  | current, true, depth, '"' :: '"' :: rest =>
    splitFrom trailing ('"' :: '"' :: current) true depth rest
  | current, quoted, depth, c :: rest =>
    if c = '"' then splitFrom trailing (c :: current) (!quoted) depth rest
    else if quoted then splitFrom trailing (c :: current) quoted depth rest
    else if c = '(' || c = '[' then splitFrom trailing (c :: current) quoted (depth + 1) rest
    else if c = ')' || c = ']' then splitFrom trailing (c :: current) quoted (depth - 1) rest
    else if depth = 0 && c = ',' then
      stripChars current.reverse :: splitFrom trailing [] quoted depth rest
    else splitFrom trailing (c :: current) quoted depth rest

/-- `_split_fields` -/
def splitFields (text : Text) : List Text :=
  splitFrom (text.getLast? = some ',') [] false 0 text

/-- A run of characters is the word of a pattern, under `re.IGNORECASE`. -/
def isWord (pattern : String) (t : Text) : Bool :=
  t.length = pattern.toList.length && (pattern.toList.zip t).all fun pc => C.ignoreCase pc.1 pc.2

/-- The words of a text. -/
def words (t : Text) : List Text := (t.splitOnP fun c => !C.word c).filter (· ≠ [])

/-- `re.findall(r"\b(?:BEGIN|END)\b", masked)`: whether each of them is a `BEGIN`. -/
def blockTokens (line : Text) : List Bool :=
  ((words C (maskStrings false (stripLineComment false line))).filter fun w =>
    isWord C "BEGIN" w || isWord C "END" w).map fun w => C.upper w = "BEGIN".toList

/-! ## Blocks -/

/-- The tokens of one line: the depth after them, and whether the block was closed. An `END` before
the first `BEGIN` is passed over. -/
def closeTokens : Nat → List Bool → Nat × Bool
  | depth, [] => (depth, false)
  | depth, true :: tokens => closeTokens (depth + 1) tokens
  | 0, false :: tokens => closeTokens 0 tokens
  | 1, false :: _ => (0, true)
  | depth + 2, false :: tokens => closeTokens (depth + 1) tokens

/-- `_block_end`, as the number of lines after the header; `offset` lines of them are read. -/
def blockLength (offset depth : Nat) : List Text → Nat
  | [] => 0
  | line :: rest =>
    let (depth', closed) := closeTokens depth (blockTokens C line)
    if closed then offset
    else if offset > 20000 then 0
    else blockLength (offset + 1) depth' rest

/-- `_BLOCK_RESOURCE_TYPES` -/
def blockResourceTypes : List Text :=
  ["ACCELERATORS", "AFX_DIALOG_LAYOUT", "DESIGNINFO", "DIALOG", "DIALOGEX", "MENU", "MENUEX",
    "STRINGTABLE", "TEXTINCLUDE", "TOOLBAR", "VERSIONINFO"].map String.toList

/-- The types that follow a resource's symbol. -/
def headerTypes : List String :=
  ["DIALOGEX", "DIALOG", "VERSIONINFO", "TEXTINCLUDE", "AFX_DIALOG_LAYOUT", "MENUEX", "MENU",
    "ACCELERATORS", "TOOLBAR", "ICON", "BITMAP", "CURSOR", "RCDATA", "HTML", "MANIFEST",
    "MESSAGETABLE", "AVI", "FONT"]

/-- The leading word of a text, and what follows it. -/
def leadingWord (t : Text) : Text × Text := (t.takeWhile C.word, t.dropWhile C.word)

/-- The leading run of characters that are no blanks, and what follows it without its blanks. -/
def leadingRun (t : Text) : Text × Text :=
  (t.takeWhile fun c => !isSpace c, (t.dropWhile fun c => !isSpace c).dropWhile isSpace)

/-- A decimal. -/
def decimal (n : Nat) : Text := (toString n).toList

/-- `_resource_header`: the symbol and the type. -/
def resourceHeader (code : Text) (line : Nat) : Option (Text × Text) :=
  if isWord C "STRINGTABLE" (leadingWord C code).1 then
    some ("STRINGTABLE@".toList ++ decimal line, "STRINGTABLE".toList)
  else
    let (run, rest) := leadingRun code
    let word := (leadingWord C rest).1
    if isWord C "GUIDELINES" run && isWord C "DESIGNINFO" word then
      some ("DESIGNINFO@".toList ++ decimal line, "DESIGNINFO".toList)
    else if headerTypes.any fun type => isWord C type word then some (run, C.upper word)
    else none

/-! ## Conditions -/

/-- A string on the stack of conditions, as it was put together. -/
inductive Condition where
  | expression (text : Text)
  | defined (name : Text)
  | notDefined (name : Text)
  | negated (condition : Condition)
  deriving DecidableEq

/-- The string itself. -/
def Condition.text : Condition → Text
  | .expression text => text
  | .defined name => "defined(".toList ++ name ++ [')']
  | .notDefined name => "!defined(".toList ++ name ++ [')']
  | .negated condition => "!(".toList ++ condition.text ++ [')']

/-- `_condition_text` -/
def conditionText (stack : List Condition) : Text :=
  " && ".toList.intercalate ((stack.reverse.map Condition.text).filter (· ≠ []))

/-- The keywords of the lines that the main loop takes for conditions. -/
def conditionKeywords : List Text :=
  ["if", "ifdef", "ifndef", "else", "elif", "endif"].map String.toList

/-- The keyword of a directive, and what follows it. -/
def directive (code : Text) : Option (Text × Text) :=
  match code with
  | '#' :: rest =>
    let (keyword, tail) := leadingWord C (rest.dropWhile isSpace)
    if keyword ∈ conditionKeywords then some (keyword, tail) else none
  | _ => none

/-- `\s+(.+)$`, stripped. -/
def argument (tail : Text) : Option Text :=
  if tail.head?.any isSpace && stripChars tail ≠ [] then some (stripChars tail) else none

/-- `_update_conditions` -/
def updateConditions (keyword tail : Text) (stack : List Condition) : List Condition :=
  if keyword = "if".toList then
    match argument tail with
    | some expression => .expression expression :: stack
    | none => stack
  else if keyword = "ifdef".toList then
    match argument tail with
    | some name => .defined name :: stack
    | none => stack
  else if keyword = "ifndef".toList then
    match argument tail with
    | some name => .notDefined name :: stack
    | none => stack
  else if keyword = "else".toList then
    match stack with
    | last :: outer => .negated last :: outer
    | [] => []
  else if keyword = "elif".toList then
    match argument tail, stack with
    | some expression, _ :: outer => .expression expression :: outer
    | _, _ => stack
  else stack.tail

/-! ## Identities -/

/-- `re.sub(r"[^A-Za-z0-9_.:-]+", "_", ...)`; the flag says whether the place is inside a run. -/
def stable : Bool → Text → Text
  | _, [] => []
  | inside, c :: rest =>
    if c.isAlphanum || c ∈ ['_', '.', ':', '-'] then c :: stable false rest
    else if inside then stable true rest
    else '_' :: stable true rest

/-- `stable_symbol` of a resource. -/
def stableSymbol (symbol : Text) (line : Nat) : Text :=
  stable false (if symbol = [] then "line_".toList ++ decimal line else symbol)

/-- `_resource_id` -/
def resourceId (relPath kind symbol : Text) (line : Nat) : Text :=
  "resource::".toList ++ relPath ++ "::".toList ++ kind ++ "::".toList ++ stableSymbol symbol line

/-- `_control_id` -/
def controlId (relPath dialogSymbol symbol : Text) (line : Nat) : Text :=
  "ui::".toList ++ relPath ++ "::".toList ++ dialogSymbol ++ "::".toList ++
    stable false (if symbol = [] then "anonymous".toList else symbol) ++ "::".toList ++ decimal line

/-! ## The payload -/

structure Resource where
  symbolId : Text
  qualifiedName : Text
  kind : Text
  resourceSymbol : Text
  language : Text
  /-- the stack of conditions when the resource was read -/
  conditions : List Condition
  filePath : Text
  startLine : Nat
  endLine : Nat

/-- `condition` -/
def Resource.condition (r : Resource) : Text := conditionText r.conditions

structure Control where
  symbolId : Text
  qualifiedName : Text
  controlType : Text
  resourceSymbol : Text
  dialogId : Text
  dialogSymbol : Text
  conditions : List Condition
  filePath : Text
  startLine : Nat

/-- A `CONTAINS` relation; the label of its source is `Resource`. -/
structure Relation where
  targetLabel : String
  sourceId : Text
  targetId : Text

structure Payload where
  resources : List Resource
  elements : List Control
  relations : List Relation
  /-- the type and the line of every block without an end -/
  diagnostics : List (Text × Nat)

/-! ## The inside of a block -/

/-- `_CONTROL_WITH_TEXT` -/
def controlWithText : List Text :=
  ["AUTO3STATE", "AUTOCHECKBOX", "AUTORADIOBUTTON", "CHECKBOX", "CTEXT", "DEFPUSHBUTTON",
    "GROUPBOX", "LTEXT", "PUSHBOX", "PUSHBUTTON", "RADIOBUTTON", "RTEXT", "STATE3"].map
    String.toList

/-- `_CONTROL_WITHOUT_TEXT` -/
def controlWithoutText : List Text :=
  ["COMBOBOX", "EDITTEXT", "LISTBOX", "SCROLLBAR"].map String.toList

/-- The symbol of a control, if there are enough fields for one. -/
def controlSymbol (keyword : Text) (fields : List Text) : Option Text :=
  if keyword = "CONTROL".toList && 8 ≤ fields.length then fields[1]?
  else if keyword = "ICON".toList && 6 ≤ fields.length then fields[1]?
  else if keyword ∈ controlWithText && 6 ≤ fields.length then fields[1]?
  else if keyword ∈ controlWithoutText && 5 ≤ fields.length then fields[0]?
  else none

/-- `_parse_control` -/
def parseControl (code : Text) (dialog : Resource) (line : Nat) : Option Control :=
  let word := code.takeWhile fun c => c.isAlphanum || c = '_'
  let tail := code.dropWhile fun c => c.isAlphanum || c = '_'
  if code.head?.any Char.isAlpha && tail.head?.any isSpace then
    let keyword := word.map Char.toUpper
    (controlSymbol keyword (splitFields (tail.dropWhile isSpace))).map fun field =>
      let symbol := stripChars field
      { symbolId := controlId dialog.filePath dialog.resourceSymbol symbol line
        qualifiedName :=
          dialog.resourceSymbol ++ "::".toList ++ symbol ++ ['@'] ++ decimal line
        controlType := keyword.map Char.toLower
        resourceSymbol := symbol
        dialogId := dialog.symbolId
        dialogSymbol := dialog.resourceSymbol
        conditions := dialog.conditions
        filePath := dialog.filePath
        startLine := line }
  else none

/-- The depth after the tokens of a line. -/
def depthAfter (depth : Int) (tokens : List Bool) : Int :=
  tokens.foldl (fun d begins => if begins then d + 1 else d - 1) depth

/-- The controls of the lines after the first `BEGIN`, from line `line` on. -/
def controlRows (dialog : Resource) (line : Nat) (depth : Int) : List Text → List Control
  | [] => []
  | raw :: rest =>
    (if depth = 1 then (parseControl (codeOf raw) dialog line).toList else []) ++
      controlRows dialog (line + 1) (depthAfter depth (blockTokens C raw)) rest

/-- `_parse_dialog` -/
def parseDialog (dialog : Resource) (line : Nat) : List Text → List Control
  | [] => []
  | raw :: rest =>
    if (words C (maskStrings false (stripLineComment false raw))).any (isWord C "BEGIN") then
      controlRows C dialog (line + 1) (depthAfter 0 (blockTokens C raw)) rest
    else parseDialog dialog (line + 1) rest

/-- `_parse_string_table`: a symbol and its line. -/
def parseStringTable (line : Nat) : List Text → List (Text × Nat)
  | [] => []
  | raw :: rest =>
    let (run, value) := leadingRun (codeOf raw)
    if value.head? = some '"' && value.getLast? = some '"' && 2 ≤ value.length then
      (run, line) :: parseStringTable (line + 1) rest
    else parseStringTable (line + 1) rest

/-! ## The main loop -/

/-- Where the loop stands: `index` lines are read, and `rest` are left. -/
structure Cursor where
  index : Nat
  rest : List Text
  conditions : List Condition
  language : Text
  payload : Payload

/-- `LANGUAGE ...` -/
def languageOf (code : Text) : Option Text :=
  let (run, rest) := leadingRun code
  if isWord C "LANGUAGE" run && rest ≠ [] then some (stripChars rest) else none

/-- The number of lines of a resource after its header. -/
def extent (type : Text) (lines : List Text) : Nat :=
  if type ∈ blockResourceTypes then blockLength C 0 0 lines else 0

/-- The resource of a header. -/
def declared (relPath : Text) (c : Cursor) (language symbol type : Text) : Resource where
  symbolId := resourceId relPath (C.lower type) symbol (c.index + 1)
  qualifiedName := relPath ++ "::".toList ++ symbol
  kind := C.lower type
  resourceSymbol := symbol
  language := language
  conditions := c.conditions
  filePath := relPath
  startLine := c.index + 1
  endLine := c.index + extent C type c.rest + 1

/-- The entry of a string table. -/
def stringChild (table : Resource) (entry : Text × Nat) : Resource where
  symbolId := resourceId table.filePath "string".toList entry.1 entry.2
  qualifiedName := table.filePath ++ "::".toList ++ entry.1
  kind := "string".toList
  resourceSymbol := entry.1
  language := table.language
  conditions := table.conditions
  filePath := table.filePath
  startLine := entry.2
  endLine := entry.2

/-- The resources of a header: its own and the entries of a string table. -/
def childResources (type : Text) (resource : Resource) (block : List Text) : List Resource :=
  if type = "STRINGTABLE".toList then
    (parseStringTable resource.startLine block).map (stringChild resource)
  else []

/-- The controls of a header. -/
def controlsOf (type : Text) (resource : Resource) (block : List Text) : List Control :=
  if type = "DIALOG".toList || type = "DIALOGEX".toList then
    parseDialog C resource resource.startLine block
  else []

/-- What one header adds to the payload. -/
def Payload.add (p : Payload) (type : Text) (resource : Resource) (lines : List Text) : Payload :=
  let block := lines.take (extent C type lines + 1)
  let controls := controlsOf C type resource block
  let children := childResources type resource block
  { resources := p.resources ++ resource :: children
    elements := p.elements ++ controls
    relations := p.relations ++
      (controls.map fun control => ⟨"UIControl", resource.symbolId, control.symbolId⟩) ++
      children.map fun child => ⟨"Resource", resource.symbolId, child.symbolId⟩
    diagnostics := p.diagnostics ++
      if type ∈ blockResourceTypes && extent C type lines = 0 then [(type, resource.startLine)]
      else [] }

/-- One round of the main loop. -/
def step (relPath : Text) (c : Cursor) : Cursor :=
  match c.rest with
  | [] => c
  | raw :: rest =>
    let code := codeOf raw
    match directive C code with
    | some (keyword, tail) =>
      { c with
        index := c.index + 1
        rest := rest
        conditions := updateConditions keyword tail c.conditions }
    | none =>
      let language := (languageOf C code).getD c.language
      match resourceHeader C code (c.index + 1) with
      | none => { c with index := c.index + 1, rest := rest, language := language }
      | some (symbol, type) =>
        { c with
          index := c.index + extent C type c.rest + 1
          rest := rest.drop (extent C type c.rest)
          language := language
          payload := c.payload.add C type (declared C relPath c language symbol type) c.rest }

/-- The start of the loop. -/
def start (lines : List Text) : Cursor := ⟨0, lines, [], [], ⟨[], [], [], []⟩⟩

/-- `parse_rc_file`, on the lines of the text. -/
def parseLines (relPath : Text) (lines : List Text) : Payload :=
  ((step C relPath)^[lines.length] (start lines)).payload

/-! ## Runs -/

variable {C} {relPath : Text} {lines : List Text} {c : Cursor}

theorem length_step (c : Cursor) : (step C relPath c).rest.length ≤ c.rest.length - 1 := by
  unfold step
  split
  · next h => simp [h]
  · next raw rest h =>
    rw [h]
    dsimp only
    split
    · simp
    · split
      · simp
      · simp only [List.length_drop, List.length_cons]
        omega

/-- **The rounds reach the end of the file.** -/
theorem rest_eq_nil : ((step C relPath)^[lines.length] (start lines)).rest = [] := by
  have hlength : ∀ n, ((step C relPath)^[n] (start lines)).rest.length ≤ lines.length - n := by
    intro n
    induction n with
    | zero => exact le_refl _
    | succ n ih =>
      rw [Function.iterate_succ_apply']
      have hstep := @length_step C relPath ((step C relPath)^[n] (start lines))
      omega
  exact List.length_eq_zero_iff.mp (Nat.le_zero.mp (by simpa using hlength lines.length))

/-- **What a round keeps** holds at the end. -/
theorem parseLines_invariant {I : Cursor → Prop} (hstart : I (start lines))
    (hstep : ∀ c, I c → I (step C relPath c)) :
    I ((step C relPath)^[lines.length] (start lines)) := by
  induction lines.length with
  | zero => exact hstart
  | succ n ih =>
    rw [Function.iterate_succ_apply']
    exact hstep _ ih

/-! ## Texts in ASCII -/

theorem colon_of_toUpper {c : Char} (h : c.toUpper = ':') : c = ':' := by
  by_cases hc : c.toNat < 128
  · exact ascii_induction (p := fun c => c.toUpper = ':' → c = ':') (by decide) hc h
  · unfold Char.toUpper at h
    split at h
    · next hlower => exact absurd hlower (by simp [UInt32.le_iff_toNat_le]; simp at hc; omega)
    · exact h

theorem colon_of_toLower {c : Char} (h : c.toLower = ':') : c = ':' := by
  by_cases hc : c.toNat < 128
  · exact ascii_induction (p := fun c => c.toLower = ':' → c = ':') (by decide) hc h
  · unfold Char.toLower at h
    split at h
    · next hlower => exact absurd hlower (by simp [UInt32.le_iff_toNat_le]; simp at hc; omega)
    · exact h

def asciiChars : Chars where
  word c := c.isAlphanum || c = '_'
  ignoreCase p c := c.toUpper = p
  upper t := t.map Char.toUpper
  lower t := t.map Char.toLower
  word_colon := rfl
  upper_colon t h := by
    obtain ⟨c, hc, he⟩ := List.mem_map.mp h
    exact colon_of_toUpper he ▸ hc
  lower_colon t h := by
    obtain ⟨c, hc, he⟩ := List.mem_map.mp h
    exact colon_of_toLower he ▸ hc

end CortexHarness.ResourceScript
