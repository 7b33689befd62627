import CortexHarness.Library.Python
import CortexHarness.Library.Dict
import CortexHarness.Proc.Masking

/-!
# What a region says of its statement

Model of the patterns that `_mask_executable_sql` and `analyze_proc_file` read off the text of an
`EXEC SQL` block (`proc_analyzer.py:133-141`, `:292-334`, `:756-776`): the operation, the host
variables, the tables, and the name of a cursor. They are functions of the text of the region, where
the source keeps them as its fields; the `indicator_variables`, which nothing here reads, are left
out.

`re.IGNORECASE` matches a letter with its two cases and with the characters that fold to it, which
are four beyond ASCII (`caseless`). `str.upper` of one character is a parameter.
-/

namespace CortexHarness.Proc

variable (cd : Codecs) (upper : Char → List Char)

/-! ## Patterns -/

/-- A letter of a pattern, under `re.IGNORECASE`. -/
def caseless (letter c : Char) : Bool :=
  c = letter || c = letter.toLower || (letter = 'S' && c = 'ſ') ||
    (letter = 'I' && (c = 'İ' || c = 'ı')) || (letter = 'K' && c.toNat = 0x212a)

/-- `[A-Z]`, under `re.IGNORECASE`. -/
def caselessLetter (c : Char) : Bool :=
  c.isAlpha || c = 'ſ' || c = 'İ' || c = 'ı' || c.toNat = 0x212a

/-- `[A-Za-z_]` and `[A-Za-z0-9_]*`. -/
def identifier : List Char → List Char
  | c :: text =>
    if c.isAlpha || c = '_' then c :: text.takeWhile (fun c => c.isAlphanum || c = '_') else []
  | [] => []

/-- The text after a word of the pattern. -/
def afterWord (word text : List Char) : Option (List Char) :=
  if word.length ≤ text.length ∧ (word.zip text).all (fun p => caseless p.1 p.2) = true then
    some (text.drop word.length)
  else none

/-- `\s+` -/
def afterSpaces (text : List Char) : Option (List Char) :=
  if (text.takeWhile isSpace).isEmpty then none else some (text.dropWhile isSpace)

/-- `pattern.search(text)`, of a pattern that matches no empty text. -/
def search {α : Type} (pattern : List Char → Option α) : List Char → Option α
  | [] => none
  | c :: text =>
    match pattern (c :: text) with
    | some found => some found
    | none => search pattern text

/-- `text.upper()`. -/
def upperText (text : List Char) : List Char := text.flatMap upper

/-- `_OP_RE` -/
def operationAt (text : List Char) : Option (List Char) := do
  let text ← afterWord ['E', 'X', 'E', 'C'] text
  let text ← afterSpaces text
  let text ← afterWord ['S', 'Q', 'L'] text
  let text ← afterSpaces text
  let operation := text.takeWhile caselessLetter
  if operation.isEmpty then none else some operation

/-- `region.operation` -/
def operationOf (rawText : List Char) : List Char :=
  match search operationAt rawText with
  | some operation => upperText upper operation
  | none => []

/-- `region.operation_upper` -/
def operationUpper (rawText : List Char) : String :=
  String.ofList (upperText upper (operationOf upper rawText))

/-- `_HOST_VAR_RE.findall(text)`: `skip` characters belong to the last match. -/
def hostMatches (skip : Nat) : List Char → List (List Char)
  | [] => []
  | c :: text =>
    if 0 < skip then hostMatches (skip - 1) text
    else
      let name := if c = ':' then identifier text else []
      if name.isEmpty then hostMatches 0 text else name :: hostMatches name.length text

/-- `region.host_variables` -/
def hostVariables (rawText : List Char) : List String :=
  ((hostMatches 0 rawText).map String.ofList).eraseDups

/-- The words of `_TABLE_HINT_RE`. -/
def tableWords : List (List Char) :=
  [['F', 'R', 'O', 'M'], ['I', 'N', 'T', 'O'], ['U', 'P', 'D', 'A', 'T', 'E'], ['J', 'O', 'I', 'N'],
    ['T', 'A', 'B', 'L', 'E']]

/-- The name of a table. -/
def tableName : List Char → List Char
  | c :: text =>
    if caselessLetter c || c = '_' then
      c :: text.takeWhile fun c => caselessLetter c || c.isDigit || c = '_' || c = '.'
    else []
  | [] => []

/-- `_TABLE_HINT_RE`, after the character `before`: the name, and the length of the match. -/
def tableAt (before : Option Char) (text : List Char) : Option (List Char × Nat) :=
  if boundary cd before text.head? then
    tableWords.findSome? fun word => do
      let name ← afterWord word text >>= afterSpaces
      if (tableName name).isEmpty then none
      else some (tableName name, text.length - name.length + (tableName name).length)
  else none

/-- `_TABLE_HINT_RE.finditer(text)`: `skip` characters belong to the last match. -/
def tableMatches (before : Option Char) (skip : Nat) : List Char → List (List Char)
  | [] => []
  | c :: text =>
    if 0 < skip then tableMatches (some c) (skip - 1) text
    else
      match tableAt cd before (c :: text) with
      | some (name, length) => name :: tableMatches (some c) (length - 1) text
      | none => tableMatches (some c) 0 text

/-- `region.targets` -/
def targetsOf (rawText : List Char) : List String :=
  (((tableMatches cd none 0 rawText).map fun name => String.ofList (upperText upper name)).filter
    fun value => value ∉ ["DUAL", "SQLCA", "SQLDA"]).eraseDups

/-- `region.is_dynamic` -/
def isDynamic (rawText : List Char) : Bool :=
  (search (fun text => do
    let text ← afterWord "EXECUTE".toList text
    let text ← afterSpaces text
    afterWord "IMMEDIATE".toList text) rawText).isSome

/-! ## Cursors -/

/-- `"CURSOR" in region.code.upper()` -/
def namesCursor (code : List Char) : Bool := (findText "CURSOR".toList (upperText upper code)).isSome

/-- The name after one keyword, in `_extract_cursor_name`. -/
def cursorAfter (code : List Char) (keyword : List Char) : Option (List Char) := do
  let idx ← findText (keyword ++ [' ']) (upperText upper code)
  let after := (code.drop (idx + keyword.length + 1)).dropWhile isSpace
  let after :=
    if keyword = "DECLARE".toList ∧ "CURSOR ".toList <+: upperText upper after then
      (after.drop "CURSOR ".toList.length).dropWhile isSpace
    else after
  if (identifier after).isEmpty then none else some (identifier after)

/-- `_extract_cursor_name` -/
def extractCursorName (code : List Char) : Option String :=
  (["DECLARE".toList, "OPEN".toList, "CLOSE".toList, "FETCH".toList].findSome?
    (cursorAfter upper code)).map String.ofList

end CortexHarness.Proc
