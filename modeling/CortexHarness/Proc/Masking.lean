import CortexHarness.Library.Python

/-!
# Masking the embedded SQL

Model of `_decode_source`, `_mask_executable_sql` and `prepare_proc_bytes`
(`proc_analyzer.py:92-389`). A text is its list of characters. The scanner walks the text from left
to right: it copies comments, literals and raw strings as they are, and replaces an `EXEC SQL` block,
up to its `;`, by spaces and newlines, one for each character. What a round of the loop takes from
the text is a `Lexeme`.

The codec tables and `\w` are a `Codecs`. What a region says about its statement (operation, tables,
host variables) is left out.
-/

namespace CortexHarness.Proc

/-- What the analyzer takes from the standard library beside UTF-8. -/
structure Codecs where
  /-- `raw.decode("cp932")`, unless it raises -/
  cp932 : List UInt8 → Option (List Char)
  /-- `raw.decode("utf-8", errors="replace")` -/
  replace : List UInt8 → List Char
  /-- `\w` -/
  word : Char → Bool

/-- `text.encode("utf-8")`. -/
def encode (text : List Char) : List UInt8 := text.flatMap String.utf8EncodeChar

/-- `raw.decode("utf-8")`, unless it raises. -/
def decodeUtf8 (raw : List UInt8) : Option (List Char) :=
  raw.toByteArray.utf8Decode?.map Array.toList

/-- `ProcDiagnostic`. -/
structure ProcDiagnostic where
  code : String
  message : String
  startLine : Nat
  deriving Repr, DecidableEq

/-- `_decode_source`. -/
def decodeSource (cd : Codecs) (raw : List UInt8) : List Char × String × List ProcDiagnostic :=
  match decodeUtf8 raw with
  | some text => (text, "utf-8", [])
  | none =>
    match cd.cp932 raw with
    | some text => (text, "cp932",
        [{ code := "encoding_fallback"
           message := "UTF-8 decode failed; fell back to CP932"
           startLine := 0 }])
    | none => (cd.replace raw, "utf-8-replace",
        [{ code := "encoding_replacement"
           message := "Source bytes were not valid UTF-8 or CP932; using replacement characters"
           startLine := 0 }])

/-! ## The lexemes of a source -/

/-- `text.find(needle)`. -/
def findText (needle : List Char) : List Char → Option Nat
  | [] => if needle.isEmpty then some 0 else none
  | c :: text =>
    if needle.isPrefixOf (c :: text) then some 0 else (findText needle text).map (· + 1)

/-- The length of a literal after its opening quote, with the closing one. -/
def literal (quote : Char) : List Char → Nat
  | [] => 0
  | '\\' :: _ :: text => literal quote text + 2
  | c :: text => if c = quote then 1 else literal quote text + 1

/-- The length of a comment that ends with `marker`, or with the text. -/
def comment (marker source : List Char) : Nat :=
  match findText marker (source.drop 2) with
  | some stop => 2 + stop + marker.length
  | none => source.length

/-- The length of a raw string literal, where one starts. -/
def rawString (source : List Char) : Option Nat :=
  match source with
  | 'R' :: '"' :: body =>
    (findText ['('] body).map fun paren =>
      let marker := ')' :: body.take paren ++ ['"']
      match findText marker (body.drop (paren + 1)) with
      | some stop => 3 + paren + stop + marker.length
      | none => source.length
  | _ => none

/-- A letter of the pattern, ignoring case: the long s folds to `s`. -/
def sameLetter (letter c : Char) : Bool :=
  c = letter || c = letter.toLower || (letter = 'S' && c = 'ſ')

/-- The text after letters of the pattern. -/
def matchLetters : List Char → List Char → Option (List Char)
  | [], text => some text
  | letter :: letters, c :: text => if sameLetter letter c then matchLetters letters text else none
  | _ :: _, [] => none

variable (cd : Codecs)

/-- `\b` between two characters. -/
def boundary (before after : Option Char) : Bool :=
  before.any cd.word != after.any cd.word

/-- The length of a match of `\bEXEC\s+SQL\b`, after the character `before`. -/
def execSql (before : Option Char) (source : List Char) : Option Nat :=
  if boundary cd before source.head? then do
    let spaces ← matchLetters ['E', 'X', 'E', 'C'] source
    if (spaces.takeWhile isSpace).isEmpty then none
    else
      let after ← matchLetters ['S', 'Q', 'L'] (spaces.dropWhile isSpace)
      let length := source.length - after.length
      if boundary cd source[length - 1]? after.head? then some length else none
  else none

/-- How far the `;` of a block is, `depth` parentheses deep: comments and literals are skipped. -/
def terminator (depth skip : Nat) : List Char → Option Nat
  | [] => none
  | c :: text =>
    let after (depth skip : Nat) := (terminator depth skip text).map (· + 1)
    if 0 < skip then after depth (skip - 1)
    else if ['/', '*'].isPrefixOf (c :: text) then
      match findText ['*', '/'] (text.drop 1) with
      | some stop => after depth (stop + 3)
      | none => none
    else if c = '"' || c = '\'' then after depth (literal c text)
    else if c = '(' then after (depth + 1) 0
    else if c = ')' then after (depth - 1) 0
    else if c = ';' && depth = 0 then some 0
    else after depth 0

/-- What one round of the loop takes from the source: text to copy, or an `EXEC SQL` block, that has
its terminator or runs to the end. -/
inductive Lexeme where
  | verbatim (text : List Char)
  | block (text : List Char) (terminated : Bool)
  deriving Repr, DecidableEq

/-- The text of a lexeme. -/
def Lexeme.text : Lexeme → List Char
  | .verbatim text => text
  | .block text _ => text

/-- One round of the loop, after the character `before`. -/
def lexemeAt (before : Option Char) (source : List Char) : Lexeme :=
  if ['/', '*'].isPrefixOf source then .verbatim (source.take (comment ['*', '/'] source))
  else if ['/', '/'].isPrefixOf source then .verbatim (source.take (comment ['\n'] source))
  else if source.head? = some '"' then .verbatim (source.take (literal '"' source.tail + 1))
  else if source.head? = some '\'' then .verbatim (source.take (literal '\'' source.tail + 1))
  else
    match rawString source with
    | some length => .verbatim (source.take length)
    | none =>
      match execSql cd before source with
      | none => .verbatim (source.take 1)
      | some length =>
        match terminator 0 0 (source.drop length) with
        | some stop => .block (source.take (length + stop + 1)) true
        | none => .block source false

/-- The loop: `skip` characters belong to the last lexeme. -/
def lexemes (before : Option Char) (skip : Nat) : List Char → List Lexeme
  | [] => []
  | c :: source =>
    if 0 < skip then lexemes (some c) (skip - 1) source
    else
      let lexeme := lexemeAt cd before (c :: source)
      lexeme :: lexemes (some c) (lexeme.text.length - 1) source

/-! ## The masked text and its regions -/

/-- The mask of a block. -/
def maskText (text : List Char) : List Char := text.map fun c => if c = '\n' then '\n' else ' '

/-- What a lexeme adds to the output. -/
def Lexeme.output : Lexeme → List Char
  | .verbatim text => text
  | .block text _ => maskText text

/-- `ProcRegion`. -/
structure ProcRegion where
  startByte : Nat
  endByte : Nat
  startLine : Nat
  endLine : Nat
  rawText : List Char
  deriving Repr, DecidableEq

/-- `_line_from_byte`, of the text before the position. -/
def lineAfter (before : List Char) : Nat := before.count '\n' + 1

/-- The regions of the lexemes that follow the text `before`. -/
def regionsAfter (before : List Char) : List Lexeme → List ProcRegion
  | [] => []
  | .verbatim text :: rest => regionsAfter (before ++ text) rest
  | .block text _ :: rest =>
    { startByte := (encode before).length
      endByte := (encode (before ++ text)).length
      startLine := lineAfter before
      endLine := lineAfter (before ++ text)
      rawText := text } :: regionsAfter (before ++ text) rest

/-- The diagnostics of the lexemes that follow the text `before`. -/
def diagnosticsAfter (before : List Char) : List Lexeme → List ProcDiagnostic
  | [] => []
  | .block text false :: rest =>
    { code := "unterminated_exec_sql"
      message := "EXEC SQL block did not terminate before EOF"
      startLine := lineAfter before } :: diagnosticsAfter (before ++ text) rest
  | lexeme :: rest => diagnosticsAfter (before ++ lexeme.text) rest

/-- `_mask_executable_sql`. -/
def maskExecutableSql (source : List Char) :
    List Char × List ProcRegion × List ProcDiagnostic :=
  let found := lexemes cd none 0 source
  (found.flatMap Lexeme.output, regionsAfter [] found, diagnosticsAfter [] found)

/-- `PreparedProcSource`. -/
structure PreparedProcSource where
  sourceBytes : List UInt8
  maskedBytes : List UInt8
  encoding : String
  regions : List ProcRegion
  diagnostics : List ProcDiagnostic

/-- `prepare_proc_bytes`. -/
def prepareProcBytes (raw : List UInt8) : PreparedProcSource :=
  let (text, encoding, decoding) := decodeSource cd raw
  let (masked, regions, lexing) := maskExecutableSql cd text
  let mismatch := if (encode text).length ≠ (encode masked).length then
    [{ code := "mask_length_mismatch"
       message := "Masked bytes length differs from source bytes length; " ++
         "downstream C parser will see misaligned offsets"
       startLine := 0 }] else []
  { sourceBytes := encode text
    maskedBytes := encode masked
    encoding
    regions
    diagnostics := decoding ++ (lexing ++ mismatch) }

end CortexHarness.Proc
