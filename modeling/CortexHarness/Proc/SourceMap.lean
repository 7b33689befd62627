import CortexHarness.Library.Offsets

/-!
# The line-directive source map

Model of `ProcMapEntry`, `ProcSourceMap.lookup` and `parse_line_directive_map`
(`proc_source_map.py:92-97`, `:129-323` and `:331-433`). A text is its list of characters. The map
of a generated text has one entry for each region that a `#line` directive of the original file
opens. The entries are laid out in characters, while `lookup` takes the byte span of an observation.

What the module takes from the standard library is a `Numerals`: the decimal digits of `\d` and
`int`, the limit on the length of a number, and `repr` in a diagnostic.
-/

namespace CortexHarness.Proc

open Offsets

/-- What the map takes from the standard library. -/
structure Numerals where
  /-- the value of a decimal digit, for the characters that `\d` matches -/
  digit : Char → Option Nat
  /-- `sys.get_int_max_str_digits()`, 0 for no limit -/
  maxStrDigits : Nat
  /-- `repr(text)` -/
  repr : String → String

/-! ## Entries and lookup -/

/-- `MAP_QUALITY_STATES`. -/
inductive MapQuality where
  | exactSpan
  | exactLine
  | lineDirective
  | inferred
  | missing
  | stale
  | invalid
  deriving Repr, DecidableEq

/-- `ProcMapEntry`. -/
structure ProcMapEntry where
  generatedStart : Nat
  generatedEnd : Nat
  originalStart : Int
  originalEnd : Int
  originalPath : String
  quality : MapQuality
  generatedCodeClass : String := "unmapped_generated"
  originalStartLine : Nat := 0
  originalEndLine : Nat := 0
  deriving Repr, DecidableEq

/-- `ProcMapEntry.__post_init__`. -/
def ProcMapEntry.validate (e : ProcMapEntry) : Except String ProcMapEntry :=
  if e.generatedEnd < e.generatedStart then .error "map spans must be ordered"
  else if 0 ≤ e.originalStart ∧ e.originalEnd < e.originalStart then
    .error "original byte span must be ordered when present"
  else if e.originalStart < 0 ∧ e.originalStartLine = 0 then
    .error "map entries require byte or line original coordinates"
  else if 0 < e.originalStartLine ∧ e.originalEndLine < e.originalStartLine then
    .error "original line span must be ordered when present"
  else .ok e

/-- `ProcMapEntry.covers`. -/
def ProcMapEntry.covers (e : ProcMapEntry) (start stop : Nat) : Bool :=
  e.generatedStart ≤ start && stop ≤ e.generatedEnd

/-- The status of a lookup. -/
inductive LookupStatus where
  | mapped
  | missing
  | conflict
  | stale
  | invalid
  deriving Repr, DecidableEq

/-- `SpanLookup`. -/
structure SpanLookup where
  status : LookupStatus
  quality : MapQuality := .missing
  originalPath : String := ""
  originalStart : Int := -1
  originalEnd : Int := -1
  originalStartLine : Nat := 0
  originalEndLine : Nat := 0
  generatedCodeClass : String := "unmapped_generated"
  reason : String := ""
  deriving Repr, DecidableEq

/-- `ProcSourceMap`, with its diagnostics as pairs of a code and a message. -/
structure ProcSourceMap where
  entries : List ProcMapEntry
  diagnostics : List (String × String)

/-- `ProcSourceMap.invalid_reason`. -/
def ProcSourceMap.invalidReason (map : ProcSourceMap) : String :=
  ((map.diagnostics.find? fun d => d.1 = "map_invalid").map Prod.snd).getD ""

/-- `ProcSourceMap._line_distance`. -/
def lineDistance (a b : Nat) : Nat := if a = b then 0 else 1

/-- The target of an entry, as the conflict check compares it. -/
def ProcMapEntry.target (e : ProcMapEntry) : String × Int × Int × Nat × Nat :=
  (e.originalPath, e.originalStart, e.originalEnd, e.originalStartLine, e.originalEndLine)

/-- The projection of a span through an entry. -/
def ProcMapEntry.project (e : ProcMapEntry) (start stop : Nat) : SpanLookup :=
  let offset : Int := (start : Int) - e.generatedStart
  let length : Int := (stop : Int) - start
  let line := e.originalStartLine + lineDistance e.generatedStart start
  { status := .mapped
    quality := e.quality
    originalPath := e.originalPath
    generatedCodeClass := e.generatedCodeClass
    originalStart := if 0 ≤ e.originalStart then e.originalStart + offset else -1
    originalEnd := if 0 ≤ e.originalStart then e.originalStart + offset + length else -1
    originalStartLine := if 0 < e.originalStartLine then line else 0
    originalEndLine := if 0 < e.originalStartLine then line else 0 }

/-- `ProcSourceMap.lookup`. -/
def ProcSourceMap.lookup (map : ProcSourceMap) (start stop : Nat) : SpanLookup :=
  if map.invalidReason ≠ "" then
    { status := .invalid, quality := .invalid, reason := map.invalidReason }
  else
    let covering := map.entries.filter fun e => e.covers start stop
    if covering.any fun e => e.quality = .stale then
      { status := .stale, quality := .stale
        reason := "covering map entry is stale; quarantine previous evidence" }
    else
      let usable := covering.filter fun e => e.quality ≠ .missing && e.quality ≠ .invalid
      match usable with
      | [] => { status := .missing, reason := "no usable map entry covers the generated span" }
      | e :: _ =>
        if 1 < (usable.map ProcMapEntry.target).dedup.length then
          { status := .conflict, quality := .invalid
            reason := "multiple map entries disagree on the original target" }
        else e.project start stop

/-! ## Directives -/

variable (nm : Numerals)

/-- `[ \t]`. -/
def isBlank (c : Char) : Bool := c = ' ' || c = '\t'

/-- `\d`. -/
def isDigit (c : Char) : Bool := (nm.digit c).isSome

/-- `(?:"([^"]*)")?`, with the text after it. -/
def matchPath : List Char → Option (List Char) × List Char
  | '"' :: rest =>
    match rest.dropWhile (· ≠ '"') with
    | _ :: after => (some (rest.takeWhile (· ≠ '"')), after)
    | [] => (none, '"' :: rest)
  | rest => (none, rest)

/-- `_LINE_DIRECTIVE_RE` at the start of a line: the number, the path and the text after. No part of
the pattern can match what the next one starts with, so it matches without backtracking. -/
def matchDirective (line : List Char) : Option (List Char × Option (List Char) × List Char) :=
  match line.dropWhile isBlank with
  | '#' :: line =>
    match line.dropWhile isBlank with
    | 'l' :: 'i' :: 'n' :: 'e' :: line =>
      let after := line.dropWhile isBlank
      let number := after.takeWhile (isDigit nm)
      if (line.takeWhile isBlank).isEmpty || number.isEmpty then none
      else
        let (path, rest) := matchPath ((after.dropWhile (isDigit nm)).dropWhile isBlank)
        some (number, path, rest)
    | _ => none
  | _ => none

/-- A match of `_LINE_DIRECTIVE_RE`. -/
structure DirectiveMatch where
  start : Nat
  number : List Char
  path : Option (List Char)
  deriving Repr, DecidableEq

/-- `_LINE_DIRECTIVE_RE.finditer`, from a position on: `skip` characters belong to the last match,
and `atStart` says whether a line starts here. -/
def findDirectives (pos skip : Nat) (atStart : Bool) : List Char → List DirectiveMatch
  | [] => []
  | c :: text =>
    let next := findDirectives (pos + 1) (skip - 1) (c = '\n') text
    if 0 < skip || !atStart then next
    else
      match matchDirective nm (c :: text) with
      | none => next
      | some (number, path, rest) =>
        { start := pos, number, path } ::
          findDirectives (pos + 1) (text.length - rest.length) (c = '\n') text

/-- The value of a run of digits. -/
def decimal (digits : List Char) : Nat :=
  digits.foldl (fun n c => 10 * n + (nm.digit c).getD 0) 0

/-- `int(digits)`. -/
def int (digits : List Char) : Except String Nat :=
  if nm.maxStrDigits ≠ 0 ∧ nm.maxStrDigits < digits.length then
    .error "Exceeds the limit for integer string conversion"
  else .ok (decimal nm digits)

/-! ## The map of a generated text -/

/-- `generated_text.split("\n")`. -/
def linesOf (text : List Char) : List (List Char) := text.splitOn '\n'

/-- `line_starts`, with the offset after the last line. -/
def lineStarts (text : List Char) : List Nat × Nat :=
  layout ((linesOf text).map fun line => line.length + 1)

/-- `line_of_position`. -/
def lineOfPosition (starts : List Nat) (pos : Nat) : Nat :=
  bisect (fun mid => starts.getD mid 0 ≤ pos) 0 (starts.length - 1) + 1

/-- An element of `marks`: the first generated line of a region, the original line and the file. -/
structure Mark where
  genLine : Nat
  origLine : Nat
  target : String

/-- `match.group(2) or original_path`. -/
def DirectiveMatch.target (m : DirectiveMatch) (originalPath : String) : String :=
  match m.path with
  | some (c :: path) => String.ofList (c :: path)
  | _ => originalPath

/-- The `marks` loop. -/
def marks (originalPath : String) (text : List Char) : Except String (List Mark) :=
  (findDirectives nm 0 0 true text).mapM fun m => do
    let origLine ← int nm m.number
    return {
      genLine := lineOfPosition (lineStarts text).1 m.start + 1
      origLine
      target := m.target originalPath }

/-- `_LineRegion`. -/
structure LineRegion where
  genLineStart : Nat
  genLineEnd : Nat
  origLineStart : Nat
  originalPath : String
  genByteStart : Nat
  genByteEnd : Nat

/-- The last line of the region of a mark, given the marks after it. -/
def endLine (lineCount : Nat) : List Mark → Nat
  | [] => lineCount
  | next :: _ => next.genLine - 1

/-- The `regions` loop: the regions of the original file, and the diagnostics of the others. -/
def regions (originalPath : String) (text : List Char) :
    List Mark → List LineRegion × List (String × String)
  | [] => ([], [])
  | mark :: rest =>
    let (found, diagnostics) := regions originalPath text rest
    let stop := endLine (linesOf text).length rest
    if stop < mark.genLine then (found, diagnostics)
    else if mark.target ≠ originalPath then
      (found, ("map_foreign_line_target", "#line region at generated line " ++
        toString mark.genLine ++ " targets " ++ nm.repr mark.target ++
        ", not the bundle original") :: diagnostics)
    else
      let (starts, total) := lineStarts text
      let totalBytes := if text.isEmpty then 0 else total
      let genByteStart := starts.getD (mark.genLine - 1) 0
      let region : LineRegion := {
        genLineStart := mark.genLine
        genLineEnd := stop
        origLineStart := mark.origLine
        originalPath := mark.target
        genByteStart
        genByteEnd := if stop < starts.length then starts.getD stop 0
          else max totalBytes genByteStart }
      (region :: found, diagnostics)

/-- `MAX_MAP_ENTRIES`. -/
def maxMapEntries : Nat := 200000

/-- The entry of a region. -/
def LineRegion.entry (region : LineRegion) : Except String ProcMapEntry :=
  ProcMapEntry.validate {
    generatedStart := region.genByteStart
    generatedEnd := region.genByteEnd
    originalStart := -1
    originalEnd := -1
    originalPath := region.originalPath
    quality := .lineDirective
    originalStartLine := region.origLineStart
    originalEndLine := region.origLineStart + (region.genLineEnd - region.genLineStart) }

/-- `parse_line_directive_map`. -/
def parseLineDirectiveMap (originalPath : String) (text : List Char) :
    Except String ProcSourceMap := do
  let found ← marks nm originalPath text
  let (kept, foreign) := regions nm originalPath text found
  let entries ← (kept.take maxMapEntries).mapM LineRegion.entry
  let cap := if maxMapEntries < kept.length then
    [("map_entry_cap", "map regions capped at " ++ toString maxMapEntries)] else []
  let none := if found.isEmpty then
    [("map_no_line_directives", "generated artifact contains no #line directives")] else []
  return { entries, diagnostics := foreign ++ cap ++ none }

end CortexHarness.Proc
