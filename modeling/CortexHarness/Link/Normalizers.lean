import Mathlib.Data.List.Sort
import CortexHarness.Library.Python

/-!
# Identifiers in prose and in code

The normalizers of the link build. An identifier is compared by its match key, the list of its
lower-case words; `extractIdentifierTokens` finds the identifier-like tokens of a text, and
`buildMatchIndex` lists the symbols under each of their keys.

The three patterns are scanned by hand (`wordAt`, `dottedAt`, `routeAt`): in each of them the
longest match is the only one that can end where it has to, so there is nothing to backtrack to.
-/

namespace CortexHarness.Link

/-- What the standard library knows about characters beyond ASCII. -/
structure Unicode where
  /-- `\w` of a pattern -/
  isWord : Char → Bool
  isUpper : Char → Bool
  isDigit : Char → Bool
  casefold : String → String
  /-- `unicodedata.normalize("NFC", text)` -/
  nfc : String → String
  /-- `unicodedata.normalize("NFD", text)` -/
  nfd : String → String

/-- `EXACT_NAME_PROVENANCE` -/
def exactNameProvenance : String := "exact-name"

/-- `EXACT_NAME_SCORE` -/
def exactNameScore : Rat := 1

/-- `MIN_TOKEN_LENGTH` -/
def minTokenLength : Nat := 4

/-- `STOPWORDS` -/
def stopwords : List String :=
  ["init", "setup", "run", "handle", "main", "exec", "execute", "process", "start", "stop", "load",
    "save", "open", "close", "read", "write", "parse", "build", "make", "check", "create", "update",
    "delete", "remove", "add", "get", "set", "put", "post", "send", "recv", "call", "apply", "do",
    "use", "used", "using", "new", "test", "tests", "spec", "example", "samples", "demo", "tmp",
    "temp", "misc", "utils", "util", "helper", "helpers", "common", "general", "base", "default",
    "config", "data", "info", "item", "items", "value", "values", "name", "type", "kind", "node",
    "nodes", "list", "dict", "map", "set", "entry", "result", "results", "output", "input", "param",
    "params", "args", "source", "code", "screen", "components", "component", "confirm", "dispose",
    "disposing", "sender", "eventargs", "eventsender", "event", "initializecomponent", "initialize",
    "suspendlayout", "resumelayout", "performlayout", "suspend", "resume", "perform", "layout",
    "container", "resources", "defaultinstance", "system", "status", "header", "detail", "button",
    "label", "panel", "column", "record", "table", "master", "search", "target", "option", "number",
    "amount", "format", "length", "message", "action", "method", "object", "module", "window",
    "dialog", "report", "folder", "client", "index", "count", "total", "error", "errors", "clear",
    "focus", "enabled", "visible", "active", "change", "dummy", "select", "order", "insert",
    "group", "left", "right", "inner", "outer", "join", "where", "having", "distinct", "into",
    "step", "only", "begin", "max", "min", "spread", "self", "this", "none", "null", "nil", "true",
    "false", "void", "int", "str", "string", "bool", "float", "double", "long", "char", "byte",
    "def", "func", "function", "class", "struct", "enum", "interface", "return", "import", "from",
    "const", "let", "var", "public", "private", "static", "async", "await", "if", "else", "for",
    "while", "try", "catch", "finally", "with", "as", "in", "is", "not", "and", "or", "case",
    "switch", "break", "continue", "throw", "throws", "extends", "implements", "package",
    "namespace", "using", "include"]

/-! ## Match keys -/

/-- `[A-Za-z_]` -/
def identStart (c : Char) : Bool := c.isAlpha || c == '_'

/-- `[A-Za-z0-9_]` -/
def identRest (c : Char) : Bool := c.isAlphanum || c == '_'

/-- The runs of characters that satisfy `p`, as `findall` of a character class returns them. -/
def runs (p : Char → Bool) (text : List Char) : List (List Char) :=
  (text.splitOnP fun c => !p c).filter fun run => !run.isEmpty

/-- `_split_camel`, with the word read so far. -/
def splitCamel (buffer : List Char) : List Char → List (List Char)
  | [] => if buffer.isEmpty then [] else [buffer]
  | c :: cs =>
    match buffer.getLast? with
    | none => splitCamel [c] cs
    | some last =>
      if c.isUpper && (last.isLower || last.isDigit || (last.isUpper && cs.head?.any Char.isLower))
      then buffer :: splitCamel [c] cs
      else splitCamel (buffer ++ [c]) cs

/-- `split_identifier_words`, which is also `token_match_key`. -/
def tokenMatchKey (value : String) : List String :=
  ((runs Char.isAlphanum (strip value).toList).flatMap (splitCamel [])).map fun word =>
    String.ofList (word.map Char.toLower)

/-- `qualified_segments` -/
def qualifiedSegments (qualifiedName : String) : List String :=
  let parts := runs (· != '.') (strip qualifiedName).toList
  parts.tails.filterMap fun suffix =>
    if suffix.isEmpty then none else some (String.ofList (['.'].intercalate suffix))

/-- `is_linkable_token` -/
def isLinkableToken (value : String) : Bool :=
  let key := tokenMatchKey value
  let joined := key.flatMap String.toList
  !key.isEmpty && minTokenLength ≤ joined.length && !joined.all Char.isDigit &&
    !key.all fun word => stopwords.contains word

/-- `is_linkable_entity_token` -/
def isLinkableEntityToken (u : Unicode) (value : String) : Bool :=
  let raw := (strip value).toList
  !raw.isEmpty && !raw.any isSpace && isLinkableToken (strip value) &&
    (raw.any (fun c => c == '_' || c == '.' || c == '/' || c == '-') ||
      raw.any (fun c => c.isDigit || u.isDigit c) ||
      raw.tail.any fun c => c.isUpper || u.isUpper c)

/-! ## Tokens of a text -/

variable (u : Unicode)

/-- `\w` -/
def word (c : Char) : Bool := identRest c || u.isWord c

/-- `\b` between two neighbours. -/
def boundary (prev next : Option Char) : Bool := prev.any (word u) != next.any (word u)

/-- `[A-Za-z_][A-Za-z0-9_]*` at the start of the text, and what follows. -/
def identAt (text : List Char) : Option (List Char × List Char) :=
  if text.head?.any identStart then some (text.span identRest) else none

/-- `_WORD_RE`: the length of the match. -/
def wordAt (prev : Option Char) (text : List Char) : Option Nat :=
  match identAt text with
  | some (token, rest) =>
    if boundary u prev text.head? && boundary u token.getLast? rest.head? then some token.length
    else none
  | none => none

/-- The length of `(?:\.[A-Za-z_][A-Za-z0-9_]*)*` up to a boundary. -/
def dottedRest : Nat → List Char → Nat
  | fuel + 1, '.' :: text =>
    match identAt text with
    | some (token, rest) =>
      if boundary u token.getLast? rest.head? then 1 + token.length + dottedRest fuel rest else 0
    | none => 0
  | _, _ => 0

/-- `_DOTTED_RE` -/
def dottedAt (prev : Option Char) (text : List Char) : Option Nat :=
  match identAt text with
  | some (token, rest) =>
    let more := dottedRest u rest.length rest
    if boundary u prev text.head? && more != 0 then some (token.length + more) else none
  | none => none

/-- The length of `(?:/[A-Za-z_][A-Za-z0-9_]*)*`. -/
def routeRest : Nat → List Char → Nat
  | fuel + 1, '/' :: text =>
    match identAt text with
    | some (token, rest) => 1 + token.length + routeRest fuel rest
    | none => 0
  | _, _ => 0

/-- `_ROUTE_RE` -/
def routeAt (_ : Option Char) (text : List Char) : Option Nat :=
  match text with
  | '/' :: text =>
    match identAt text with
    | some (token, rest) =>
      let more := routeRest rest.length rest
      if more != 0 then some (1 + token.length + more) else none
    | none => none
  | _ => none

/-- `finditer`: the matches with their starts, from position `start` on. -/
def findIter (matchAt : Option Char → List Char → Option Nat) :
    (fuel start : Nat) → Option Char → List Char → List (Nat × List Char)
  | 0, _, _, _ => []
  | fuel + 1, start, prev, text =>
    match matchAt prev text, text with
    | some n, _ =>
      (start, text.take n) ::
        findIter matchAt fuel (start + n) (text.take n).getLast? (text.drop n)
    | none, c :: text => findIter matchAt fuel (start + 1) (some c) text
    | none, [] => []

/-- `pattern.finditer(text)` -/
def findAll (matchAt : Option Char → List Char → Option Nat) (text : List Char) :
    List (Nat × List Char) := findIter matchAt (text.length + 1) 0 none text

/-- `token.strip(".,;:!?()[]\x7b\x7d'\"")` -/
def stripPunctuation (token : List Char) : List Char :=
  let marks := ['.', ',', ';', ':', '!', '?', '(', ')', '[', ']', '{', '}', Char.ofNat 39, '"']
  ((token.dropWhile marks.contains).reverse.dropWhile marks.contains).reverse

/-- The test that a bare word looks like an identifier. -/
def looksIdentifier (token : List Char) : Bool :=
  token.contains '_' || token.tail.any Char.isUpper || token.any Char.isDigit

/-- `extract_identifier_tokens` -/
def extractIdentifierTokens (text : String) : List String :=
  let raw := text.toList
  if blank text then []
  else
    let byStart := fun a b : Nat × List Char => decide (a.1 ≤ b.1)
    let structured := (findAll (dottedAt u) raw ++ findAll routeAt raw).mergeSort byStart
    let words := (findAll (wordAt u) raw).filter fun w =>
      !structured.any fun s => w.1 < s.1 + s.2.length && s.1 < w.1 + w.2.length
    let tokens := ((structured ++ words).mergeSort byStart).map Prod.snd
    let kept := tokens.filter fun token =>
      wordAt u none token != some token.length || looksIdentifier token
    ((kept.map fun token => String.ofList (stripPunctuation token)).filter (· != "")).foldl
      (fun seen token => if seen.contains token then seen else seen ++ [token]) []

end CortexHarness.Link
