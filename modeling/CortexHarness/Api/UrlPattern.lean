import Mathlib.Data.List.DropRight
import CortexHarness.Library.Python
import CortexHarness.Library.Rewriting

/-!
# URL patterns

`normalize_url_pattern` (`url_normalizer.py:57-155`) turns the expression a URL is written with into
a path with named parameters: it strips quotes, and rewrites, in this order, templates, variables
that are concatenated, the query string, placeholders and slashes.

* A text is the list of its characters.
* A pattern of the source is a rule (`templateRule`, `concatRule`, `leadRule`, `queryRule`,
  `curlyRule`). In each of them what a loop matches ends where the next part has to begin, so there
  is nothing to backtrack to.
-/

namespace CortexHarness.Api

open Rewriting

abbrev Text := List Char

/-! ## Quotes and names -/

/-- `text.strip(…)` -/
def stripOf (p : Char → Bool) (text : Text) : Text := (text.dropWhile p).rdropWhile p

/-- A quote, a backtick or a blank. -/
def wraps (c : Char) : Bool := c == '\x60' || c == '\'' || c == '"' || isSpace c

/-- `_strip_quotes` -/
def stripQuotes (raw : Text) : Text := stripOf wraps raw

/-- `_extract_var_name`: the last part of the expression that begins with a letter. -/
def extractVarName (expr : Text) : Text :=
  let inner := stripOf isSpace (stripOf (fun c => c == '$' || c == '{' || c == '}') expr)
  let parts := (inner.splitOnP fun c => !(c.isAlphanum || c == '_' || c == '$')).filter
    fun part => part.head?.any Char.isAlpha
  parts.getLast?.getD ['i', 'd']

/-! ## The patterns -/

/-- `[^}]+}` at the start of the text: what stands before the brace. -/
def closed (text : Text) : Option Text :=
  let inner := text.takeWhile (· != '}')
  if inner.isEmpty || (text.dropWhile (· != '}')).isEmpty then none else some inner

/-- `_RE_TEMPLATE_EXPR`, replaced by the name in it. -/
def templateRule : Rule Char
  | '$' :: '{' :: text => (closed text).map fun inner =>
    (':' :: extractVarName ('$' :: '{' :: inner ++ ['}']), inner.length + 3)
  | _ => none

/-- `[A-Za-z_$]` -/
def nameStart (c : Char) : Bool := c.isAlpha || c == '_' || c == '$'

/-- `[A-Za-z0-9_$.]` -/
def nameRest (c : Char) : Bool := c.isAlphanum || c == '_' || c == '$' || c == '.'

/-- `\s*\+\s*` at the start of the text: what follows it. -/
def afterPlus (text : Text) : Option Text :=
  match text.dropWhile isSpace with
  | '+' :: text => some (text.dropWhile isSpace)
  | _ => none

/-- `"\s*\+\s*([A-Za-z_$][A-Za-z0-9_$.]*)`, replaced by the name. -/
def concatRule : Rule Char
  | '"' :: text => (afterPlus text).bind fun after =>
    if after.head?.any nameStart then
      let name := after.takeWhile nameRest
      some (':' :: name, 1 + (text.length - after.length) + name.length)
    else none
  | _ => none

/-- `([A-Za-z_$][A-Za-z0-9_$.]*)\s*\+\s*"`, which is dropped. -/
def leadRule (text : Text) : Option (Text × Nat) :=
  if text.head?.any nameStart then
    (afterPlus (text.dropWhile nameRest)).bind fun after =>
      if after.head? == some '"' then some ([], text.length - after.length + 1) else none
  else none

/-- `_RE_QUERY_STRING`, which is dropped. No `.` matches a line break, and `$` stands before one at
the end of the text. -/
def queryRule : Rule Char
  | '?' :: text =>
    let after := text.dropWhile (· != '\n')
    if after == [] || after == ['\n'] then some ([], 1 + (text.length - after.length)) else none
  | _ => none

/-- `_RE_CURLY_PARAM`, with its braces replaced by a colon. -/
def curlyRule : Rule Char
  | '{' :: text => (closed text).map fun inner => (':' :: inner, inner.length + 2)
  | _ => none

/-- `_RE_MULTI_SLASH.sub('/', s)` -/
def collapseSlashes : Text → Text
  | [] => []
  | c :: text =>
    if c == '/' && text.head? == some '/' then collapseSlashes text else c :: collapseSlashes text

/-! ## The pattern of an expression -/

/-- A character, as `https?://` is compared with it under `IGNORECASE`. -/
def foldCase (c : Char) : Char := if c = 'ſ' then 's' else c.toLower

/-- `re.match(r'https?://', s, re.IGNORECASE)` -/
def isExternal (text : Text) : Bool :=
  let text := text.map foldCase
  "http://".toList.isPrefixOf text || "https://".toList.isPrefixOf text

/-- `normalize_url_pattern` -/
def normalizeUrlPattern (raw : Text) : Option Text :=
  if raw.isEmpty then none
  else
    let s := stripOf isSpace raw
    if isExternal s then none
    else
      let s := stripQuotes s
      if s.isEmpty then none
      else
        let s := stripOf isSpace (stripOf (· == '\x60') s)
        let s := rewrite templateRule s
        let s := rewrite concatRule s
        let s := rewrite leadRule s
        let s := rewrite queryRule s
        let s := rewrite curlyRule s
        let s := collapseSlashes s
        let s := if !s.isEmpty && s.head? != some '/' then '/' :: s else s
        let s := if 1 < s.length && s.getLast? == some '/' then s.rdropWhile (· == '/') else s
        if s.isEmpty || s == ['/'] then none else some s

example : normalizeUrlPattern "\x60/posts/$\x7bpostId\x7d/comments/$\x7bcommentId\x7d\x60".toList =
    some "/posts/:postId/comments/:commentId".toList := by decide +kernel

example : normalizeUrlPattern "\"/api/orders/\" + orderId".toList =
    some "/api/orders/:orderId".toList := by decide +kernel

end CortexHarness.Api
