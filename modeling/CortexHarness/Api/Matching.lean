import Mathlib.Algebra.Order.Floor.Defs
import Mathlib.Data.List.Dedup
import Mathlib.Data.Rat.Floor
import CortexHarness.Library.Best
import CortexHarness.Library.Python

/-!
# Matching API calls with endpoints

Model of `api_match_engine.py` and of `path_match_score` (`url_normalizer.py:194-230`). An endpoint
is looked up by the static segments of the call's URL (`PathIndex.candidates`), scored by five
signals (`scorePair`), and the best one of a call is kept (`matchAll`).

* `Letters` is what the standard library knows of characters beyond ASCII: `str.lower` and
  `str.upper`.
* `Numbers` is the arithmetic of the scores; `exact` computes in rationals. The results hold for
  every arithmetic whose numbers are in a linear order, so for floats as well.
* The ids of the candidates come out of a hash set. `Iteration` is the order in which they come.
* A part of a file name has no dot left, so that `re.sub(r'\.[a-z]+$', '', part)` finds nothing.

The names are those of the source; `None` is `none`.
-/

namespace CortexHarness.Api

open Table

/-! ## Parameters -/

/-- `str.lower` and `str.upper`. -/
structure Letters where
  lower : List Char → List Char
  upper : List Char → List Char

/-- The ASCII part. -/
def ascii : Letters where
  lower := List.map Char.toLower
  upper := List.map Char.toUpper

/-- The arithmetic of the scores. -/
structure Numbers (α : Type) where
  /-- a literal or a count -/
  lit : Rat → α
  add : α → α → α
  mul : α → α → α
  div : α → α → α
  round : α → (digits : Nat) → α

/-- `round` of an exact number, halves to the even neighbour. -/
def roundTo (x : Rat) (digits : Nat) : Rat :=
  let scaled := x * 10 ^ digits
  let rest := scaled - scaled.floor
  let up := 1 / 2 < rest || (rest = 1 / 2 && scaled.floor % 2 = 1)
  (if up then scaled.floor + 1 else scaled.floor : Int) / (10 ^ digits : Rat)

/-- Exact rationals. -/
def exact : Numbers Rat where
  lit := id
  add := (· + ·)
  mul := (· * ·)
  div := (· / ·)
  round := roundTo

/-- The order in which a set gives out its members, from how they were put in. -/
structure Iteration where
  order : List String → List String
  perm : ∀ ids, List.Perm (order ids) ids

/-! ## Tables -/

/-- `_VERB_GROUPS`; the synonym of two groups belongs to the later one. -/
def verbGroups : List (String × List String) :=
  [("get", ["get", "fetch", "load", "retrieve", "read", "find", "query", "list", "search", "show",
      "display", "obtain", "lookup"]),
    ("create", ["create", "add", "insert", "save", "post", "register", "submit", "new", "make",
      "build", "generate", "produce"]),
    ("update", ["update", "put", "patch", "modify", "edit", "change", "set", "replace", "alter",
      "amend"]),
    ("delete", ["delete", "remove", "destroy", "drop", "clear", "cancel", "deactivate", "disable",
      "purge"]),
    ("auth", ["login", "logout", "authenticate", "authorize", "refresh", "token", "signin",
      "signout", "signup", "register"])]

/-- `_STOP_TOKENS` -/
def stopTokens : List String :=
  ["by", "of", "the", "a", "an", "in", "for", "to", "and", "or", "with", "id", "ids", "all", "data",
    "info", "item", "items", "request", "response", "dto", "model", "entity", "object", "result",
    "payload", "body", "params", "param", "type", "types", "base", "default", "current"]

/-- `_GENERIC_PATH_TOKENS` -/
def genericPathTokens : List String :=
  ["src", "app", "module", "modules", "api", "apis", "service", "services", "controller",
    "controllers", "handler", "handlers", "route", "routes", "middleware", "index", "common",
    "shared", "utils", "util", "helpers", "helper", "lib", "libs", "v1", "v2", "v3", "v4", "core",
    "main", "internal", "external", "public", "private"]

/-! ## Tokens -/

/-- `re.sub(r'([a-z])([A-Z])', r'\1 \2', name)` -/
def splitHumps : List Char → List Char
  | [] => []
  | c :: rest =>
    if c.isLower && rest.head?.any Char.isUpper then c :: ' ' :: splitHumps rest
    else c :: splitHumps rest

/-- `re.sub(r'([A-Z]+)([A-Z][a-z])', r'\1 \2', name)`: only the last capital of a run can be
followed by a small letter. -/
def splitAcronyms : List Char → List Char
  | [] => []
  | c :: rest =>
    if c.isUpper && rest.head?.any Char.isUpper && rest.tail.head?.any Char.isLower then
      c :: ' ' :: splitAcronyms rest
    else c :: splitAcronyms rest

/-- `_tokenize` -/
def tokenize (name : List Char) : List String :=
  (((splitAcronyms (splitHumps name)).splitOnP fun c => !c.isAlphanum).filter
    fun token => 1 < token.length).map fun token => String.ofList (token.map Char.toLower)

/-- `_normalize_token` -/
def normalizeToken (token : String) : String :=
  ((verbGroups.reverse.find? fun group => group.2.contains token).map Prod.fst).getD token

variable (L : Letters) {α : Type} (N : Numbers α)

/-- The test of `_domain_tokens`. -/
def isDomainToken (token : String) : Bool :=
  2 < token.length && !stopTokens.contains token && !genericPathTokens.contains token

/-- `_domain_tokens` -/
def domainTokens (name extra : String) : List String :=
  let isSeparator := fun c => c == '/' || c == '\\' || c == '-' || c == '_' || c == '.'
  let parts := (L.lower (slashes name).toList).splitOnP isSeparator
  ((parts.flatMap tokenize).filter isDomainToken ++
    (tokenize extra.toList).filter isDomainToken).dedup

/-- `_token_jaccard` of two sets. -/
def tokenJaccard (a b : List String) : α :=
  if a = [] ∨ b = [] then N.lit 0
  else
    let na := (a.map normalizeToken).dedup
    let nb := (b.map normalizeToken).dedup
    let isTerm := fun token => !stopTokens.contains token
    let union := ((na ++ nb).dedup).filter isTerm
    let inter := (na.filter nb.contains).filter isTerm
    if union = [] then N.lit 0 else N.div (N.lit inter.length) (N.lit union.length)

/-! ## Records -/

/-- `ApiCallEnriched` -/
structure ApiCall where
  symbolId : String
  urlPattern : String
  httpMethod : String
  filePath : String := ""
  functionName : String := ""
  functionIntent : String := ""
  deriving DecidableEq

/-- `ApiEndpointEnriched` -/
structure ApiEndpoint where
  symbolId : String
  path : String
  httpMethod : String
  filePath : String := ""
  handlerNames : List String := []
  controllerClass : String := ""
  deriving DecidableEq

/-- `SignalScores` -/
structure SignalScores (α : Type) where
  path : α
  method : α
  name : α
  module : α
  pathvar : α
  raw : α
  confidence : α
  deriving DecidableEq

/-- `MatchResult` -/
structure MatchResult (α : Type) where
  acId : String
  epId : String
  confidence : α
  matchType : String
  feProject : String
  beProject : String
  signals : SignalScores α
  deriving DecidableEq

/-! ## Signals -/

/-- The segments of a path. -/
def segments (path : List Char) : List (List Char) :=
  (path.splitOnP (· == '/')).filter fun s => !s.isEmpty

/-- `s.startswith(':') or s == '*'` -/
def isDynamic (segment : List Char) : Bool := segment.head? == some ':' || segment == ['*']

/-- `fe_dyn` -/
def isCallDynamic (segment : List Char) : Bool :=
  segment.head? == some ':' || (segment.contains '{' && segment.contains '}')

/-- `re.sub(r'[}]+$', '', text)`, where `$` also stands before a last line end. -/
def dropClosing (text : List Char) : List Char :=
  match text.reverse with
  | '\n' :: before => (before.dropWhile (· == '}')).reverse ++ ['\n']
  | reversed => (reversed.dropWhile (· == '}')).reverse

/-- `re.sub(r'^[:${]+|[}]+$', '', segment).lower().strip()` -/
def variableName (segment : List Char) : List Char :=
  stripChars (L.lower (dropClosing
    (segment.dropWhile fun c => c == ':' || c == '$' || c == '{')))

/-- `re.sub(r'ids?$', '', name) or name` -/
def stem (name : List Char) : List Char :=
  let short :=
    if ['i', 'd', 's'].isSuffixOf name then name.take (name.length - 3)
    else if ['i', 'd'].isSuffixOf name then name.take (name.length - 2)
    else name
  if short = [] then name else short

/-- `part in text` -/
def isPart (part text : List Char) : Bool := text.tails.any part.isPrefixOf

/-- How well two path variables go together. -/
def variableCompat (fe be : List Char) : α :=
  let fv := variableName L fe
  let bv := variableName L be
  if fv = bv then N.lit 1
  else if stem fv = stem bv then N.lit (95 / 100)
  else if isPart (stem fv) (stem bv) || isPart (stem bv) (stem fv) then N.lit (80 / 100)
  else N.lit (40 / 100)

/-- `_pathvar_compat_score` -/
def pathvarCompatScore (feUrl bePath : List Char) : α :=
  let fe := segments feUrl
  let be := segments bePath
  if fe.length ≠ be.length then N.lit (1 / 2)
  else
    let terms := (fe.zip be).filterMap fun pair =>
      let feDyn := isCallDynamic pair.1
      let beDyn := isDynamic pair.2
      if feDyn && beDyn then some (variableCompat L N pair.1 pair.2)
      else if feDyn != beDyn then some (N.lit 0)
      else none
    if terms = [] then N.lit (1 / 2)
    else N.div (terms.foldl N.add (N.lit 0)) (N.lit terms.length)

/-- `pattern.lower().rstrip('/')` -/
def foldedPath (pattern : List Char) : List Char :=
  ((L.lower pattern).reverse.dropWhile (· == '/')).reverse

/-- `path_match_score` -/
def pathMatchScore (fe be : List Char) : α :=
  if fe = [] ∨ be = [] then N.lit 0
  else if foldedPath L fe = foldedPath L be then N.lit 1
  else
    let a := segments (foldedPath L fe)
    let b := segments (foldedPath L be)
    let shared := min a.length b.length
    if a.length ≠ b.length then
      if a.take shared = b.take shared then N.lit (6 / 10) else N.lit 0
    else
      let hits := (a.zip b).countP fun pair =>
        pair.1 == pair.2 || isDynamic pair.1 || isDynamic pair.2
      if hits = a.length then N.lit (85 / 100)
      else N.round (N.mul (N.div (N.lit hits) (N.lit a.length)) (N.lit (7 / 10))) 2

variable [LinearOrder α]

/-- `cm` and `em` -/
def anyMethod (method : List Char) : Bool := method == [] || method == ['A', 'L', 'L']

/-- `score_pair` -/
def scorePair (call : ApiCall) (ep : ApiEndpoint) : Option (SignalScores α) :=
  let cm := L.upper call.httpMethod.toList
  let em := L.upper ep.httpMethod.toList
  if !anyMethod cm && !anyMethod em && cm != em then none
  else
    let methodExact := cm == em && !anyMethod cm
    let weight := N.lit (10 / 100)
    let sMethod := if methodExact then weight else N.mul weight (N.lit (1 / 2))
    let sPathRaw := pathMatchScore L N call.urlPattern.toList ep.path.toList
    if sPathRaw ≤ N.lit 0 then none
    else
      let sPath := N.mul sPathRaw (N.lit (45 / 100))
      let isTerm := fun token => !stopTokens.contains token
      let callTokens := ((tokenize call.functionName.toList ++
        tokenize call.functionIntent.toList).filter isTerm).dedup
      let epTokens := ((ep.handlerNames.flatMap (fun h => tokenize h.toList) ++
        tokenize ep.controllerClass.toList).filter isTerm).dedup
      let nameJ := tokenJaccard N callTokens epTokens
      let feDomain := domainTokens L call.filePath call.functionName
      let beDomain := domainTokens L ep.filePath ep.controllerClass
      let moduleJ := tokenJaccard N feDomain beDomain
      let pvRaw := pathvarCompatScore L N call.urlPattern.toList ep.path.toList
      let sum := N.add (N.add (N.add (N.add sPath sMethod) (N.mul nameJ (N.lit (20 / 100))))
        (N.mul moduleJ (N.lit (15 / 100)))) (N.mul pvRaw (N.lit (10 / 100)))
      let raw := if sPathRaw = N.lit 1 && methodExact then max sum (N.lit (90 / 100)) else sum
      some {
        path := sPathRaw
        method := N.div sMethod weight
        name := nameJ
        module := moduleJ
        pathvar := pvRaw
        raw := N.round raw 4
        confidence := N.round raw 4 }

/-- `_confidence_tier` -/
def confidenceTier (raw : α) : String :=
  if N.lit (90 / 100) ≤ raw then "exact"
  else if N.lit (72 / 100) ≤ raw then "strong"
  else if N.lit (52 / 100) ≤ raw then "structural"
  else "weak"

/-! ## The index -/

/-- The segments that are not parameters. -/
def staticSegments (path : String) : List (List Char) :=
  (segments path.toList).filter fun s => !isDynamic s

/-- `_ep_map.get(id)`: the last endpoint with the id. -/
def lastWithId (endpoints : List ApiEndpoint) (id : String) : Option ApiEndpoint :=
  endpoints.reverse.find? fun ep => ep.symbolId == id

/-- `_seg_idx.get(segment)`: the ids of the endpoints with the segment. -/
def idsWithSegment (endpoints : List ApiEndpoint) (segment : List Char) : List String :=
  ((endpoints.filter fun ep => (staticSegments ep.path).contains segment).map (·.symbolId)).dedup

/-- `_count_idx.get(n)`: the ids of the endpoints with `n` segments. -/
def idsWithCount (endpoints : List ApiEndpoint) (n : Int) : List String :=
  ((endpoints.filter fun ep => ((segments ep.path.toList).length : Int) == n).map
    (·.symbolId)).dedup

/-- The ids that have all the static segments of the call. -/
def sharedIds (endpoints : List ApiEndpoint) (call : ApiCall) : List String :=
  match staticSegments call.urlPattern with
  | [] => []
  | first :: rest => (idsWithSegment endpoints first).filter fun id =>
      rest.all fun segment => (idsWithSegment endpoints segment).contains id

/-- `candidate_ids`, or `ids` when there are none. -/
def candidateIds (endpoints : List ApiEndpoint) (call : ApiCall) : List String :=
  let shared := sharedIds endpoints call
  if shared ≠ [] then shared
  else
    let n : Int := (segments call.urlPattern.toList).length
    (idsWithCount endpoints n ++ idsWithCount endpoints (n - 1) ++
      idsWithCount endpoints (n + 1)).dedup

/-- `PathIndex.candidates` -/
def candidates (it : Iteration) (endpoints : List ApiEndpoint) (call : ApiCall) :
    List ApiEndpoint :=
  (it.order (candidateIds endpoints call)).filterMap (lastWithId endpoints)

/-! ## The matcher -/

/-- A candidate with the scores that pass the threshold. -/
def qualified (minConfidence : α) (call : ApiCall) (ep : ApiEndpoint) :
    Option (SignalScores α × ApiEndpoint) :=
  match scorePair L N call ep with
  | some scores => if scores.confidence < minConfidence then none else some (scores, ep)
  | none => none

/-- The candidate kept for a call: the first one with the highest confidence. -/
def bestCandidate (it : Iteration) (endpoints : List ApiEndpoint) (minConfidence : α)
    (call : ApiCall) : Option (SignalScores α × ApiEndpoint) :=
  best (fun new kept => kept.1.confidence < new.1.confidence)
    ((candidates it endpoints call).filterMap (qualified L N minConfidence call))

/-- The match of one call. -/
def matchCall (it : Iteration) (endpoints : List ApiEndpoint) (minConfidence : α)
    (feProject beProject : String) (call : ApiCall) : Option (MatchResult α) :=
  (bestCandidate L N it endpoints minConfidence call).map fun kept =>
    { acId := call.symbolId
      epId := kept.2.symbolId
      confidence := kept.1.confidence
      matchType := confidenceTier N kept.1.confidence
      feProject
      beProject
      signals := kept.1 }

/-- `MultiSignalMatcher.match_all` -/
def matchAll (it : Iteration) (endpoints : List ApiEndpoint) (minConfidence : α)
    (feProject beProject : String) (calls : List ApiCall) : List (MatchResult α) :=
  calls.filterMap (matchCall L N it endpoints minConfidence feProject beProject)

end CortexHarness.Api
