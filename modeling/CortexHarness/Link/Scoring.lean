import CortexHarness.Library.Run
import CortexHarness.Library.Table
import CortexHarness.Link.Normalizers

/-!
# Scored pairs

`computeScoredPairs` pairs the paragraphs with the code symbols whose names they mention. How a
pair scores, and whether it is made at all, depends on the whole graph: on how many files define
the name, on which other symbols the paragraph names, on how many candidates and paragraphs were
taken before.

* `Platform` adds to the characters what Python computes on numbers and paths: which values `==`
  does not tell apart, the score of a frequent name, `int(...)`, `Path.resolve`;
* `EngineSymbol.identity` and `ParagraphRef.anchor` are the identities the links are kept under.

Result: `mem_of_scored`: a pair is made of a paragraph and a symbol that were read.
-/

namespace CortexHarness.Link

open Run Table

/-- A property value of the graph that can be a key of a dict. -/
inductive Scalar where
  | null
  | bool (b : Bool)
  | int (n : Int)
  | float (repr : String)
  | str (s : String)
  deriving DecidableEq, Repr

/-- What Python computes on characters, numbers and paths. -/
structure Platform extends Unicode where
  /-- one value for all those that `==` does not tell apart, such as `1`, `1.0` and `True` -/
  same : Scalar → Scalar
  /-- the rounded score of a name that more than two files define -/
  idfScore : (endpoint : Bool) → (df : Nat) → (affinity : Bool) → Rat
  /-- `int(value)`, or the text of its exception -/
  int : Scalar → Except String Int
  /-- `Path(text).expanduser().resolve().as_posix()` -/
  resolve : String → String

/-! ## Paths -/

/-- `posix_path` -/
def posixPath (value : String) : String :=
  String.ofList ((strip value).toList.map fun c => if c = '\\' then '/' else c)

/-- `Path(path).name` -/
def pathName (path : String) : String :=
  String.ofList (((path.toList.splitOnP (· == '/')).filter fun part =>
    !part.isEmpty && part != ['.']).getLast?.getD [])

/-- `Path(name).stem` and `Path(name).suffix` of a bare name. -/
def splitSuffix (name : String) : String × String :=
  let tail := name.toList.reverse.takeWhile (· != '.')
  let head := (name.toList.reverse.drop (tail.length + 1)).reverse
  if head.isEmpty || tail.isEmpty then (name, "")
  else (String.ofList head, String.ofList ('.' :: tail.reverse))

/-! ## Symbols and paragraphs -/

/-- `posix_path(path)`, name, lines, target type. -/
abbrev Identity := String × String × (Scalar × Scalar) × String

/-- `target_type` -/
inductive TargetType where
  | symbol
  | endpoint
  deriving DecidableEq

def TargetType.text : TargetType → String
  | .symbol => "symbol"
  | .endpoint => "endpoint"

/-- `EngineSymbol` -/
structure EngineSymbol where
  name : String
  path : String
  qualifiedName : String := ""
  startLine : Scalar := .null
  endLine : Scalar := .null
  language : String := ""
  targetType : TargetType := .symbol
  parserType : String := ""
  repo : String := ""
  deriving DecidableEq

/-- `CodeSymbolRef` -/
structure CodeSymbolRef where
  name : String
  qualifiedName : String
  path : String
  targetType : TargetType
  identity : Identity
  deriving DecidableEq

/-- `ParagraphRef` -/
structure ParagraphRef where
  docId : String
  paragraphId : Scalar
  text : String := ""
  deriving DecidableEq

variable (P : Platform)

/-- The identity of what the four values name. -/
def identityOf (path name : String) (lines : Scalar × Scalar) (targetType : String) : Identity :=
  (posixPath path, name, (P.same lines.1, P.same lines.2), targetType)

def EngineSymbol.identity (s : EngineSymbol) : Identity :=
  identityOf P s.path s.name (s.startLine, s.endLine) s.targetType.text

def EngineSymbol.asSymbolRef (s : EngineSymbol) : CodeSymbolRef :=
  { name := s.name, qualifiedName := s.qualifiedName, path := s.path, targetType := s.targetType,
    identity := s.identity P }

/-- The document and the paragraph in it. -/
abbrev Anchor := String × Scalar

def ParagraphRef.anchor (p : ParagraphRef) : Anchor := (p.docId, P.same p.paragraphId)

/-! ## The match index -/

/-- `symbol_match_keys` -/
def symbolMatchKeys (ref : CodeSymbolRef) : List (List String) :=
  (ref.name :: qualifiedSegments ref.qualifiedName).foldl (fun keys segment =>
    let key := tokenMatchKey segment
    if key.isEmpty || keys.contains key then keys else keys ++ [key]) []

/-- Symbols by match key. -/
abbrev MatchIndex := List (List String × List CodeSymbolRef)

/-- `index.get(key, ())` -/
def MatchIndex.refs (index : MatchIndex) (key : List String) : List CodeSymbolRef :=
  ((lookup Prod.fst key index).map Prod.snd).getD []

/-- `build_match_index`: the first symbol of each identity, under each of its keys. -/
def buildMatchIndex (refs : List CodeSymbolRef) : MatchIndex :=
  let firsts := refs.foldl (fun seen ref =>
    if seen.any (·.identity == ref.identity) then seen else seen ++ [ref]) []
  firsts.foldl (fun index ref =>
    (symbolMatchKeys ref).foldl (fun index key =>
      assign Prod.fst (key, MatchIndex.refs index key ++ [ref]) index) index) []

/-- `key_file_df` -/
def MatchIndex.fileDf (index : MatchIndex) (key : List String) : Nat :=
  ((MatchIndex.refs index key).map (·.path)).dedup.length

/-! ## File stems -/

/-- `_GENERIC_FILE_STEMS` -/
def genericFileStems : List String :=
  ["common", "program", "assemblyinfo", "resources", "settings", "index", "main", "utils", "helper",
    "helpers", "base", "default", "config", "constants", "types", "models", "startup"]

/-- `_COMPOUND_CODE_SUFFIXES` -/
def compoundCodeSuffixes : List String :=
  [".designer.vb", ".designer.cs", ".razor.cs", ".g.cs", ".g.vb", ".vb", ".cs", ".razor", ".py",
    ".java", ".ts", ".tsx", ".js", ".jsx", ".go", ".rs", ".cpp", ".c", ".h"]

/-- `_clean_file_stem` -/
def cleanFileStem (path : String) : String :=
  let name := P.casefold (pathName (posixPath path))
  match compoundCodeSuffixes.find? fun suffix => endsWith name suffix && suffix.length < name.length
  with
  | some suffix => String.ofList (name.toList.take (name.length - suffix.length))
  | none => P.casefold (splitSuffix name).1

/-- `len(stem) >= 4 and stem not in _GENERIC_FILE_STEMS` -/
def meaningfulStem (stem : String) : Bool := 4 ≤ stem.length && !genericFileStems.contains stem

/-- `part in text` -/
def isPartOf (part text : String) : Bool := text.toList.tails.any part.toList.isPrefixOf

/-! ## Scoring -/

/-- `MAX_UNSCOPED_SYMBOL_DF` -/
def maxUnscopedSymbolDf : Nat := 8

/-- `MAX_CANDIDATES_PER_TOKEN` -/
def maxCandidatesPerToken : Nat := 10

/-- `MAX_PARAGRAPHS_PER_DOC_SYMBOL` -/
def maxParagraphsPerDocSymbol : Nat := 3

/-- The keys of the index that the tokens have, each once. -/
def addKeys (index : MatchIndex) (keys : List (List String)) (tokens : List String) :
    List (List String) :=
  tokens.foldl (fun keys token =>
    let key := tokenMatchKey token
    if !key.isEmpty && (lookup Prod.fst key index).isSome && !keys.contains key then keys ++ [key]
    else keys) keys

/-- `entity_mentions` -/
abbrev Mentions := List (Anchor × List String)

/-- `para_keys`: the keys a paragraph mentions, in its text and through its entities. -/
def paragraphKeys (index : MatchIndex) (mentions : Mentions) (p : ParagraphRef) :
    List (List String) :=
  let entities := ((lookup Prod.fst (p.anchor P) mentions).map Prod.snd).getD []
  addKeys index
    (addKeys index [] ((extractIdentifierTokens P.toUnicode p.text).filter isLinkableToken))
    (entities.filter (isLinkableEntityToken P.toUnicode))

/-- A scored symbol. -/
structure Candidate where
  score : Rat
  symbol : EngineSymbol

/-- `symbol_by_ref[ref]`: the last symbol with this reference. -/
def symbolByRef (symbols : List EngineSymbol) (ref : CodeSymbolRef) : Option EngineSymbol :=
  symbols.reverse.find? fun s => s.asSymbolRef P == ref

/-- `active_stems`: the stems the document's id contains and those of the rare symbols named. -/
def activeStems (symbols : List EngineSymbol) (index : MatchIndex) (p : ParagraphRef)
    (keys : List (List String)) : List String :=
  let docStems := ((symbols.map fun s => cleanFileStem P s.path).filter meaningfulStem).filter
    fun stem => isPartOf stem (P.casefold p.docId)
  let rare := keys.filter fun key => 0 < index.fileDf key && index.fileDf key ≤ 3
  docStems ++ ((rare.flatMap index.refs).map fun ref => cleanFileStem P ref.path).filter
    meaningfulStem

/-- The score of a symbol under a key that `df` files define. -/
def scoreOf (df : Nat) (affinity : Bool) (symbol : EngineSymbol) : Rat :=
  if df ≤ 2 then exactNameScore else P.idfScore (symbol.targetType == .endpoint) df affinity

/-- `key=lambda item: (-item[0], item[1].path, item[1].name)` -/
def rankedBefore (a b : Candidate) : Bool :=
  decide (b.score < a.score) || (a.score == b.score &&
    (decide (a.symbol.path < b.symbol.path) || (a.symbol.path == b.symbol.path &&
      decide (a.symbol.name ≤ b.symbol.name))))

/-- `token_candidates` of one key. -/
def tokenCandidates (symbols : List EngineSymbol) (index : MatchIndex) (stems : List String)
    (key : List String) : List Candidate :=
  let df := index.fileDf key
  let found := (index.refs key).filterMap fun ref =>
    (symbolByRef P symbols ref).bind fun symbol =>
      let stem := cleanFileStem P symbol.path
      let affinity := stem != "" && stems.contains stem
      if maxUnscopedSymbolDf < df && !affinity then none
      else some { score := scoreOf P df affinity symbol, symbol }
  if maxCandidatesPerToken < found.length then
    (found.mergeSort rankedBefore).take maxCandidatesPerToken
  else found

/-- `best_by_identity`: of every identity the first candidate with the highest score. -/
def keepBest (best : List Candidate) (c : Candidate) : List Candidate :=
  match lookup (·.symbol.identity P) (c.symbol.identity P) best with
  | some prev => if prev.score < c.score then assign (·.symbol.identity P) c best else best
  | none => best ++ [c]

/-- A paragraph linked to a symbol. -/
structure ScoredPair where
  paragraph : ParagraphRef
  symbol : EngineSymbol
  score : Rat
  provenance : String

/-- The candidates of one paragraph, best first by key. -/
def paragraphCandidates (symbols : List EngineSymbol) (index : MatchIndex) (mentions : Mentions)
    (p : ParagraphRef) : List Candidate :=
  let keys := paragraphKeys P index mentions p
  let stems := activeStems P symbols index p keys
  (keys.flatMap (tokenCandidates P symbols index stems)).foldl (keepBest P) []

/-- Take a candidate unless its symbol has been linked often enough in this document. -/
def takePair (p : ParagraphRef) (results : List ScoredPair) (c : Candidate) : List ScoredPair :=
  let count := results.countP fun r =>
    r.paragraph.docId == p.docId && r.symbol.identity P == c.symbol.identity P
  if maxParagraphsPerDocSymbol ≤ count then results
  else results ++ [⟨p, c.symbol, c.score, exactNameProvenance⟩]

/-- `compute_scored_pairs` -/
def computeScoredPairs (paragraphs : List ParagraphRef) (mentions : Mentions)
    (symbols : List EngineSymbol) : List ScoredPair :=
  let index := buildMatchIndex (symbols.map (·.asSymbolRef P))
  paragraphs.foldl (fun results p =>
    (paragraphCandidates P symbols index mentions p).foldl (takePair P p) results) []

/-! ## Where pairs come from -/

variable {P} {symbols : List EngineSymbol}

theorem symbolByRef_mem {ref : CodeSymbolRef} {s : EngineSymbol}
    (h : symbolByRef P symbols ref = some s) : s ∈ symbols :=
  List.mem_reverse.mp (List.mem_of_find?_eq_some h)

theorem mem_tokenCandidates {index : MatchIndex} {stems key : List String} {c : Candidate}
    (h : c ∈ tokenCandidates P symbols index stems key) : c.symbol ∈ symbols := by
  have hfound : c ∈ (index.refs key).filterMap fun ref =>
      (symbolByRef P symbols ref).bind fun symbol =>
        let stem := cleanFileStem P symbol.path
        let affinity := stem != "" && stems.contains stem
        if maxUnscopedSymbolDf < index.fileDf key && !affinity then none
        else some { score := scoreOf P (index.fileDf key) affinity symbol, symbol } := by
    unfold tokenCandidates at h
    dsimp only at h
    split at h
    · exact List.mem_mergeSort.mp (List.mem_of_mem_take h)
    · exact h
  obtain ⟨ref, -, hb⟩ := List.mem_filterMap.mp hfound
  obtain ⟨s, hs, hc⟩ := Option.bind_eq_some_iff.mp hb
  dsimp only at hc
  split at hc
  · cases hc
  · obtain rfl := Option.some.inj hc
    exact symbolByRef_mem hs

theorem mem_keepBest {best : List Candidate} {c x : Candidate} (h : x ∈ keepBest P best c) :
    x ∈ best ∨ x = c := by
  unfold keepBest at h
  split at h
  · split at h
    · unfold assign at h
      split at h
      · rcases mem_updateWhere.mp h with ⟨y, hy, rfl⟩
        split
        · exact Or.inr rfl
        · exact Or.inl hy
      · simpa using h
    · exact Or.inl h
  · simpa using h

theorem mem_paragraphCandidates {index : MatchIndex} {mentions : Mentions} {p : ParagraphRef}
    {c : Candidate} (h : c ∈ paragraphCandidates P symbols index mentions p) :
    c.symbol ∈ symbols := by
  unfold paragraphCandidates at h
  dsimp only at h
  generalize hall : (paragraphKeys P index mentions p).flatMap _ = all at h
  have hmem : ∀ x ∈ all, x.symbol ∈ symbols := by
    intro x hx
    rw [← hall] at hx
    obtain ⟨key, -, hx⟩ := List.mem_flatMap.mp hx
    exact mem_tokenCandidates hx
  exact @run_invariant _ _ (keepBest P) (fun best => ∀ x ∈ best, x.symbol ∈ symbols)
    (fun c => c.symbol ∈ symbols)
    (fun best a ha hb x hx => by
      rcases mem_keepBest hx with hx | rfl
      · exact hb x hx
      · exact ha)
    [] (fun x hx => by cases hx) all hmem c h

theorem mem_takePair {p : ParagraphRef} {results : List ScoredPair} {c : Candidate}
    {pair : ScoredPair} (h : pair ∈ takePair P p results c) :
    pair ∈ results ∨ pair = ⟨p, c.symbol, c.score, exactNameProvenance⟩ := by
  unfold takePair at h
  dsimp only at h
  split at h
  · exact Or.inl h
  · simpa using h

/-- **A pair is made of a paragraph and a symbol that were read.** -/
theorem mem_of_scored {paragraphs : List ParagraphRef} {mentions : Mentions} {pair : ScoredPair}
    (h : pair ∈ computeScoredPairs P paragraphs mentions symbols) :
    pair.paragraph ∈ paragraphs ∧ pair.symbol ∈ symbols := by
  unfold computeScoredPairs at h
  dsimp only at h
  generalize buildMatchIndex _ = index at h
  refine @run_invariant _ _
    (fun results p => (paragraphCandidates P symbols index mentions p).foldl
      (takePair P p) results)
    (fun results => ∀ pair ∈ results, pair.paragraph ∈ paragraphs ∧ pair.symbol ∈ symbols)
    (fun p => p ∈ paragraphs) (fun results p hp hr => ?_) [] (fun x hx => by cases hx)
    paragraphs (fun p hp => hp) pair h
  exact @run_invariant _ _ (takePair P p)
    (fun results => ∀ pair ∈ results, pair.paragraph ∈ paragraphs ∧ pair.symbol ∈ symbols)
    (fun c => c.symbol ∈ symbols)
    (fun results c hc hr x hx => by
      rcases mem_takePair hx with hx | rfl
      · exact hr x hx
      · exact ⟨hp, hc⟩)
    results hr _ fun c hc => mem_paragraphCandidates hc

end CortexHarness.Link
