import CortexHarness.Link.Store

/-!
# The link build

`buildLinks` scores the pairs of what was read from the two graphs, joins the file hashes of the
sync baselines to them, marks the links that drifted stale and appends the pairs whose link is new.
With `reconcile` every link is marked stale first and every pair is appended again.

* `DocShaIndex` and `CodeShaIndex` are the joins of the file hashes;
* `drifted` is the test for stale links, `unchanged` the one for links to leave alone;
* `Inputs` is what one build reads: the paragraphs, symbols and mentions of the graphs, and the
  baselines.

Results: `buildLinks_ok`: what the store holds after a build that raises nothing;
`drifted_congr`: drift depends on the key and the hashes of a record only.
-/

namespace CortexHarness.Link

open Table

variable (P : Platform)

/-! ## File hashes -/

/-- A dict of texts. -/
abbrev Texts := List (String × String)

/-- `flatten_doc_rel` -/
def flattenDocRel (rel : String) : String :=
  String.ofList ((posixPath rel).toList.flatMap fun c => if c = '/' then ['_', '_'] else [c])

/-- `Path(path).with_suffix("").as_posix()` -/
def withoutSuffix (path : String) : String :=
  let parts := (path.toList.splitOnP (· == '/')).filter fun part => !part.isEmpty && part != ['.']
  let root := if startsWith path "/" then "/" else ""
  root ++ "/".intercalate ((parts.dropLast.map String.ofList) ++ [(splitSuffix (pathName path)).1])

/-- `DocShaIndex` -/
structure DocShaIndex where
  direct : Texts := []
  flattened : List (String × Option String) := []
  flattenedNoExt : List (String × Option String) := []
  stems : List (String × List String) := []

/-- `_record_unambiguous_sha` -/
def recordUnambiguousSha (table : List (String × Option String)) (key sha : String) :
    List (String × Option String) :=
  match lookup Prod.fst key table with
  | some (_, existing) => if existing = some sha then table else assign Prod.fst (key, none) table
  | none => table ++ [(key, some sha)]

/-- The spellings of a path: as it is, composed, decomposed. -/
def spellings (path : String) : List String := [path, P.nfc path, P.nfd path].eraseDups

/-- One spelling of one baseline key. -/
def indexSpelling (sha : String) (index : DocShaIndex) (path : String) : DocShaIndex :=
  let (stem, suffix) := splitSuffix (pathName path)
  { direct := assign Prod.fst (path, sha) index.direct
    flattened := recordUnambiguousSha index.flattened (flattenDocRel path) sha
    flattenedNoExt :=
      if suffix = "" then index.flattenedNoExt
      else recordUnambiguousSha index.flattenedNoExt (flattenDocRel (withoutSuffix path)) sha
    stems := assign Prod.fst
      (stem, ((lookup Prod.fst stem index.stems).map Prod.snd).getD [] ++ [path]) index.stems }

/-- `build_doc_sha_index` -/
def buildDocShaIndex (docShas : Texts) : DocShaIndex :=
  docShas.foldl (fun index m => (spellings P (posixPath m.1)).foldl (indexSpelling m.2) index) {}

/-- `table.get(key)` where an empty hash counts as none. -/
def shaAt (table : List (String × Option String)) (key : String) : Option String :=
  ((lookup Prod.fst key table).bind Prod.snd).filter (· != "")

/-- The third lookup: an ambiguous flattened spelling ends the search with `none`. -/
def noExtSha (index : DocShaIndex) : List String → Option (Option String)
  | [] => none
  | variant :: variants =>
    if lookup Prod.fst variant index.flattened = some (variant, none) then some none
    else match shaAt index.flattenedNoExt variant with
      | some sha => some (some sha)
      | none => noExtSha index variants

/-- `_doc_sha_for` -/
def docShaFor (index : DocShaIndex) (docId : String) : Option String :=
  let docId := posixPath docId
  if docId = "" then none
  else
    let variants := spellings P docId
    let direct := index.direct.map fun m => (m.1, some m.2)
    match variants.findSome? (shaAt direct) with
    | some sha => some sha
    | none => match variants.findSome? (shaAt index.flattened) with
      | some sha => some sha
      | none => match noExtSha index variants with
        | some found => found
        | none => variants.findSome? fun variant =>
          let keys := ((lookup Prod.fst variant index.stems).map Prod.snd).getD []
          match (keys.filterMap fun key => (lookup Prod.fst key index.direct).map Prod.snd).dedup
          with
          | [sha] => some sha
          | _ => none

/-- How a join came out. -/
inductive JoinOutcome where
  | matched
  | missing
  | ambiguous
  deriving DecidableEq

/-- `CodeShaIndex` -/
structure CodeShaIndex where
  folders : List (String × Texts)
  flat : Texts

/-- `normalize_repo_key` -/
def normalizeRepoKey (value : String) : String :=
  if strip value = "" then "" else P.casefold (P.resolve (strip value))

def CodeShaIndex.of (folders : List (String × Texts)) (flat : Texts) : CodeShaIndex :=
  { folders := (folders.filter fun m => normalizeRepoKey P m.1 != "").foldl
      (fun t m => assign Prod.fst (normalizeRepoKey P m.1, m.2) t) []
    flat := flat.foldl (fun t m => assign Prod.fst (posixPath m.1, m.2) t) [] }

/-- The flat baseline: the path itself, else the one key that ends with it. -/
def CodeShaIndex.resolveFlat (index : CodeShaIndex) (path : String) :
    Option String × JoinOutcome :=
  match ((lookup Prod.fst path index.flat).map Prod.snd).filter (· != "") with
  | some sha => (some sha, .matched)
  | none =>
    match index.flat.filter fun m =>
      pathName m.1 == pathName path && endsWith m.1 ("/" ++ path) with
    | [] => (none, .missing)
    | [m] => (some m.2, .matched)
    | _ => (none, .ambiguous)

/-- `CodeShaIndex.resolve` -/
def CodeShaIndex.resolve (index : CodeShaIndex) (repo path : String) :
    Option String × JoinOutcome :=
  let path := posixPath path
  if path = "" then (none, .missing)
  else
    let repoKey := normalizeRepoKey P repo
    match if repoKey = "" then none else lookup Prod.fst repoKey index.folders with
    | some (_, folder) =>
      match lookup Prod.fst path folder with
      | some (_, sha) => (some sha, .matched)
      | none => (none, .missing)
    | none =>
      match index.folders.filterMap fun m => (lookup Prod.fst path m.2).map Prod.snd with
      | [] => index.resolveFlat path
      | [sha] => (some sha, .matched)
      | _ => (none, .ambiguous)

/-! ## What one build reads -/

structure Inputs where
  projectId : String
  paragraphs : List ParagraphRef
  symbols : List EngineSymbol
  mentions : Mentions := []
  docShas : Texts := []
  codeShas : Texts := []
  codeFolderShas : List (String × Texts) := []

/-- The clock, the size of a line of the log and the redaction of a snippet. -/
structure Env where
  now : String
  lineBytes : Record → Nat
  redact : String → String

variable (inp : Inputs)

/-- `code_join_by_identity`: the join of the first symbol of each identity. -/
def codeJoin (identity : Identity) : Option String × JoinOutcome :=
  match inp.symbols.find? fun s => s.identity P == identity with
  | some s => (CodeShaIndex.of P inp.codeFolderShas inp.codeShas).resolve P s.repo s.path
  | none => (none, .missing)

/-- `_doc_sha_for` on the baseline of the build. -/
def docJoin (docId : String) : Option String := docShaFor P (buildDocShaIndex P inp.docShas) docId

/-- `build_record` -/
def buildRecord (pair : ScoredPair) (docSha codeSha : Option String) : Record :=
  { projectId := inp.projectId
    relation := "implements"
    doc := {
      docId := pair.paragraph.docId
      paragraphId := pair.paragraph.paragraphId
      sourceSha := docSha }
    code := {
      targetType := pair.symbol.targetType.text
      parserType := pair.symbol.parserType
      path := posixPath pair.symbol.path
      name := pair.symbol.name
      lines :=
        if pair.symbol.startLine = .null then none
        else some (pair.symbol.startLine, pair.symbol.endLine)
      sourceSha := codeSha }
    score := pair.score
    provenance := pair.provenance }

/-- `scored_pairs` -/
def scoredPairs : List ScoredPair := computeScoredPairs P inp.paragraphs inp.mentions inp.symbols

/-- The record of one pair. -/
def freshRecord (pair : ScoredPair) : Record :=
  buildRecord inp pair (docJoin P inp pair.paragraph.docId)
    (codeJoin P inp (pair.symbol.identity P)).1

/-- `fresh_records` -/
def freshRecords : List Record := (scoredPairs P inp).map (freshRecord P inp)

/-- `snippets`: the redacted text of every linked paragraph. -/
def buildSnippets (env : Env) : Snippets :=
  ((scoredPairs P inp).map (·.paragraph)).foldl (fun snippets p =>
    if p.text = "" || (snippetFor P snippets (p.anchor P)).isSome then snippets
    else snippets ++ [((p.docId, p.paragraphId), env.redact p.text)]) []

/-! ## Drift -/

/-- `_code_identity_of` -/
def codeIdentityOf (r : Record) : Identity :=
  identityOf P r.code.path r.code.name (r.code.lines.getD (.null, .null))
    (textOr r.code.targetType "symbol")

/-- `a and b and a != b` on two hashes. -/
def contradicts (a b : Option String) : Bool :=
  match a, b with
  | some x, some y => x != "" && y != "" && x != y
  | _, _ => false

/-- `_sha_changed` -/
def shaChanged (r : Record) : Bool :=
  contradicts (docJoin P inp r.doc.docId) r.doc.sourceSha ||
    contradicts (codeJoin P inp (codeIdentityOf P r)).1 r.code.sourceSha

/-- `_drifted` -/
def drifted (r : Record) : Bool :=
  !(inp.symbols.any fun s => s.identity P == codeIdentityOf P r) ||
    !(inp.paragraphs.any fun p => p.anchor P == r.anchor P) || shaChanged P inp r

/-- The delta filter: the latest record of the key is active and has the same hashes. -/
def unchanged (existing : List Record) (r : Record) : Bool :=
  match lookup (recordKey P) (recordKey P r) (latestRecords P existing) with
  | some previous => previous.isActive && previous.shas == r.shas
  | none => false

/-! ## The build -/

/-- `MAX_RAW_LOG_BYTES` -/
def maxRawLogBytes : Nat := 10 * 1024 * 1024

/-- `sha_join` -/
structure ShaJoin where
  docMatched : Nat
  docMissing : Nat
  codeMatched : Nat
  codeMissing : Nat
  codeAmbiguous : Nat

/-- `BuildReport` -/
structure BuildReport where
  newLinks : List Record
  staledLinks : List Record
  unchangedLinks : Nat
  docUniverse : Nat
  symbolUniverse : Nat
  activeLinks : Nat
  staleLinks : Nat
  shaJoin : ShaJoin

/-- The counters over the scored pairs. -/
def shaJoinOf : ShaJoin :=
  let hasDoc := fun pair : ScoredPair =>
    ((docJoin P inp pair.paragraph.docId).filter (· != "")).isSome
  let outcome := fun pair : ScoredPair => (codeJoin P inp (pair.symbol.identity P)).2
  let pairs := scoredPairs P inp
  { docMatched := pairs.countP hasDoc
    docMissing := pairs.countP fun pair => !hasDoc pair
    codeMatched := pairs.countP fun pair => outcome pair == .matched
    codeMissing := pairs.countP fun pair => outcome pair == .missing
    codeAmbiguous := pairs.countP fun pair => outcome pair == .ambiguous }

/-- `record.get("status", STATUS_ACTIVE) == STATUS_ACTIVE` -/
def countsAsActive (r : Record) : Bool := r.status.getD statusActive == statusActive

/-- The refusal to mark everything stale after a read that found no symbol. -/
def collapsed (prior : Nat) : String :=
  "code-symbol read collapsed to 0 (paragraphs=" ++ toString inp.paragraphs.length ++
    ") against " ++ toString prior ++
    " active links — refusing to stale-mark; check the store and re-run, " ++ "or use --reconcile to force"

/-- The write step. -/
def writeLinks (env : Env) (s : Store) (oversized : Bool) (newRecords : List Record) :
    Store × Except String Unit :=
  let snippets := buildSnippets P inp env
  if oversized then compactStoreOnReconcile P env.now s newRecords snippets
  else if newRecords.isEmpty then
    (if snippets.isEmpty then s else saveParagraphSnippets s snippets, .ok ())
  else appendLinks P env.now s newRecords snippets

/-- `build_links`: the store it leaves, and its report or what it raises. -/
def buildLinks (env : Env) (reconcile dryRun : Bool) (s : Store) :
    Store × Except String BuildReport :=
  let prior := s.stateActive.getD 0
  if !reconcile && !dryRun && inp.symbols.isEmpty && decide (0 < prior) then
    (s, .error (collapsed inp prior))
  else
    let fresh := freshRecords P inp
    let oversized := reconcile && decide (maxRawLogBytes < (s.log.map env.lineBytes).sum)
    let existing := if oversized then [] else s.log
    let stalePass := if dryRun || oversized then (s, .ok [])
      else markStale P env.now s fun r => reconcile || drifted P inp r
    match stalePass with
    | (s, .error e) => (s, .error e)
    | (s, .ok staled) =>
      let newRecords := fresh.filter fun r => reconcile || !unchanged P existing r
      match if dryRun then (s, .ok ()) else writeLinks P inp env s oversized newRecords with
      | (s, .error e) => (s, .error e)
      | (s, .ok ()) =>
        let projected := latestRecords P (existing ++ staled ++ newRecords)
        let active := projected.countP countsAsActive
        let report := {
          newLinks := newRecords
          staledLinks := staled
          unchangedLinks := fresh.length - newRecords.length
          docUniverse := (inp.paragraphs.map (·.docId)).dedup.length
          symbolUniverse := inp.symbols.length
          activeLinks := active
          staleLinks := projected.length - active
          shaJoin := shaJoinOf P inp }
        (if dryRun then s else { s with stateActive := some active }, .ok report)

/-! ## What a build leaves -/

variable {P inp} {env : Env} {s s' : Store} {report : BuildReport}

theorem appendLinks_ok {records : List Record} {snippets : Snippets}
    (h : appendLinks P env.now s records snippets = (s', .ok ())) :
    ∃ written, prepared env.now records = .ok written ∧ s'.log = s.log ++ written ∧
      s'.stateActive = s.stateActive := by
  unfold appendLinks at h
  split at h
  · cases h
  · rename_i hp
    cases h
    exact ⟨[], hp, (List.append_nil _).symm, rfl⟩
  · rename_i written _ hp
    refine ⟨written, hp, ?_⟩
    unfold Store.sync at h
    split at h
    · cases h
      exact ⟨rfl, rfl⟩
    · cases h

theorem markStale_ok {predicate : Record → Bool} {copies : List Record}
    (h : markStale P env.now s predicate = (s', .ok copies)) :
    copies = staleCopies P env.now predicate s.log ∧
      ∃ written, prepared env.now copies = .ok written ∧ s'.log = s.log ++ written ∧
        s'.stateActive = s.stateActive := by
  dsimp only [markStale] at h
  generalize ha : appendLinks P env.now s (staleCopies P env.now predicate s.log) [] = result at h
  obtain ⟨s1, _ | _⟩ := result
  · cases h
  · cases h
    exact ⟨rfl, appendLinks_ok ha⟩

/-- A build that raises nothing and whose log is not compacted. -/
theorem buildLinks_ok {reconcile : Bool}
    (h : buildLinks P inp env reconcile false s = (s', .ok report))
    (hsize : reconcile = false ∨ ¬ maxRawLogBytes < (s.log.map env.lineBytes).sum) :
    ∃ stale fresh, report.staledLinks =
        staleCopies P env.now (fun r => reconcile || drifted P inp r) s.log ∧
      report.newLinks = (freshRecords P inp).filter (fun r => reconcile || !unchanged P s.log r) ∧
      prepared env.now report.staledLinks = .ok stale ∧
      prepared env.now report.newLinks = .ok fresh ∧ s'.log = s.log ++ stale ++ fresh ∧
      s'.stateActive = some ((latestRecords P
        (s.log ++ report.staledLinks ++ report.newLinks)).countP countsAsActive) := by
  unfold buildLinks at h
  have hover : (reconcile && decide (maxRawLogBytes < (s.log.map env.lineBytes).sum)) = false := by
    rcases hsize with rfl | hsize
    · rfl
    · simp [hsize]
  simp only [hover, Bool.false_eq_true, if_false, Bool.or_self] at h
  split at h
  · cases h
  · split at h
    · cases h
    · rename_i s1 staled hstale
      obtain ⟨rfl, stale, hprep, hlog, hstate⟩ := markStale_ok hstale
      split at h
      · cases h
      · rename_i s2 hwrite
        cases h
        unfold writeLinks at hwrite
        simp only [Bool.false_eq_true, if_false] at hwrite
        split at hwrite
        · rename_i hnone
          have hlog2 : s2.log = s1.log := by
            cases hwrite
            split <;> rfl
          have hnil := List.isEmpty_iff.mp hnone
          refine ⟨stale, [], rfl, rfl, hprep, ?_, ?_, rfl⟩
          · show prepared env.now (List.filter _ _) = _
            rw [hnil]
            rfl
          · show s2.log = _
            rw [hlog2, hlog, List.append_nil]
        · obtain ⟨fresh, hfresh, hlog2, -⟩ := appendLinks_ok hwrite
          exact ⟨stale, fresh, rfl, rfl, hprep, hfresh, by
            show s2.log = _
            rw [hlog2, hlog], rfl⟩

theorem buildLinks_compacts (h : buildLinks P inp env true false s = (s', .ok report))
    (hsize : maxRawLogBytes < (s.log.map env.lineBytes).sum) :
    prepared env.now (freshRecords P inp) = .ok s'.log := by
  unfold buildLinks at h
  simp only [Bool.not_true, Bool.false_and, Bool.false_eq_true, if_false, hsize, decide_true,
    Bool.and_self, Bool.or_true, if_true, Bool.true_or, List.filter_true] at h
  split at h
  · cases h
  · rename_i s2 hwrite
    cases h
    unfold writeLinks compactStoreOnReconcile at hwrite
    simp only [if_true] at hwrite
    split at hwrite
    · cases hwrite
    · rename_i written hp
      unfold Store.sync at hwrite
      split at hwrite
      · cases hwrite
        exact hp
      · cases hwrite

end CortexHarness.Link
