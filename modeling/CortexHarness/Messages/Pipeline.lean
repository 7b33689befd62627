import CortexHarness.Library.Points
import CortexHarness.Messages.Scan

/-!
# The message pipeline over a history of runs

Model of `run_message_scan_pipeline` in `code-tiny/tools/common/message_scan.py`: what a full or an
incremental run of one parser clears from the graph and from the vectors, and what it writes there.

Results:
* `messages_converge`: after every run of a history whose runs are `RunCovered`, both stores hold what
  every parser found in its last run;
* `second_parser_clears_first`: they do not in general, since a full run clears the project.

Model notes:

* The stores are those of one project: the `Message` nodes by `id`, the points by their identifier. An
  endpoint of a message follows from the message and is left out, as are timestamps and the vectors.
* The graph and the upserts do not fail. The clearing of vectors may, after some of the files.
* Rows are written one after the other; the batches they come in change nothing
  (`Points.upsert_batches`).
-/

namespace CortexHarness.Messages

open Table Points

/-! ## Runs -/

/-- How the clearing of vectors ends. -/
inductive VectorCleanup where
  | done
  /-- an exception, after the points of these files are gone -/
  | failed (cleaned : List String)
  deriving DecidableEq

/-- The arguments of `run_message_scan_pipeline`, and the tree it finds. -/
structure RunInput where
  parser : String
  language : String
  projectName : String
  repo : String
  buildSystem : String
  incremental : Bool
  changedFiles : List String
  deletedFiles : List String
  replaceExistingOnFull : Bool
  vectorCleanup : VectorCleanup
  tree : Tree

structure MessageNode where
  record : MessageRecord
  projectName : String
  repo : String
  buildSystem : String

structure MessagePoint where
  record : MessageRecord
  projectName : String

structure Stores where
  graph : String → Option MessageNode
  points : String → Option MessagePoint

def Stores.empty : Stores := { graph := fun _ => none, points := fun _ => none }

/-! ## The pipeline -/

section Pipeline

variable (env : Scanner) (projectId : String)

/-- `normalized_changed` -/
def RunInput.normalizedChanged (input : RunInput) : List String :=
  input.changedFiles.filterMap (normalizeRelPath env)

/-- `normalized_deleted` -/
def RunInput.normalizedDeleted (input : RunInput) : List String :=
  input.deletedFiles.filterMap (normalizeRelPath env)

/-- `cleanup_paths` -/
def RunInput.cleanupPaths (input : RunInput) : List String :=
  input.normalizedChanged env ++ input.normalizedDeleted env

/-- The run starts by clearing the project. -/
def RunInput.replaces (input : RunInput) : Bool :=
  !input.incremental && input.replaceExistingOnFull

/-- `cleanup_message_nodes_neo4j` or `cleanup_all_message_nodes_neo4j` selects the node. -/
def clearsNode (input : RunInput) (r : MessageRecord) : Bool :=
  r.projectId = projectId &&
    (input.replaces || input.incremental &&
      (((input.cleanupPaths env).filter fun path => !blank path).map
        fun path => strip (slashes path)).contains r.filePath)

/-- `cleanup_qdrant_for_files` or `_qdrant_delete_by_project` removes the point. -/
def clearsPoint (input : RunInput) (r : MessageRecord) : Bool :=
  (match input.vectorCleanup with
    | .done => true
    | .failed cleaned => cleaned.contains r.filePath) &&
  (input.replaces && env.projectIdLookupKey r.projectId = env.projectIdLookupKey projectId ||
    input.incremental && r.projectId = projectId &&
      (((input.cleanupPaths env).filter (· ≠ "")).map slashes).contains r.filePath)

/-- `target_files` -/
def RunInput.targetFiles (input : RunInput) : Option (List String) :=
  if input.incremental then some (input.normalizedChanged env) else none

/-- A row of `upsert_messages_to_neo4j` -/
def messageNode (input : RunInput) (r : MessageRecord) : MessageNode where
  record := { r with
    sender := if r.sender = "" then "unknown" else r.sender
    projectId := projectId
    language := input.language }
  projectName := input.projectName
  repo := input.repo
  buildSystem := input.buildSystem

/-- A point of `upsert_messages_to_qdrant` -/
def messagePoint (input : RunInput) (r : MessageRecord) : MessagePoint where
  record := r
  projectName := input.projectName

/-- `run_message_scan_pipeline`: the stores it leaves, and what it found unless it raised. -/
def runMessageScanPipeline (input : RunInput) (s : Stores) :
    Stores × Option (List MessageRecord) :=
  let cleared : Stores := {
    graph := deleteWhere (fun _ node => clearsNode env projectId input node.record) s.graph
    points := deleteWhere (fun _ point => clearsPoint env projectId input point.record) s.points }
  if input.replaces && input.vectorCleanup ≠ .done then (cleared, none)
  else
    match collectMessagesForParser env projectId input.language input.parser input.tree
      (input.targetFiles env) with
    | none => (cleared, none)
    | some records =>
      ({ graph := upsert ((records.map (messageNode projectId input)).map
            fun node => (node.record.id, node)) cleared.graph
         points := upsert ((records.map (messagePoint input)).map
            fun point => (env.uuid5 point.record.id, point)) cleared.points },
        some records)

/-- The stores after a history of runs. -/
def history (inputs : List RunInput) : Stores :=
  inputs.foldl (fun s input => (runMessageScanPipeline env projectId input s).1) .empty

/-! ## What the stores are to hold -/

/-- The last run of a parser. -/
def lastRun (inputs : List RunInput) (parser : String) : Option RunInput :=
  inputs.reverse.find? fun input => input.parser = parser

/-- The messages of a parser in the tree of a run. -/
def messagesOf (input : RunInput) : List MessageRecord :=
  (collectMessagesForParser env projectId input.language input.parser input.tree none).getD []

/-- A parser found the message in its last run. -/
def Expected (inputs : List RunInput) (r : MessageRecord) : Prop :=
  ∃ parser input, lastRun inputs parser = some input ∧ r ∈ messagesOf env projectId input

/-- Both stores hold exactly the messages that are expected. -/
structure Converged (s : Stores) (inputs : List RunInput) : Prop where
  graph : Holds MessageRecord.id MessageNode.record s.graph (Expected env projectId inputs)
  points : Holds (fun r => env.uuid5 r.id) MessagePoint.record s.points
    (Expected env projectId inputs)

/-- The tree of a parser's last run. -/
def treeOf (inputs : List RunInput) (parser : String) : Tree :=
  (lastRun inputs parser).elim .empty RunInput.tree

/-- An incremental run is given every file that changed or went since the run of its parser before, as
the tree names it or normalized. -/
structure Delivered (before : Tree) (input : RunInput) : Prop where
  changed : ∀ path, before.content path ≠ input.tree.content path →
    (input.tree.content path).isSome →
      path ∈ input.changedFiles ∨ path ∈ input.normalizedChanged env
  deleted : ∀ path, (before.content path).isSome → input.tree.content path = none →
    path ∈ input.deletedFiles ∨ path ∈ input.normalizedDeleted env
  gone : ∀ path ∈ input.normalizedDeleted env,
    input.tree.content path = none ∨ path ∈ input.normalizedChanged env

/-! ## The runs that converge -/

/-- The parser finds messages in the file, before the run or now. -/
def Speaks (before : Tree) (input : RunInput) (path : String) : Prop :=
  recordsOfFile env projectId input.language input.parser before path ≠ [] ∨
    recordsOfFile env projectId input.language input.parser input.tree path ≠ []

/-- The run is given the file, clears it or reads it. -/
def RunInput.meets (input : RunInput) (path : String) : Prop :=
  path ∈ input.changedFiles ∨ path ∈ input.deletedFiles ∨ path ∈ input.cleanupPaths env ∨
    path ∈ (input.normalizedChanged env).filterMap (normalizeRelPath env)

/-- No two files that the parser walks have a message of one id. -/
def Apart (language parser : String) (t : Tree) : Prop :=
  ∀ path path', walks env parser path = true → walks env parser path' = true →
    ∀ r ∈ recordsOfFile env projectId language parser t path,
      ∀ r' ∈ recordsOfFile env projectId language parser t path', r.id = r'.id → path = path'

/-- The files of an incremental run are found by the names it is given, and as a full run finds them. -/
structure FilesCovered (before : Tree) (input : RunInput) : Prop where
  /-- normalizing keeps the name of a file that the run meets -/
  named : ∀ path, Speaks env projectId before input path → input.meets env path →
    normalizeRelPath env path = some path ∧ slashes path = path ∧ strip path = path
  /-- no other file is cleared under the name of a file -/
  cleared : ∀ path, Speaks env projectId before input path → ∀ given ∈ input.cleanupPaths env,
    strip (slashes given) = slashes path ∨ slashes given = slashes path → given = path
  /-- the suffix test and the walk agree on the file -/
  suffix : ∀ path, Speaks env projectId before input path → input.meets env path →
    fileMatchesParser env path input.parser = walks env input.parser path
  apart : Apart env projectId input.language input.parser before
  apartNow : Apart env projectId input.language input.parser input.tree

/-- The condition on a run after those before it. -/
structure RunCovered (earlier : List RunInput) (input : RunInput) : Prop where
  supported : (parserExtensions.any fun p => p.1 = input.parser) = true
  /-- a full run that clears the project succeeds in it -/
  cleanup : input.replaces = true → input.vectorCleanup = .done
  senders : ∀ r ∈ messagesOf env projectId input, r.sender ≠ ""
  /-- the identifiers tell the messages apart -/
  ids : ∀ r ∈ messagesOf env projectId input, ∀ r',
    Expected env projectId (earlier ++ [input]) r' →
      r.id = r'.id ∨ env.uuid5 r.id = env.uuid5 r'.id → r = r'
  /-- no message of another parser is cleared that is not also one of this run -/
  others : ∀ parser other, parser ≠ input.parser → lastRun earlier parser = some other →
    ∀ r ∈ messagesOf env projectId other,
      clearsNode env projectId input r = true ∨ clearsPoint env projectId input r = true →
        r ∈ messagesOf env projectId input
  /-- a message that a full run does not clear, or whose point alone stays, is written again -/
  stale : ∀ old, lastRun earlier input.parser = some old → ∀ r ∈ messagesOf env projectId old,
    (input.incremental = false ∧ input.replaces = false) ∨
      (clearsNode env projectId input r = true ∧ clearsPoint env projectId input r = false) →
        ∃ r', Expected env projectId (earlier ++ [input]) r' ∧ r'.id = r.id
  files : input.incremental = true →
    (∀ old, lastRun earlier input.parser = some old → old.language = input.language) ∧
      FilesCovered env projectId (treeOf earlier input.parser) input

end Pipeline

/-! ## One run -/

section Step

variable {env : Scanner} {projectId : String} {inputs earlier : List RunInput}
  {input old : RunInput} {parser : String} {r : MessageRecord} {s : Stores}

theorem lastRun_append : lastRun (earlier ++ [input]) parser =
    if input.parser = parser then some input else lastRun earlier parser := by
  unfold lastRun
  rw [List.reverse_append, List.reverse_singleton, List.singleton_append, List.find?_cons]
  by_cases h : input.parser = parser <;> simp [h]

theorem parser_of_lastRun (h : lastRun inputs parser = some input) : input.parser = parser := by
  simpa using List.find?_some h

theorem expected_append : Expected env projectId (earlier ++ [input]) r ↔
    r ∈ messagesOf env projectId input ∨
      ∃ parser other, parser ≠ input.parser ∧ lastRun earlier parser = some other ∧
        r ∈ messagesOf env projectId other := by
  constructor
  · rintro ⟨parser, other, hlast, hr⟩
    rw [lastRun_append] at hlast
    split at hlast
    · obtain rfl := Option.some.inj hlast
      exact .inl hr
    · rename_i hne
      exact .inr ⟨parser, other, fun he => hne he.symm, hlast, hr⟩
  · rintro (hr | ⟨parser, other, hne, hlast, hr⟩)
    · exact ⟨input.parser, input, by rw [lastRun_append, if_pos rfl], hr⟩
    · exact ⟨parser, other, by rw [lastRun_append, if_neg (Ne.symm hne), hlast], hr⟩

/-- The messages that a run writes. -/
def written (env : Scanner) (projectId : String) (input : RunInput) : List MessageRecord :=
  (collectMessagesForParser env projectId input.language input.parser input.tree
    (input.targetFiles env)).getD []

theorem runMessageScanPipeline_covered
    (hsupported : (parserExtensions.any fun p => p.1 = input.parser) = true)
    (hcleanup : input.replaces = true → input.vectorCleanup = .done) :
    (runMessageScanPipeline env projectId input s).1 = {
      graph := upsert (((written env projectId input).map (messageNode projectId input)).map
        fun node => (node.record.id, node))
          (deleteWhere (fun _ node => clearsNode env projectId input node.record) s.graph)
      points := upsert (((written env projectId input).map (messagePoint input)).map
        fun point => (env.uuid5 point.record.id, point))
          (deleteWhere (fun _ point => clearsPoint env projectId input point.record) s.points) } := by
  have hraise : ¬ (input.replaces && input.vectorCleanup ≠ .done) = true := by
    rw [Bool.and_eq_true, decide_eq_true_eq]
    exact fun h => h.2 (hcleanup h.1)
  unfold runMessageScanPipeline written
  simp only
  rw [if_neg hraise]
  cases input.targetFiles env with
  | none => rw [collectMessagesForParser_full hsupported]; rfl
  | some targets => rw [collectMessagesForParser_targets hsupported]; rfl

theorem mem_messagesOf
    (hsupported : (parserExtensions.any fun p => p.1 = input.parser) = true)
    (hapart : Apart env projectId input.language input.parser input.tree) :
    r ∈ messagesOf env projectId input ↔
      ∃ path, ((input.tree.content path).isSome ∧ walks env input.parser path = true) ∧
        r ∈ keepBest MessageRecord.id beats
          (recordsOfFile env projectId input.language input.parser input.tree path) := by
  unfold messagesOf
  rw [collectMessagesForParser_full hsupported, Option.getD_some,
    mem_keepBest_flatMap nodup_iterParserFiles]
  · simp only [mem_iterParserFiles]
  · intro a ha b hb x hx y hy he
    exact hapart a b (mem_iterParserFiles.mp ha).2 (mem_iterParserFiles.mp hb).2 x hx y hy he

theorem mem_written_full (hfull : input.incremental = false) :
    r ∈ written env projectId input ↔ r ∈ messagesOf env projectId input := by
  rw [written, messagesOf, RunInput.targetFiles, if_neg (by rw [hfull]; exact Bool.false_ne_true)]

theorem keyed_written : Keyed MessageRecord.id (written env projectId input) := by
  unfold written collectMessagesForParser
  split
  · exact keyed_keepBest _
  · exact List.nodup_nil

/-- What every message of a run carries. -/
theorem messagesOf_fields (h : r ∈ messagesOf env projectId input) :
    r.projectId = projectId ∧ r.language = input.language := by
  unfold messagesOf collectMessagesForParser at h
  split at h
  · obtain ⟨path, -, hr⟩ := List.mem_flatMap.mp (mem_of_mem_keepBest h)
    exact (recordsOfFile_fields hr).2
  · cases h

/-- **What a store holds after a run**, by what the run writes and what it clears. -/
theorem holds_step {β : Type} {key : MessageRecord → String} {value : β → MessageRecord}
    {store : String → Option β} {row : MessageRecord → β} {clear : MessageRecord → Bool}
    (hstore : Holds key value store (Expected env projectId earlier))
    (hrow : ∀ r ∈ written env projectId input, value (row r) = r)
    (hkey : ∀ r r' : MessageRecord, r.id = r'.id → key r = key r')
    (hids : ∀ r ∈ messagesOf env projectId input, ∀ r',
      Expected env projectId (earlier ++ [input]) r' → key r = key r' → r = r')
    (hfound : ∀ r ∈ written env projectId input, r ∈ messagesOf env projectId input)
    (hleft : ∀ r ∈ messagesOf env projectId input, r ∈ written env projectId input ∨
      Expected env projectId earlier r ∧ clear r = false)
    (hothers : ∀ parser other, parser ≠ input.parser → lastRun earlier parser = some other →
      ∀ r ∈ messagesOf env projectId other, clear r = true → r ∈ messagesOf env projectId input)
    (hkept : ∀ old, lastRun earlier input.parser = some old →
      ∀ r ∈ messagesOf env projectId old, clear r = false →
        ∃ r', Expected env projectId (earlier ++ [input]) r' ∧ r'.id = r.id) :
    Holds key value
      (upsert (((written env projectId input).map row).map fun b => (key (value b), b))
        (deleteWhere (fun _ b => clear (value b)) store))
      (Expected env projectId (earlier ++ [input])) := by
  have hnodup : (((written env projectId input).map row).map fun b => key (value b)).Nodup := by
    rw [List.map_map]
    refine List.Nodup.map_on ?_ (List.Nodup.of_map _ keyed_written)
    intro r hr r' hr' he
    rw [Function.comp_apply, Function.comp_apply, hrow r hr, hrow r' hr'] at he
    exact hids r (hfound r hr) r' (expected_append.mpr (.inl (hfound r' hr'))) he
  refine ((hstore.deleteWhere clear).upsert hnodup).congr fun r => ?_
  have hin : (∃ b ∈ (written env projectId input).map row, value b = r) ↔
      r ∈ written env projectId input := by
    constructor
    · rintro ⟨b, hb, rfl⟩
      obtain ⟨r, hr, rfl⟩ := List.mem_map.mp hb
      rwa [hrow r hr]
    · exact fun hr => ⟨row r, List.mem_map_of_mem hr, hrow r hr⟩
  have hfresh : (∀ b ∈ (written env projectId input).map row, key (value b) ≠ key r) ↔
      ∀ r' ∈ written env projectId input, key r' ≠ key r := by
    constructor
    · intro h r' hr'
      have := h (row r') (List.mem_map_of_mem hr')
      rwa [hrow r' hr'] at this
    · intro h b hb
      obtain ⟨r', hr', rfl⟩ := List.mem_map.mp hb
      rw [hrow r' hr']
      exact h r' hr'
  rw [hin, hfresh]
  -- a message that stays in the store, and is expected, is there unless the run wrote it
  have hstays : Expected env projectId earlier r → clear r = false →
      Expected env projectId (earlier ++ [input]) r →
      r ∈ written env projectId input ∨ (Expected env projectId earlier r ∧ clear r = false) ∧
        ∀ r' ∈ written env projectId input, key r' ≠ key r := by
    intro hbefore hclear hnow
    by_cases hw : ∃ r' ∈ written env projectId input, key r' = key r
    · obtain ⟨r', hr', he⟩ := hw
      exact .inl (hids r' (hfound r' hr') r hnow he ▸ hr')
    · exact .inr ⟨⟨hbefore, hclear⟩, fun r' hr' he => hw ⟨r', hr', he⟩⟩
  have hmine : r ∈ messagesOf env projectId input →
      r ∈ written env projectId input ∨ (Expected env projectId earlier r ∧ clear r = false) ∧
        ∀ r' ∈ written env projectId input, key r' ≠ key r := by
    intro hr
    rcases hleft r hr with hw | ⟨hbefore, hclear⟩
    · exact .inl hw
    · exact hstays hbefore hclear (expected_append.mpr (.inl hr))
  constructor
  · rintro (hw | ⟨⟨⟨parser, other, hlast, hr⟩, hclear⟩, hnew⟩)
    · exact expected_append.mpr (.inl (hfound r hw))
    · by_cases hparser : parser = input.parser
      · subst hparser
        -- the message is expected under its id, so it is the one that is expected
        obtain ⟨r', hexpected, hid⟩ := hkept other hlast r hr hclear
        have hsame : Expected env projectId earlier r' → r' = r := fun h =>
          hstore.unique h ⟨_, other, hlast, hr⟩ (hkey _ _ hid)
        rcases expected_append.mp hexpected with hmine' | ⟨p, o, hne, hlast', hr'⟩
        · rcases hleft r' hmine' with hw | ⟨hbefore, -⟩
          · exact absurd (hkey _ _ hid) (hnew r' hw)
          · exact hsame hbefore ▸ hexpected
        · exact hsame ⟨p, o, hlast', hr'⟩ ▸ hexpected
      · exact expected_append.mpr (.inr ⟨parser, other, hparser, hlast, hr⟩)
  · intro hnow
    rcases expected_append.mp hnow with hr | ⟨parser, other, hne, hlast, hr⟩
    · exact hmine hr
    · by_cases hclear : clear r = true
      · exact hmine (hothers parser other hne hlast r hr hclear)
      · exact hstays ⟨parser, other, hlast, hr⟩ (by simpa using hclear) hnow

end Step

/-! ## Incremental runs -/

section Incremental

variable {env : Scanner} {projectId : String} {earlier : List RunInput} {before : Tree}
  {input old : RunInput} {r : MessageRecord} {path : String}

theorem clears_given (hincremental : input.incremental = true)
    (h : clearsNode env projectId input r = true ∨ clearsPoint env projectId input r = true) :
    ∃ given ∈ input.cleanupPaths env,
      strip (slashes given) = r.filePath ∨ slashes given = r.filePath := by
  have hreplaces : input.replaces = false := by simp [RunInput.replaces, hincremental]
  rcases h with h | h
  · rw [clearsNode, hreplaces, hincremental, Bool.false_or, Bool.true_and, Bool.and_eq_true,
      List.contains_iff_mem] at h
    obtain ⟨given, hgiven, he⟩ := List.mem_map.mp h.2
    exact ⟨given, List.mem_of_mem_filter hgiven, .inl he⟩
  · rw [clearsPoint, hreplaces, hincremental, Bool.false_and, Bool.false_or, Bool.true_and,
      Bool.and_eq_true, Bool.and_eq_true, List.contains_iff_mem] at h
    obtain ⟨given, hgiven, he⟩ := List.mem_map.mp h.2.2
    exact ⟨given, List.mem_of_mem_filter hgiven, .inr he⟩

theorem clearsNode_given (hincremental : input.incremental = true)
    (hpath : path ∈ input.cleanupPaths env) (hnormal : normalizeRelPath env path = some path)
    (hslashes : slashes path = path) (hstrip : strip path = path)
    (hfile : r.filePath = slashes path) (hproject : r.projectId = projectId) :
    clearsNode env projectId input r = true := by
  have hblank : blank path = false := by
    refine Bool.eq_false_iff.mpr fun h => ?_
    have hempty : path = "" := hstrip ▸ strip_of_blank h
    rw [normalizeRelPath, hstrip, hslashes, hempty] at hnormal
    cases hnormal
  rw [clearsNode, hincremental, hproject, decide_eq_true rfl, Bool.true_and, Bool.true_and,
    Bool.or_eq_true, List.contains_iff_mem]
  refine .inr (List.mem_map.mpr ⟨path, List.mem_filter.mpr ⟨hpath, by rw [hblank]; rfl⟩, ?_⟩)
  rw [hslashes, hstrip, hfile, hslashes]

theorem mem_written_targets
    (hsupported : (parserExtensions.any fun p => p.1 = input.parser) = true)
    (hincremental : input.incremental = true)
    (hfiles : FilesCovered env projectId before input) :
    r ∈ written env projectId input ↔
      ∃ path, ((input.tree.content path).isSome ∧
          path ∈ (input.normalizedChanged env).filterMap (normalizeRelPath env) ∧
          fileMatchesParser env path input.parser = true) ∧
        r ∈ keepBest MessageRecord.id beats
          (recordsOfFile env projectId input.language input.parser input.tree path) := by
  have hwalks : ∀ path ∈ targetFilesOf env input.tree input.parser (input.normalizedChanged env),
      ∀ r ∈ recordsOfFile env projectId input.language input.parser input.tree path,
        walks env input.parser path = true := by
    intro path hpath r hr
    obtain ⟨-, htarget, hmatch⟩ := mem_targetFilesOf.mp hpath
    rw [← hfiles.suffix path (.inr (List.ne_nil_of_mem hr)) (.inr (.inr (.inr htarget)))]
    exact hmatch
  unfold written RunInput.targetFiles
  rw [if_pos hincremental, collectMessagesForParser_targets hsupported, Option.getD_some,
    mem_keepBest_flatMap nodup_targetFilesOf]
  · simp only [mem_targetFilesOf]
  · intro a ha b hb x hx y hy he
    exact hfiles.apartNow a b (hwalks a ha x hx) (hwalks b hb y hy) x hx y hy he

theorem messagesOf_same {old : RunInput} (hparser : old.parser = input.parser)
    (hlanguage : old.language = input.language)
    (hsupported : (parserExtensions.any fun p => p.1 = input.parser) = true)
    (hfiles : FilesCovered env projectId old.tree input) :
    r ∈ messagesOf env projectId old ↔
      ∃ path, ((old.tree.content path).isSome ∧ walks env input.parser path = true) ∧
        r ∈ keepBest MessageRecord.id beats
          (recordsOfFile env projectId input.language input.parser old.tree path) := by
  rw [mem_messagesOf (hparser.symm ▸ hsupported) (by rw [hparser, hlanguage]; exact hfiles.apart),
    hparser, hlanguage]

/-- A file that speaks and changed is given under its own name. -/
theorem mem_normalizedChanged (hfiles : FilesCovered env projectId before input)
    (hspeaks : Speaks env projectId before input path)
    (h : path ∈ input.changedFiles ∨ path ∈ input.normalizedChanged env) :
    path ∈ input.normalizedChanged env := by
  rcases h with h | h
  · exact List.mem_filterMap.mpr ⟨path, h, (hfiles.named path hspeaks (.inl h)).1⟩
  · exact h

theorem mem_normalizedDeleted (hfiles : FilesCovered env projectId before input)
    (hspeaks : Speaks env projectId before input path)
    (h : path ∈ input.deletedFiles ∨ path ∈ input.normalizedDeleted env) :
    path ∈ input.normalizedDeleted env := by
  rcases h with h | h
  · exact List.mem_filterMap.mpr ⟨path, h, (hfiles.named path hspeaks (.inr (.inl h))).1⟩
  · exact h

/-- A file that speaks and is not the same any more is cleared. -/
theorem mem_cleanupPaths (hdelivered : Delivered env before input)
    (hfiles : FilesCovered env projectId before input)
    (hspeaks : Speaks env projectId before input path) (hexisted : (before.content path).isSome)
    (hchanged : before.content path ≠ input.tree.content path) :
    path ∈ input.cleanupPaths env := by
  rw [RunInput.cleanupPaths, List.mem_append]
  cases hnow : input.tree.content path with
  | none =>
    exact .inr (mem_normalizedDeleted hfiles hspeaks (hdelivered.deleted path hexisted hnow))
  | some content =>
    exact .inl (mem_normalizedChanged hfiles hspeaks
      (hdelivered.changed path hchanged (by rw [hnow]; rfl)))

theorem mem_written_or_left
    (hsupported : (parserExtensions.any fun p => p.1 = input.parser) = true)
    (hincremental : input.incremental = true)
    (hlanguage : ∀ old, lastRun earlier input.parser = some old → old.language = input.language)
    (hdelivered : Delivered env (treeOf earlier input.parser) input)
    (hfiles : FilesCovered env projectId (treeOf earlier input.parser) input)
    (hr : r ∈ messagesOf env projectId input) :
    r ∈ written env projectId input ∨ Expected env projectId earlier r ∧
      clearsNode env projectId input r = false ∧ clearsPoint env projectId input r = false := by
  obtain ⟨path, ⟨hexists, hwalks⟩, hbest⟩ :=
    (mem_messagesOf hsupported hfiles.apartNow).mp hr
  have hrecord := mem_of_mem_keepBest hbest
  have hspeaks : Speaks env projectId (treeOf earlier input.parser) input path :=
    .inr (List.ne_nil_of_mem hrecord)
  have hfile := (recordsOfFile_fields hrecord).1
  by_cases hpath : path ∈ input.normalizedChanged env
  · have hmeets : input.meets env path := .inr (.inr (.inl (List.mem_append_left _ hpath)))
    have htarget : path ∈ (input.normalizedChanged env).filterMap (normalizeRelPath env) :=
      List.mem_filterMap.mpr ⟨path, hpath, (hfiles.named path hspeaks hmeets).1⟩
    have hmatch := hfiles.suffix path hspeaks hmeets
    exact .inl ((mem_written_targets hsupported hincremental hfiles).mpr
      ⟨path, ⟨hexists, htarget, hmatch.trans hwalks⟩, hbest⟩)
  · right
    have hsame : (treeOf earlier input.parser).content path = input.tree.content path := by
      by_contra hne
      exact hpath (mem_normalizedChanged hfiles hspeaks (hdelivered.changed path hne hexists))
    have hkept : ∀ given ∈ input.cleanupPaths env,
        ¬ (strip (slashes given) = r.filePath ∨ slashes given = r.filePath) := by
      intro given hgiven he
      rw [hfile] at he
      obtain rfl := hfiles.cleared path hspeaks given hgiven he
      rcases List.mem_append.mp hgiven with h | h
      · exact hpath h
      · rcases hdelivered.gone _ h with hgone | h
        · rw [hgone] at hexists
          cases hexists
        · exact hpath h
    have hclear : ¬ (clearsNode env projectId input r = true ∨
        clearsPoint env projectId input r = true) := by
      intro h
      obtain ⟨given, hgiven, he⟩ := clears_given hincremental h
      exact hkept given hgiven he
    rw [not_or, Bool.not_eq_true, Bool.not_eq_true] at hclear
    refine ⟨?_, hclear⟩
    cases hlast : lastRun earlier input.parser with
    | none =>
      rw [← hsame, treeOf, hlast] at hexists
      cases hexists
    | some old =>
      have htree : treeOf earlier input.parser = old.tree := by rw [treeOf, hlast]; rfl
      rw [htree] at hsame hfiles
      refine ⟨input.parser, old, hlast, (messagesOf_same (parser_of_lastRun hlast)
        (hlanguage old hlast) hsupported hfiles).mpr ⟨path, ⟨hsame ▸ hexists, hwalks⟩, ?_⟩⟩
      rwa [recordsOfFile_congr hsame]

theorem mem_messagesOf_of_kept
    (hsupported : (parserExtensions.any fun p => p.1 = input.parser) = true)
    (hincremental : input.incremental = true)
    (hlanguage : ∀ old, lastRun earlier input.parser = some old → old.language = input.language)
    (hdelivered : Delivered env (treeOf earlier input.parser) input)
    (hfiles : FilesCovered env projectId (treeOf earlier input.parser) input)
    (hlast : lastRun earlier input.parser = some old) (hr : r ∈ messagesOf env projectId old)
    (hkept : clearsNode env projectId input r = false) : r ∈ messagesOf env projectId input := by
  have htree : treeOf earlier input.parser = old.tree := by rw [treeOf, hlast]; rfl
  rw [htree] at hdelivered hfiles
  obtain ⟨path, ⟨hexisted, hwalks⟩, hbest⟩ := (messagesOf_same (parser_of_lastRun hlast)
    (hlanguage old hlast) hsupported hfiles).mp hr
  have hrecord := mem_of_mem_keepBest hbest
  have hspeaks : Speaks env projectId old.tree input path := .inl (List.ne_nil_of_mem hrecord)
  have hsame : old.tree.content path = input.tree.content path := by
    by_contra hne
    have hpath := mem_cleanupPaths hdelivered hfiles hspeaks hexisted hne
    obtain ⟨hnormal, hslashes, hstrip⟩ :=
      hfiles.named path hspeaks (.inr (.inr (.inl hpath)))
    obtain ⟨hfile, hproject, -⟩ := recordsOfFile_fields hrecord
    rw [clearsNode_given hincremental hpath hnormal hslashes hstrip hfile hproject] at hkept
    cases hkept
  refine (mem_messagesOf hsupported hfiles.apartNow).mpr ⟨path, ⟨hsame ▸ hexisted, hwalks⟩, ?_⟩
  rwa [← recordsOfFile_congr hsame]

/-- An incremental run writes what a full run finds. -/
theorem mem_messagesOf_of_written
    (hsupported : (parserExtensions.any fun p => p.1 = input.parser) = true)
    (hincremental : input.incremental = true)
    (hfiles : FilesCovered env projectId before input)
    (hr : r ∈ written env projectId input) : r ∈ messagesOf env projectId input := by
  obtain ⟨path, ⟨hexists, htarget, hmatch⟩, hbest⟩ :=
    (mem_written_targets hsupported hincremental hfiles).mp hr
  have hspeaks : Speaks env projectId before input path :=
    .inr (List.ne_nil_of_mem (mem_of_mem_keepBest hbest))
  rw [hfiles.suffix path hspeaks (.inr (.inr (.inr htarget)))] at hmatch
  exact (mem_messagesOf hsupported hfiles.apartNow).mpr ⟨path, ⟨hexists, hmatch⟩, hbest⟩

end Incremental

/-! ## Histories -/

section Histories

variable {env : Scanner} {projectId : String} {earlier inputs reached : List RunInput}
  {input : RunInput} {r : MessageRecord}

theorem messageNode_record (hsender : r.sender ≠ "") (hr : r ∈ messagesOf env projectId input) :
    (messageNode projectId input r).record = r := by
  obtain ⟨hproject, hlanguage⟩ := messagesOf_fields hr
  unfold messageNode
  rw [if_neg hsender, ← hproject, ← hlanguage]

theorem history_append : history env projectId (earlier ++ [input]) =
    (runMessageScanPipeline env projectId input (history env projectId earlier)).1 := by
  rw [history, List.foldl_append]
  rfl

theorem converged_nil : Converged env projectId (history env projectId []) [] := by
  have hnone : ∀ r, ¬ Expected env projectId [] r := by
    rintro r ⟨parser, input, hlast, -⟩
    cases hlast
  constructor
  · intro k r
    exact ⟨fun h => (nomatch h), fun h => absurd h.1 (hnone r)⟩
  · intro k r
    exact ⟨fun h => (nomatch h), fun h => absurd h.1 (hnone r)⟩

/-- **A covered run converges.** -/
theorem converged_step (hbefore : Converged env projectId (history env projectId earlier) earlier)
    (hdelivered : input.incremental = true →
      Delivered env (treeOf earlier input.parser) input)
    (hcovered : RunCovered env projectId earlier input) :
    Converged env projectId (history env projectId (earlier ++ [input])) (earlier ++ [input]) := by
  have hfound : ∀ r ∈ written env projectId input, r ∈ messagesOf env projectId input := by
    intro r hr
    cases hmode : input.incremental with
    | false => exact (mem_written_full hmode).mp hr
    | true => exact mem_messagesOf_of_written hcovered.supported hmode (hcovered.files hmode).2 hr
  have hleft : ∀ r ∈ messagesOf env projectId input, r ∈ written env projectId input ∨
      Expected env projectId earlier r ∧
        clearsNode env projectId input r = false ∧ clearsPoint env projectId input r = false := by
    intro r hr
    cases hmode : input.incremental with
    | false => exact .inl ((mem_written_full hmode).mpr hr)
    | true =>
      exact mem_written_or_left hcovered.supported hmode (hcovered.files hmode).1
        (hdelivered hmode) (hcovered.files hmode).2 hr
  have hnode : ∀ old, lastRun earlier input.parser = some old →
      ∀ r ∈ messagesOf env projectId old, clearsNode env projectId input r = false →
        ∃ r', Expected env projectId (earlier ++ [input]) r' ∧ r'.id = r.id := by
    intro old hlast r hr hkept
    cases hmode : input.incremental with
    | false =>
      refine hcovered.stale old hlast r hr (.inl ⟨hmode, ?_⟩)
      rw [clearsNode, (messagesOf_fields hr).1, decide_eq_true rfl, Bool.true_and,
        Bool.or_eq_false_iff] at hkept
      exact hkept.1
    | true =>
      have hagain := mem_messagesOf_of_kept hcovered.supported hmode (hcovered.files hmode).1
        (hdelivered hmode) (hcovered.files hmode).2 hlast hr hkept
      exact ⟨r, expected_append.mpr (.inl hagain), rfl⟩
  have hpoint : ∀ old, lastRun earlier input.parser = some old →
      ∀ r ∈ messagesOf env projectId old, clearsPoint env projectId input r = false →
        ∃ r', Expected env projectId (earlier ++ [input]) r' ∧ r'.id = r.id := by
    intro old hlast r hr hkept
    by_cases hcleared : clearsNode env projectId input r = true
    · exact hcovered.stale old hlast r hr (.inr ⟨hcleared, hkept⟩)
    · exact hnode old hlast r hr (by simpa using hcleared)
  rw [history_append, runMessageScanPipeline_covered hcovered.supported hcovered.cleanup]
  constructor
  · refine holds_step hbefore.graph (fun r hr => ?_) (fun _ _ h => h)
      (fun r hr r' hr' h => hcovered.ids r hr r' hr' (.inl h)) hfound
      (fun r hr => (hleft r hr).imp_right fun h => ⟨h.1, h.2.1⟩)
      (fun parser other hne hlast r hr h => hcovered.others parser other hne hlast r hr (.inl h))
      hnode
    exact messageNode_record (hcovered.senders r (hfound r hr)) (hfound r hr)
  · exact holds_step hbefore.points (fun _ _ => rfl)
      (fun _ _ h => congrArg env.uuid5 h)
      (fun r hr r' hr' h => hcovered.ids r hr r' hr' (.inr h)) hfound
      (fun r hr => (hleft r hr).imp_right fun h => ⟨h.1, h.2.2⟩)
      (fun parser other hne hlast r hr h => hcovered.others parser other hne hlast r hr (.inr h))
      hpoint

/-- **After every run of a covered history, both stores hold what every parser found in its last
run.** -/
theorem messages_converge
    (hdelivered : ∀ earlier input, earlier ++ [input] <+: inputs → input.incremental = true →
      Delivered env (treeOf earlier input.parser) input)
    (hcovered : ∀ earlier input, earlier ++ [input] <+: inputs →
      RunCovered env projectId earlier input)
    (hreached : reached <+: inputs) :
    Converged env projectId (history env projectId reached) reached := by
  induction reached using List.reverseRecOn with
  | nil => exact converged_nil
  | append_singleton earlier input ih =>
    have hbefore := ih ((List.prefix_append _ _).trans hreached)
    exact converged_step hbefore (hdelivered earlier input hreached)
      (hcovered earlier input hreached)

end Histories

/-! ## A history of two parsers -/

section Sample

/-- `PythonMessageDetector` and `JavaMessageDetector` on a call with one quoted argument, outside of
any function. -/
def sampleDetector (parser : String) (keywords : List String) : Detector where
  keywords := keywords
  extractSender := fun _ => ""
  extractFields := fun callee args =>
    let first := args.headD ""
    (String.ofList (first.toList.filter (· != '"')), "", first,
      callee ++ "() inferred by " ++ parser ++ " detector")

def sampleScanner : Scanner where
  lower := fun text => String.ofList (text.toList.map Char.toLower)
  sha1Hex := fun base =>
    if base = "shop||a.py||1||a.py||||order||\"order\"" then
      "67accd30fc7164d0367f4944c90f2d6bdca5fdc6"
    else if base = "shop||a.py||1||a.py||||paid||\"paid\"" then
      "a47a40c261d7439c783f362c4d6c0ac64f092f2c"
    else "0578dc4b79a9ea334b0fdc18f650535b114ac31b"
  uuid5 := fun id =>
    if id = "msg::67accd30fc7164d0367f4944" then "67cd987d-d2ec-5d6d-bc86-e3181f269ba0"
    else if id = "msg::a47a40c261d7439c783f362c" then "c8b04556-53af-5afd-9bcd-290c64ecdcc9"
    else "586e35c9-e5c5-5b35-b8cb-420128a124b1"
  relativeToRoot := id
  isExcludedDir := fun name => [".git", "node_modules"].contains name
  getDetector := fun parser =>
    if parser = "python" then
      sampleDetector "python"
        ["publish", "send", "emit", "post", "notify", "dispatch", "enqueue", "produce", "push"]
    else
      sampleDetector "java" ["publish", "post", "send", "emit", "sendbroadcast", "registerreceiver",
        "sendmessage", "notify"]
  unquote := fun text => some (String.ofList (text.toList.filter (· != '"')))
  projectIdLookupKey := fun id => String.ofList (id.toList.map Char.toLower)

/-- A Python and a Java file. -/
def sampleTree : Tree where
  files := [("a.py", "publish(\"order\")"), ("B.java", "publish(\"paid\");")]
  keyed := by unfold Keyed; decide

/-- The tree with another call in the Python file. -/
def sampleEdited : Tree where
  files := [("a.py", "publish(\"paid\")"), ("B.java", "publish(\"paid\");")]
  keyed := by unfold Keyed; decide

/-- A full run with the defaults. -/
def fullRun (parser : String) (tree : Tree) : RunInput where
  parser := parser
  language := parser
  projectName := "shop"
  repo := "/src/shop"
  buildSystem := ""
  incremental := false
  changedFiles := []
  deletedFiles := []
  replaceExistingOnFull := true
  vectorCleanup := .done
  tree := tree

/-- An incremental run after the edit. -/
def editRun (vectorCleanup : VectorCleanup) : RunInput :=
  { fullRun "python" sampleEdited with
    incremental := true
    changedFiles := ["a.py"]
    vectorCleanup := vectorCleanup }

theorem speaks_sample {vectorCleanup : VectorCleanup} {path : String}
    (h : Speaks sampleScanner "shop" sampleTree (editRun vectorCleanup) path) :
    path = "a.py" ∨ path = "B.java" := by
  have hfile : ∀ {t : Tree}, recordsOfFile sampleScanner "shop" "python" "python" t path ≠ [] →
      path ∈ t.files.map Prod.fst := by
    intro t hrecords
    rw [← content_isSome]
    by_contra hnone
    rw [Bool.not_eq_true, Option.isSome_eq_false_iff, Option.isNone_iff_eq_none] at hnone
    exact hrecords (by unfold recordsOfFile; rw [hnone])
  rcases h with h | h
  · simpa [sampleTree] using hfile h
  · have hpath := hfile (t := sampleEdited) h
    simpa [sampleEdited] using hpath

theorem delivered_sample (vectorCleanup : VectorCleanup) :
    Delivered sampleScanner sampleTree (editRun vectorCleanup) := by
  have hsame : ∀ path, path ≠ "a.py" → sampleTree.content path = sampleEdited.content path := by
    intro path hne
    simp [Tree.content, sampleTree, sampleEdited, lookup, List.find?_cons, Ne.symm hne]
  constructor
  · intro path hchanged _
    by_cases hpath : path = "a.py"
    · exact .inl (List.mem_singleton.mpr hpath)
    · exact absurd (hsame path hpath) hchanged
  · intro path hexisted hgone
    by_cases hpath : path = "a.py"
    · subst hpath
      have hnone : some "publish(\"paid\")" = none := hgone
      cases hnone
    · rw [hsame path hpath] at hexisted
      exact absurd hgone (Option.isSome_iff_ne_none.mp hexisted)
  · intro path hpath
    cases hpath

/-- **A full run clears what another parser found, and a failed clearing of vectors goes unnoticed.** -/
theorem second_parser_clears_first :
    ¬ Converged sampleScanner "shop"
        (history sampleScanner "shop" [fullRun "python" sampleTree, fullRun "java" sampleTree])
        [fullRun "python" sampleTree, fullRun "java" sampleTree] ∧
      Delivered sampleScanner (treeOf [fullRun "python" sampleTree] "python")
        (editRun (.failed [])) ∧
      (runMessageScanPipeline sampleScanner "shop" (editRun (.failed []))
        (history sampleScanner "shop" [fullRun "python" sampleTree])).2.isSome = true ∧
      ¬ Converged sampleScanner "shop"
        (history sampleScanner "shop" [fullRun "python" sampleTree, editRun (.failed [])])
        [fullRun "python" sampleTree, editRun (.failed [])] := by
  have hids : (messagesOf sampleScanner "shop" (fullRun "python" sampleTree)).map MessageRecord.id =
      ["msg::67accd30fc7164d0367f4944"] := by decide +kernel
  have hedited : (messagesOf sampleScanner "shop" (editRun (.failed []))).map MessageRecord.id =
      ["msg::a47a40c261d7439c783f362c"] := by decide +kernel
  refine ⟨fun h => ?_, delivered_sample _, by decide +kernel, fun h => ?_⟩
  · obtain ⟨r, hr, hid⟩ := List.mem_map.mp (hids ▸ List.mem_singleton.mpr rfl)
    have hstored := (h.graph r.id r).mpr ⟨⟨"python", _, rfl, hr⟩, rfl⟩
    have hnone : ((history sampleScanner "shop"
        [fullRun "python" sampleTree, fullRun "java" sampleTree]).graph
          "msg::67accd30fc7164d0367f4944").isNone = true := by decide +kernel
    rw [hid, Option.isNone_iff_eq_none.mp hnone] at hstored
    cases hstored
  · have hsome : ((history sampleScanner "shop"
        [fullRun "python" sampleTree, editRun (.failed [])]).points
          "67cd987d-d2ec-5d6d-bc86-e3181f269ba0").isSome = true := by decide +kernel
    obtain ⟨point, hpoint⟩ := Option.isSome_iff_exists.mp hsome
    obtain ⟨⟨parser, input, hlast, hr⟩, hkey⟩ :=
      (h.points _ point.record).mp (by rw [hpoint]; rfl)
    have hparser : parser = "python" := by
      have hin := List.mem_of_find?_eq_some hlast
      rw [← parser_of_lastRun hlast]
      rcases List.mem_cons.mp (List.mem_reverse.mp hin) with rfl | hin
      · rfl
      · rw [List.mem_singleton.mp hin]
        rfl
    subst hparser
    obtain rfl := Option.some.inj hlast
    have hid := hedited ▸ List.mem_map_of_mem hr
    have hother : sampleScanner.uuid5 "msg::a47a40c261d7439c783f362c" =
        "67cd987d-d2ec-5d6d-bc86-e3181f269ba0" := List.mem_singleton.mp hid ▸ hkey
    exact absurd hother (by decide)

theorem covered_full : RunCovered sampleScanner "shop" [] (fullRun "python" sampleTree) where
  supported := by decide
  cleanup := fun _ => rfl
  senders := by decide +kernel
  ids := by
    intro r hr r' hr' _
    rcases expected_append.mp hr' with hr' | ⟨_, _, _, hlast, _⟩
    · have hall : ∀ r ∈ messagesOf sampleScanner "shop" (fullRun "python" sampleTree),
          ∀ r' ∈ messagesOf sampleScanner "shop" (fullRun "python" sampleTree), r = r' := by
        decide +kernel
      exact hall r hr r' hr'
    · cases hlast
  others := by
    intro _ _ _ hlast
    cases hlast
  stale := by
    intro _ hlast
    cases hlast
  files := nofun

theorem covered_edit :
    RunCovered sampleScanner "shop" [fullRun "python" sampleTree] (editRun .done) where
  supported := by decide
  cleanup := fun _ => rfl
  senders := by decide +kernel
  ids := by
    intro r hr r' hr' _
    rcases expected_append.mp hr' with hr' | ⟨parser, other, hne, hlast, _⟩
    · have hall : ∀ r ∈ messagesOf sampleScanner "shop" (editRun .done),
          ∀ r' ∈ messagesOf sampleScanner "shop" (editRun .done), r = r' := by
        decide +kernel
      exact hall r hr r' hr'
    · have hin := List.mem_of_find?_eq_some hlast
      exact absurd ((parser_of_lastRun hlast).symm.trans (List.mem_singleton.mp hin ▸ rfl)) hne
  others := by
    intro parser other hne hlast
    have hin := List.mem_of_find?_eq_some hlast
    exact absurd ((parser_of_lastRun hlast).symm.trans (List.mem_singleton.mp hin ▸ rfl)) hne
  stale := by
    intro old hlast r hr h
    obtain rfl := Option.some.inj hlast
    have hall : ∀ r ∈ messagesOf sampleScanner "shop" (fullRun "python" sampleTree),
        clearsPoint sampleScanner "shop" (editRun .done) r = true := by decide +kernel
    rcases h with h | h
    · exact absurd h.1 (by decide)
    · rw [hall r hr] at h
      exact absurd h.2 (by decide)
  files := by
    intro _
    refine ⟨fun old hlast => by obtain rfl := Option.some.inj hlast; rfl, ?_⟩
    have hapart : ∀ {t : Tree}, (∀ path, recordsOfFile sampleScanner "shop" "python" "python" t path
        ≠ [] → path = "a.py" ∨ path = "B.java") → Apart sampleScanner "shop" "python" "python" t := by
      intro t hspeaks path path' hwalks hwalks' r hr r' hr' _
      rcases hspeaks path (List.ne_nil_of_mem hr) with rfl | rfl
      · rcases hspeaks path' (List.ne_nil_of_mem hr') with rfl | rfl
        · rfl
        · exact absurd hwalks' (by decide)
      · exact absurd hwalks (by decide)
    constructor
    · intro path hspeaks _
      rcases speaks_sample hspeaks with rfl | rfl <;> decide
    · intro path hspeaks given hgiven he
      obtain rfl : given = "a.py" := by simpa using (show given ∈ ["a.py"] from hgiven)
      rcases speaks_sample hspeaks with rfl | rfl
      · rfl
      · exact absurd he (by decide)
    · intro path hspeaks _
      rcases speaks_sample hspeaks with rfl | rfl <;> decide
    · exact hapart fun path h => @speaks_sample .done path (.inl h)
    · exact hapart fun path h => @speaks_sample .done path (.inr h)

theorem sample_converges :
    Converged sampleScanner "shop"
      (history sampleScanner "shop" [fullRun "python" sampleTree, editRun .done])
      [fullRun "python" sampleTree, editRun .done] := by
  have hsteps : ∀ {earlier input},
      earlier ++ [input] <+: [fullRun "python" sampleTree, editRun .done] →
        (earlier = [] ∧ input = fullRun "python" sampleTree) ∨
          (earlier = [fullRun "python" sampleTree] ∧ input = editRun .done) := by
    intro earlier input h
    match earlier, h with
    | [], h => exact .inl ⟨rfl, (List.cons_prefix_cons.mp h).1⟩
    | [a], h =>
      obtain ⟨rfl, hrest⟩ := List.cons_prefix_cons.mp h
      exact .inr ⟨rfl, (List.cons_prefix_cons.mp hrest).1⟩
    | a :: b :: rest, h =>
      have := h.length_le
      simp at this
  refine messages_converge (fun earlier input h hmode => ?_) (fun earlier input h => ?_)
    (List.prefix_refl _)
  · rcases hsteps h with ⟨rfl, rfl⟩ | ⟨rfl, rfl⟩
    · exact absurd hmode (by decide)
    · exact delivered_sample _
  · rcases hsteps h with ⟨rfl, rfl⟩ | ⟨rfl, rfl⟩
    · exact covered_full
    · exact covered_edit

end Sample

end CortexHarness.Messages
