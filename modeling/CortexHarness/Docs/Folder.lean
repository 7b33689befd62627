import CortexHarness.Docs.Graph
import CortexHarness.Library.Points
import Mathlib.Data.Finset.Dedup

/-!
# The folder ingest

Model of the folder loop of `doc-tiny/graphrag_ingest_langextract.py` and of `process_text`: every
file is cut into paragraphs, and every paragraph goes to the document graph, to the vector collection,
or to both, with the entities that the recogniser finds in it. The rule patterns that the recogniser
uses come from the rule files of the project, which the loop itself writes
(`ensure_yake_rules`, `_refresh_ruler_for_yake_change`, `_get_ruler_nlp`).

Model notes:

* A run is a list of steps, and an interrupted run does some of the first ones. What a process holds
  in memory (`Session`) is lost between runs.
* `Recogniser` collects what lies outside: the functions on texts, YAKE, and the recogniser with the
  patterns that are loaded. A rule file is its patterns, under the name its source gives it.
* Entities are merged. The vector of a point follows from its text and is left out.
-/

namespace CortexHarness.Docs

open Table Merges

/-! ## The arguments -/

/-- A pattern of an `EntityRuler`. -/
structure RulePattern where
  label : String
  pattern : String
  deriving DecidableEq

structure Recogniser where
  texts : Texts
  /-- `build_ruler_json(YakeRuleExtractor(…).extract(text))["patterns"]` -/
  keywords : String → List RulePattern
  /-- the entities and the relations that are found in a paragraph, by the patterns that are loaded -/
  extract : List RulePattern → String → List Found × List FoundRelation

structure FolderArgs where
  scope : Scope
  /-- `--source-id`, the empty text when it is not given -/
  sourceId : String
  yakeRules : Bool
  /-- `--entity-provider` is `gliner` -/
  gliner : Bool
  /-- the patterns of the `--ruler-json` files -/
  rulerJson : List RulePattern
  normalizeMode : NormalizeMode
  maxParagraphChars : Nat
  minParagraphChars : Nat
  skipLlmShort : Bool

/-- A file of the folder, by its path there; `text` is what is read of it. -/
structure FileDoc where
  path : String
  isXlsx : Bool
  text : String
  deriving DecidableEq

inductive Stage where
  | full
  /-- `--skip-qdrant` -/
  | graphOnly
  /-- `--skip-graph` -/
  | vectorOnly
  deriving DecidableEq

def Stage.writesGraph (stage : Stage) : Bool := stage ≠ .vectorOnly

def Stage.writesPoints (stage : Stage) : Bool := stage ≠ .graphOnly

/-! ## Identities -/

/-- `text.replace("/", "__").replace("\\", "__")` -/
def safeSourceKey (text : String) : String :=
  String.ofList (text.toList.flatMap fun c => if c = '/' || c = '\\' then ['_', '_'] else [c])

/-- The source id of a file: `_safe_source_id`, after the `--source-id`. -/
def sourceIdOf (args : FolderArgs) (file : FileDoc) : String :=
  if args.sourceId = "" then safeSourceKey file.path
  else args.sourceId ++ "__" ++ safeSourceKey file.path

/-- The key of a point. -/
def pointKey (projectIdNormalized : Option String) (sourceId : String) (paragraphId : Nat) : String :=
  projectIdNormalized.getD "" ++ ":" ++ sourceId ++ ":" ++ toString paragraphId

/-- `_point_id` -/
def pointId (env : Texts) (projectIdNormalized : Option String) (sourceId : String)
    (paragraphId : Nat) : String :=
  env.uuid5 (pointKey projectIdNormalized sourceId paragraphId)

/-! ## Paragraphs -/

/-- `re.split(r"\n\s*\n+", text)`, up to blanks at the ends of the parts: a part ends before a run of
blanks with two line ends. `block` and `gap` are the part and the blanks so far, last one first. -/
def splitBlocks (block gap : List Char) : List Char → List (List Char)
  | [] => [block.reverse]
  | c :: text =>
    if isSpace c then splitBlocks block (c :: gap) text
    else if 2 ≤ gap.count '\n' then block.reverse :: splitBlocks [c] [] text
    else splitBlocks (c :: (gap ++ block)) [] text

/-- `[p.strip() for p in parts if p.strip()]` -/
def stripAll (parts : List (List Char)) : List String :=
  (parts.map fun part => strip (String.ofList part)).filter (· ≠ "")

/-- `split_paragraphs` -/
def splitParagraphs (maxChars : Nat) (text : String) : List String :=
  (stripAll (splitBlocks [] [] text.toList)).flatMap fun paragraph =>
    if paragraph.length ≤ maxChars then [paragraph]
    else stripAll (Points.batches maxChars paragraph.toList)

/-- A paragraph that is stored. -/
structure Slot where
  index : Nat
  text : String
  short : Bool
  deriving DecidableEq

/-- The paragraphs of a text that `process_text` stores: the short ones first, if at all. -/
def slotsOf (args : FolderArgs) (text : String) : List Slot :=
  let paragraphs := (splitParagraphs args.maxParagraphChars text).zipIdx.map fun p =>
    { index := p.2, text := p.1, short := decide (p.1.length < args.minParagraphChars) : Slot }
  (paragraphs.filter fun slot => slot.short && args.skipLlmShort) ++
    paragraphs.filter fun slot => !slot.short

/-! ## The rule files -/

structure RuleFile where
  /-- `safe_source_key` of the source -/
  key : String
  patterns : List RulePattern
  deriving DecidableEq

/-- `ensure_rule_file`: without patterns the file is removed. -/
def ensureRuleFile (key : String) (patterns : List RulePattern) (rules : List RuleFile) :
    List RuleFile :=
  if patterns = [] then rules.filter fun file => file.key ≠ key
  else assign RuleFile.key { key, patterns } rules

/-- The patterns of the rules directory, file by file in the order of the names. -/
def loadRules (rules : List RuleFile) : List RulePattern :=
  (rules.insertionSort fun a b => a.key ++ ".json" ≤ b.key ++ ".json").flatMap RuleFile.patterns

/-! ## States -/

structure EntityMention where
  id : String
  name : String
  type : String
  startChar : Option Nat
  endChar : Option Nat
  confidence : Option Rat
  deriving DecidableEq

/-- The payload of a point. -/
structure DocPoint where
  sourceId : String
  paragraphId : Nat
  text : String
  entityIds : Finset String
  entityMentions : List EntityMention
  scope : Scope
  deriving DecidableEq

/-- What is kept between runs. -/
structure World where
  rules : List RuleFile
  graph : DocGraph
  points : String → Option DocPoint

def World.empty : World := { rules := [], graph := .empty, points := fun _ => none }

/-- What a process holds: the ruler sidecar and the batch of the graph. -/
structure Session where
  /-- `_ruler_nlp_ready` -/
  ready : Bool
  /-- `_ruler_nlp`, by its patterns -/
  ruler : Option (List RulePattern)
  batch : List DocItem

def Session.fresh : Session := { ready := false, ruler := none, batch := [] }

/-- The patterns that are loaded. -/
def Session.patterns (s : Session) : List RulePattern := s.ruler.getD []

/-! ## Steps -/

inductive FolderStep where
  /-- `_prune_yake_rules_for_folder` -/
  | prune
  /-- `_refresh_ruler_for_yake_change(args, ensure_yake_rules(…))` -/
  | rules (file : FileDoc)
  /-- `process_text` before its loops -/
  | start (file : FileDoc)
  | paragraph (file : FileDoc) (slot : Slot)
  /-- the last `flush_graph_batch` of `process_text` -/
  | finish
  deriving DecidableEq

/-- A run of the folder ingest; `cut` is the number of steps after which it is interrupted. -/
structure FolderRun where
  stage : Stage
  graphBatchSize : Nat
  cut : Option Nat
  deriving DecidableEq

section Run

variable (env : Recogniser) (args : FolderArgs) (folder : List FileDoc)

/-- The steps for one file. -/
def fileSteps (file : FileDoc) : List FolderStep :=
  (if file.isXlsx then [] else [.rules file]) ++
    if file.text = "" then []
    else .start file :: ((slotsOf args file.text).map (.paragraph file) ++ [.finish])

/-- The steps of a complete run. -/
def allSteps : List FolderStep := .prune :: folder.flatMap (fileSteps args)

/-- The steps of a run. -/
def FolderRun.steps (run : FolderRun) : List FolderStep :=
  match run.cut with
  | none => allSteps args folder
  | some n => (allSteps args folder).take n

/-- What `process_text` puts together for a paragraph. -/
def docItem (file : FileDoc) (slot : Slot) (found : List Found × List FoundRelation) : DocItem :=
  let components := if slot.short then ([], [])
    else buildGraphComponentsFromEntities env.texts args.normalizeMode
      args.scope.projectIdNormalized found.1 found.2
  { sourceId := sourceIdOf args file
    paragraphId := slot.index
    paragraphText := some slot.text
    isShort := slot.short
    paragraphProps := none
    nodes := components.1
    relations := components.2 }

/-- `ingest_to_qdrant` -/
def docPoint (item : DocItem) : DocPoint where
  sourceId := item.sourceId
  paragraphId := item.paragraphId
  text := item.paragraphText.getD ""
  entityIds := (item.nodes.map DocNode.id).toFinset
  entityMentions := item.nodes.map fun node =>
    let primary := selectPrimaryMention node.mentions
    { id := node.id
      name := node.name
      type := node.type
      startChar := primary.bind Mention.startChar
      endChar := primary.bind Mention.endChar
      confidence := node.confidence }
  scope := args.scope

/-- The id of the point of an item. -/
def itemPointId (item : DocItem) : String :=
  pointId env.texts args.scope.projectIdNormalized item.sourceId item.paragraphId

/-- `flush_graph_batch` -/
def flushGraphBatch (stage : Stage) (s : Session × World) : Session × World :=
  ({ s.1 with batch := [] },
    if s.1.batch ≠ [] && stage.writesGraph then
      { s.2 with graph := ingestToGraphBatch args.scope s.1.batch s.2.graph }
    else s.2)

/-- `_get_ruler_nlp` -/
def getRulerNlp (s : Session × World) : Session :=
  if s.1.ready then s.1
  else
    let patterns := if args.gliner then
        args.rulerJson ++ if args.yakeRules then loadRules s.2.rules else []
      else []
    { s.1 with ready := true, ruler := if patterns = [] then none else some patterns }

/-- `ensure_yake_rules` and `_refresh_ruler_for_yake_change` -/
def refreshRules (file : FileDoc) (s : Session × World) : Session × World :=
  if args.yakeRules then
    let patterns := env.keywords file.text
    let world := { s.2 with
      rules := ensureRuleFile (safeSourceKey (sourceIdOf args file)) patterns s.2.rules }
    match s.1.ruler with
    | some loaded =>
      if patterns ≠ [] && s.1.ready then ({ s.1 with ruler := some (loaded ++ patterns) }, world)
      else ({ s.1 with ready := false }, world)
    | none => ({ s.1 with ready := false }, world)
  else s

/-- `_prune_yake_rules_for_folder` -/
def pruneRules (w : World) : World :=
  if args.yakeRules then
    let keep := folder.map fun file => safeSourceKey (sourceIdOf args file)
    { w with rules := w.rules.filter fun file => keep.contains file.key }
  else w

/-- A paragraph of `process_text`: to the batch of the graph, and to the vectors. -/
def storeItem (run : FolderRun) (item : DocItem) (s : Session × World) : Session × World :=
  let s : Session × World := ({ s.1 with batch := s.1.batch ++ [item] }, s.2)
  let s := if run.graphBatchSize ≤ s.1.batch.length then flushGraphBatch args run.stage s else s
  if run.stage.writesPoints then
    (s.1, { s.2 with
      points := Function.update s.2.points (itemPointId env args item) (some (docPoint args item)) })
  else s

def runStep (run : FolderRun) (s : Session × World) : FolderStep → Session × World
  | .prune => (s.1, pruneRules args folder s.2)
  | .rules file => refreshRules env args file s
  | .start _ => (getRulerNlp args s, s.2)
  | .paragraph file slot =>
    storeItem env args run (docItem env args file slot (env.extract s.1.patterns slot.text)) s
  | .finish => flushGraphBatch args run.stage s

/-- A run from its first step. -/
def afterSteps (run : FolderRun) (w : World) (steps : List FolderStep) : Session × World :=
  steps.foldl (runStep env args folder run) (.fresh, w)

/-- A run of the folder ingest. -/
def runFolder (run : FolderRun) (w : World) : World :=
  (afterSteps env args folder run w (run.steps args folder)).2

/-- A sequence of runs, from empty stores. -/
def runFolders (runs : List FolderRun) : World :=
  runs.foldl (fun w run => runFolder env args folder run w) .empty

end Run

end CortexHarness.Docs
