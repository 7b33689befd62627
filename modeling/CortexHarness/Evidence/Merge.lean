import CortexHarness.Evidence.Contract
import CortexHarness.Library.Firsts
import CortexHarness.Library.Table
import Mathlib.Data.List.Dedup
import Mathlib.Data.List.Sort

/-!
# The evidence merge

Model of `merge_call_evidence` (`evidence_merge.py:131-174, 338-529`). The loop normalises every
observation, refuses what the contract refuses, collapses an observation whose evidence identity was
seen (`repeated` keeps the provenance of the runs) and files the others under their call site. The
dict `identities` and the lists of the sites hold the same objects; here `identities` holds them,
each with its site, and the list of a site is the observations filed under it (`callSites`).

From the sites, in the order of their source position, the strict rows are derived: one for every
site whose strong observations agree on the callee.
-/

namespace CortexHarness.Evidence

open Json Table

variable (rt : Runtime)

/-! ## Filing an observation -/

/-- A claimed direct resolution is strong, or refused. -/
def requireStrong (normalized : Row) : Except MergeError Unit :=
  if (field normalized "resolution_class").isText directResolved then do
    if ← isStrongCallEvidence normalized then return ()
    else throw (.value ("direct_resolved observation refused: requires an approved semantic " ++
      "provider and complete identity fields"))
  else .ok ()

/-- `str(normalized.get("project_id") or project_id)`. -/
def rowProject (projectId : String) (row : Row) : String :=
  rt.str (either (field row "project_id") (.str projectId))

/-- Observations from another project are refused. -/
def requireProject (projectId : String) (row : Row) : Except MergeError Unit :=
  let project := rowProject rt projectId row
  if projectId ≠ "" ∧ project ≠ "" ∧ project ≠ projectId then
    .error (.value ("cross-project observation refused: " ++ rt.repr (.str project) ++ " != " ++
      rt.repr (.str projectId)))
  else .ok ()

/-- `row_project or project_id`. -/
def projectOr (projectId : String) (row : Row) : String :=
  let project := rowProject rt projectId row
  if project = "" then projectId else project

/-- The checks of one observation, and its row with the project filled in. The class is one of the
contract's, so the second check of it cannot fail. -/
def admitRow (projectId : String) (raw : Row) : Except MergeError Row := do
  let normalized ← normalizeCallRow rt raw
  requireStrong normalized
  requireProject rt projectId normalized
  return put normalized "project_id" (.str (projectOr rt projectId normalized))

/-- The elements of `set(value or [])`. -/
def elements (value : Json) : Except MergeError (List Json) :=
  if value.truthy then
    match value with
    | .arr items =>
      if items.all fun item => (rt.key item).isSome then .ok items
      else .error (.type "unhashable type")
    | .str s => .ok (s.toList.map fun c => .str (String.ofList [c]))
    | .obj members => .ok (members.map fun m => .str m.1)
    | _ => .error (.type "object is not iterable")
  else .ok []

/-- `value if isinstance(value, str) else None`. -/
def text? : Json → Option String
  | .str s => some s
  | _ => none

/-- `sorted(run for run in runs if run)` of a set of runs. -/
def sortedRuns (runs : List Json) : Except MergeError (List Json) :=
  let truthy := runs.filter Json.truthy
  if truthy.all fun run => (text? run).isSome then
    .ok (((truthy.filterMap text?).dedup.insertionSort (· ≤ ·)).map .str)
  else
    match rt.sortMixed truthy with
    | .ok sorted => .ok sorted
    | .error message => .error (.type message)

/-- The row of an observation that was seen, after an exact repeat of it. -/
def repeated (existing normalized : Row) : Except MergeError Row := do
  let earlier ← elements rt (field existing "_repeat_runs")
  let runs ← sortedRuns rt (earlier ++ [.str (rt.textOr (field existing "parse_run_id")),
    .str (rt.textOr (field normalized "parse_run_id"))])
  let row := put existing "_repeat_runs" (.arr runs)
  let count ← rt.integer (either (field row "observation_count") (.int 1))
  return put row "observation_count" (.int (count + 1))

/-- A `MergedCallSite` without its observations. -/
structure SiteHead where
  siteId : String
  parts : SiteParts
  projectId : String
  deriving Repr, DecidableEq

/-- An entry of `identities`: the observation, and the site it is filed under. -/
structure Observation where
  evidenceId : String
  head : SiteHead
  row : Row

/-- The state of the loop. -/
structure Merge where
  observationsIn : Nat := 0
  duplicatesCollapsed : Nat := 0
  identities : List Observation := []
  sites : List SiteHead := []

/-- The row as it is filed under its identity. -/
def filed (normalized : Row) (identity : String) : Row :=
  setDefault (put normalized "evidence_id" (.str identity)) "observation_count" (.int 1)

/-- The project of a row, which the checks filled in. -/
def projectOf (row : Row) : String := (text? (field row "project_id")).getD ""

/-- The entry of an identity after an exact repeat, with the row `row`. -/
def Merge.collapse (m : Merge) (identity : String) (row : Row) : Merge :=
  { m with
    observationsIn := m.observationsIn + 1
    duplicatesCollapsed := m.duplicatesCollapsed + 1
    identities := updateWhere (fun o => decide (o.evidenceId = identity))
      (fun o => { o with row }) m.identities }

/-- A new entry, under its site. -/
def Merge.file (m : Merge) (o : Observation) : Merge :=
  { m with
    observationsIn := m.observationsIn + 1
    identities := m.identities ++ [o]
    sites := keepFirst SiteHead.siteId m.sites o.head }

/-- The body of the loop. -/
def Merge.absorb (projectId : String) (m : Merge) (raw : Row) : Except MergeError Merge := do
  let normalized ← admitRow rt projectId raw
  let identity ← evidenceIdentity rt normalized
  match lookup Observation.evidenceId identity m.identities with
  | some existing =>
    let row ← repeated rt existing.row normalized
    return m.collapse identity row
  | none =>
    let row := filed normalized identity
    let parts ← observationSiteParts rt row
    let siteId ← observationNodeId rt row parts
    return m.file ⟨identity, ⟨siteId, parts, projectOf row⟩, row⟩

/-! ## Sites and strict rows -/

/-- `MergedCallSite`. -/
structure MergedCallSite where
  head : SiteHead
  observations : List Row

/-- The order of the sites: `(file_path, line, column, caller_id)`. -/
def MergedCallSite.le (a b : MergedCallSite) : Bool :=
  let p := a.head.parts
  let q := b.head.parts
  decide (p.filePath < q.filePath ∨ p.filePath = q.filePath ∧ (p.line < q.line ∨ p.line = q.line ∧
    (p.column < q.column ∨ p.column = q.column ∧ p.callerId ≤ q.callerId)))

/-- The site with the observations filed under it. -/
def Merge.siteOf (m : Merge) (head : SiteHead) : MergedCallSite :=
  ⟨head, (m.identities.filter fun o => decide (o.head.siteId = head.siteId)).map Observation.row⟩

/-- `sorted(sites.values(), key=...)`. -/
def Merge.callSites (m : Merge) : List MergedCallSite :=
  (m.sites.map m.siteOf).insertionSort fun a b => MergedCallSite.le a b = true

/-- The callee of an observation as a member of the set of callees. -/
def calleeKey (row : Row) : Option Key × Option Key :=
  (rt.key (callee row), rt.key (field row "callee_usr"))

/-- `accepted_observation`. -/
def MergedCallSite.acceptedObservation (site : MergedCallSite) : Except MergeError (Option Row) :=
  let accepted := site.observations.filter strong
  if accepted.any fun o => (rt.key (callee o)).isNone then .error (.type "unhashable type")
  else if (accepted.map (calleeKey rt)).dedup.length ≠ 1 then .ok none
  else .ok accepted.head?

/-- A row of `strict_call_rows`. -/
structure StrictCallRow where
  callerId : String
  calleeId : Json
  siteId : String
  props : Row

/-- `value not in (None, [], {})`. -/
def notEmpty : Json → Bool
  | .null => false
  | .arr [] => false
  | .obj [] => false
  | _ => true

/-- `EVIDENCE_MERGE_SCHEMA_VERSION`. -/
def evidenceMergeSchemaVersion : String := "2"

/-- The properties of a strict row. -/
def strictProps (head : SiteHead) (accepted : Row) : Row :=
  let kept := accepted.filter fun m =>
    !(["caller_id", "callee_id", "site_id", "props", "_repeat_runs"].contains m.1) &&
      notEmpty m.2
  [("resolution_class", .str directResolved), ("evidence_id", field accepted "evidence_id"),
    ("site_id", .str head.siteId), ("project_id", .str head.projectId),
    ("merge_schema_version", .str evidenceMergeSchemaVersion),
    ("observation_count", field accepted "observation_count")].foldl
      (fun row (m : String × Json) => put row m.1 m.2) kept

/-- The strict row of a site with an accepted observation. -/
def strictCallRow (head : SiteHead) (accepted : Row) : StrictCallRow :=
  let p := head.parts
  { callerId := p.callerId
    calleeId := callee accepted
    siteId := callsiteSiteId rt p.callerId (rt.str (callee accepted)) p.filePath p.line p.column
      p.callType
    props := strictProps head accepted }

/-- The strict derivation over the sorted sites. -/
def strictCallRows (sites : List MergedCallSite) : Except MergeError (List StrictCallRow) := do
  let rows ← sites.mapM fun site => do
    let accepted ← site.acceptedObservation rt
    return accepted.map (strictCallRow rt site.head)
  return rows.filterMap id

/-! ## Configurations and coverage -/

/-- `SemanticCoverageRecord`. -/
structure SemanticCoverageRecord where
  projectId : String
  revision : String
  language : String
  tuKey : String
  configFingerprint : String
  analyzerVersion : String
  policyVersion : String
  status : String
  detail : String

/-- `SemanticCoverageRecord.to_dict`. -/
def SemanticCoverageRecord.toDict (r : SemanticCoverageRecord) : Row :=
  let identity : Row :=
    [("project_id", .str r.projectId), ("revision", .str r.revision),
      ("language", .str r.language), ("tu_key", .str r.tuKey),
      ("config_fingerprint", .str r.configFingerprint),
      ("analyzer_version", .str r.analyzerVersion), ("policy_version", .str r.policyVersion),
      ("status", .str r.status)]
  [("schema_version", .str callEvidenceSchemaVersion)] ++ identity ++
    [("detail", .str r.detail), ("fingerprint", .str (rt.sha256Hex (dumpsAscii (.obj identity))))]

/-- A coverage record: a `SemanticCoverageRecord`, or a mapping. -/
inductive Coverage where
  | record (r : SemanticCoverageRecord)
  | mapping (row : Row)

/-- A coverage record as the result lists it. -/
def coverageRecord : Coverage → Except MergeError Row
  | .record r => .ok (r.toDict rt)
  | .mapping row =>
    let status := rt.textOr (field row "status")
    if status ≠ "" ∧ status ∉ coverageStatuses then
      .error (.value ("unknown coverage status: " ++ rt.repr (.str status)))
    else .ok row

/-- The fingerprint that a configuration adds to `seen_configs`. -/
def configuration (projectId : String) (config : Row) : Except MergeError (Option String) :=
  let fingerprint := rt.textOr (field config "config_fingerprint")
  let configProject := rt.textOr (field config "project_id")
  if fingerprint = "" then .ok none
  else if projectId ≠ "" ∧ configProject ≠ "" ∧ configProject ≠ projectId then
    .error (.value ("cross-project configuration refused: " ++ rt.repr (.str configProject) ++
      " != " ++ rt.repr (.str projectId)))
  else .ok (some fingerprint)

/-- `EvidenceMergeResult`. -/
structure EvidenceMergeResult where
  callSites : List MergedCallSite
  strictCallRows : List StrictCallRow
  coverageRecords : List Row
  duplicatesCollapsed : Nat
  observationsIn : Nat
  configurationCount : Nat
  projectId : String

/-- `merge_call_evidence`. -/
def mergeCallEvidence (observations : List Row) (coverageRecords : List Coverage)
    (configurations : List Row) (projectId : String) : Except MergeError EvidenceMergeResult := do
  let m ← observations.foldlM (Merge.absorb rt projectId) {}
  let strict ← strictCallRows rt m.callSites
  let seen ← configurations.mapM (configuration rt projectId)
  let records ← coverageRecords.mapM (coverageRecord rt)
  return {
    callSites := m.callSites
    strictCallRows := strict
    coverageRecords := records
    duplicatesCollapsed := m.duplicatesCollapsed
    observationsIn := m.observationsIn
    configurationCount := (seen.filterMap id).dedup.length
    projectId }

end CortexHarness.Evidence
