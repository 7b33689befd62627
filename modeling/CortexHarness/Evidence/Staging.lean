import CortexHarness.Evidence.Publication
import Mathlib.Data.List.MinMax

/-!
# The staging of a guarded publication

Model of `build_staged_replacement` and `expected_effects` on all their arguments
(`guarded_publication.py:570-656, 742-762`) and of the site rows of a merge
(`evidence_merge.py:136-225, 281-302`). The strict rows are those handed in, or else those of the
merge; a merge is an `EvidenceMergeResult` or its mapping form. In the mode `gated` a row that
claims a direct resolution is checked before it is staged; the other modes stage none.

Results:
* `staged_of_merge`: on the result of a merge alone, the staging is that of `Publication.lean`;
* `merge_staged`: it does not raise, and it passes the gate;
* `publication_gate_iff`: the staged rows are strong evidence exactly when all of them claim a
  direct resolution.

Model notes: build configurations, coverage records and Pro*C sub-results are carried along and
read by neither function; they are left out.
-/

namespace CortexHarness.Evidence

open Json Table Fallible

variable (rt : Runtime)

/-! ## The rows of a site -/

/-- `_CLASS_STRENGTH`. -/
def classStrengths : List (String × Nat) :=
  [(lexicalCandidate, 0), ("constructor_call", 1), ("dependent_template_call", 2),
    ("indirect_callsite", 3), ("declared_virtual_target", 4), ("possible_dispatch_target", 5),
    ("unresolved", 6), (directResolved, 7)]

/-- `_CLASS_STRENGTH.get(cls, 0)`. -/
def classStrength (cls : String) : Nat :=
  ((lookup Prod.fst cls classStrengths).map Prod.snd).getD 0

/-- `configs`. -/
def MergedCallSite.configs (site : MergedCallSite) : List String :=
  firsts id ((site.observations.map fun o => rt.textOr (field o "config_fingerprint")).filter
    fun fingerprint => fingerprint ≠ "")

/-- `resolved_class`. -/
def MergedCallSite.resolvedClass (site : MergedCallSite) (accepted : Option Row) :
    Except MergeError String :=
  match accepted with
  | some _ => .ok directResolved
  | none =>
    let classes := site.observations.map fun o =>
      rt.str (either (field o "resolution_class") (.str lexicalCandidate))
    match classes.argmax classStrength with
    | some cls => .ok cls
    | none => .error (.value "max() arg is an empty sequence")

/-- `to_staging_row`. -/
def MergedCallSite.toStagingRow (site : MergedCallSite) : Except MergeError Row := do
  let accepted ← site.acceptedObservation rt
  let resolvedClass ← site.resolvedClass rt accepted
  let p := site.head.parts
  return [("site_id", .str site.head.siteId), ("caller_id", .str p.callerId),
    ("callee_id", either ((accepted.map callee).getD .null) (.str "")),
    ("file_path", .str p.filePath), ("line", .int p.line), ("column", .int p.column),
    ("call_type", .str p.callType), ("resolution_class", .str resolvedClass),
    ("observation_count", .int site.observations.length),
    ("config_fingerprints", .arr ((site.configs rt).map .str)), ("accepted", .bool accepted.isSome),
    ("project_id", .str site.head.projectId), ("schema_version", .str evidenceMergeSchemaVersion)]

/-- `isinstance(value, (str, int, float, bool))`. -/
def scalar : Json → Bool
  | .bool _ | .int _ | .float _ | .str _ => true
  | _ => false

/-- `str(observation.get("callee_id") or observation.get("callee_symbol_id") or "")`. -/
def calleeText (o : Row) : String := rt.textOr (callee o)

/-- The callee is not one of the staged identities. -/
def isDangling (acceptedFunctionIds : Option (List String)) (calleeId : String) : Bool :=
  match acceptedFunctionIds with
  | none => false
  | some ids => calleeId ≠ "" && !ids.contains calleeId

/-- `dangling_observation_ids`. -/
def MergedCallSite.danglingObservationIds (site : MergedCallSite)
    (acceptedFunctionIds : Option (List String)) : List String :=
  ((site.observations.filter fun o => isDangling acceptedFunctionIds (calleeText rt o)).map
    fun o => rt.textOr (field o "evidence_id")).filter fun evidenceId => evidenceId ≠ ""

/-- `to_writer_rows`. -/
def MergedCallSite.toWriterRows (site : MergedCallSite)
    (acceptedFunctionIds : Option (List String)) : Except MergeError Row := do
  let staging ← site.toStagingRow rt
  let props := put (staging.filter fun m => scalar m.2) "config_fingerprints"
    (.str (",".intercalate (site.configs rt)))
  let dangling := site.danglingObservationIds rt acceptedFunctionIds
  let props := if dangling = [] then props
    else put props "dangling_observation_ids" (.arr (dangling.map .str))
  return [("site_id", .str site.head.siteId), ("caller_id", .str site.head.parts.callerId),
    ("callee_id", field staging "callee_id"),
    ("resolution_class", field staging "resolution_class"), ("props", .obj props)]

/-- A row of `strict_call_rows`, as a dict. -/
def StrictCallRow.toRow (row : StrictCallRow) : Row :=
  [("caller_id", .str row.callerId), ("callee_id", row.calleeId), ("site_id", .str row.siteId),
    ("props", .obj row.props)]

/-! ## The staging -/

/-- What the staging raises. -/
inductive StagingError where
  | merge (error : MergeError)
  /-- `AttributeError` -/
  | attribute (message : String)

/-- What a function of the contract raises, the staging raises. -/
def raised {α : Type} : Except MergeError α → Except StagingError α
  | .ok a => .ok a
  | .error e => .error (.merge e)

/-- `merge_result`: an `EvidenceMergeResult`, or its mapping form. -/
inductive MergeInput where
  | result (r : EvidenceMergeResult) (acceptedFunctionIds : Option (List String))
  | mapping (strictCallRows callSites : List Row)

/-- The arguments of `build_staged_replacement`. -/
structure ReplacementRequest where
  mode : PublicationMode := .gated
  mergeResult : Option MergeInput := none
  strictCallRows : Option (List Row) := none
  evidenceSites : Option (List Row) := none
  evidenceObservations : List Row := []
  baselineStrongEdges : List Row := []
  affectedFiles : List String := []
  fileReasons : List (String × String) := []
  vectorPointIds : List String := []

/-- `StagedReplacementSet`, with the rows as dicts. -/
structure StagedReplacement where
  strictCallRows : List Row
  staleStrongEdges : List StaleStrongEdge
  evidenceSites : List Row
  evidenceObservations : List Row
  vectorPointIds : List String

/-- `merge["strict_call_rows"]`. -/
def MergeInput.strictCallRows : MergeInput → List Row
  | .result r _ => r.strictCallRows.map StrictCallRow.toRow
  | .mapping rows _ => rows

/-- `merge["call_sites"]`. -/
def MergeInput.callSites : MergeInput → Except MergeError (List Row)
  | .result r acceptedFunctionIds =>
    r.callSites.mapM fun site => site.toWriterRows rt acceptedFunctionIds
  | .mapping _ sites => .ok sites

/-- `(merge or {}).get("call_sites") or []`. -/
def ReplacementRequest.mergedSites (request : ReplacementRequest) : Except MergeError (List Row) :=
  match request.mergeResult with
  | some merge => merge.callSites rt
  | none => .ok []

/-- `strict_rows`: explicit rows win. -/
def ReplacementRequest.strictRows (request : ReplacementRequest) : List Row :=
  match request.strictCallRows with
  | some rows => rows
  | none => (request.mergeResult.map MergeInput.strictCallRows).getD []

/-- `row.get("props") if isinstance(row.get("props"), Mapping) else row`. -/
def rowProps (row : Row) : Row :=
  match field row "props" with
  | .obj props => props
  | _ => row

/-- `props.get("resolution_class") == RESOLUTION_CLASS_DIRECT_RESOLVED`. -/
def claimsDirect (row : Row) : Bool :=
  (field (rowProps row) "resolution_class").isText directResolved

/-- The check of a strict row before it is staged. -/
def verifyStrictRow (row : Row) : Except MergeError Row :=
  if claimsDirect row then do
    if ← isStrongCallEvidence (rowProps row) then return row
    else throw (.value ("staged strict call row claims direct_resolved without an approved " ++
      "semantic provider and complete identity fields"))
  else .ok row

/-- `row.get("site_id") or (row.get("props") or {}).get("site_id") or ""`, as a text. -/
def reacceptedSiteId (row : Row) : Except StagingError String :=
  if (field row "site_id").truthy then .ok (rt.str (field row "site_id"))
  else
    match either (field row "props") (.obj []) with
    | .obj props => .ok (rt.textOr (field props "site_id"))
    | _ => .error (.attribute "object has no attribute 'get'")

/-- `staged.strict_call_rows`: the modes that are not `gated` stage none. -/
def ReplacementRequest.stagedStrictRows (request : ReplacementRequest) :
    Except MergeError (List Row) :=
  if request.mode.semanticPublicationAllowed then request.strictRows.mapM verifyStrictRow
  else .ok []

/-- `build_staged_replacement`. -/
def buildReplacement (request : ReplacementRequest) : Except StagingError StagedReplacement := do
  let mergedSites ← raised (request.mergedSites rt)
  let strictRows ← raised request.stagedStrictRows
  let reaccepted ← strictRows.mapM (reacceptedSiteId rt)
  return {
    strictCallRows := strictRows
    staleStrongEdges := computeStaleStrongEdges rt request.baselineStrongEdges reaccepted
      request.affectedFiles request.fileReasons
    evidenceSites := request.evidenceSites.getD mergedSites
    evidenceObservations := request.evidenceObservations
    vectorPointIds := request.vectorPointIds }

/-! ## Expected effects -/

/-- `PublicationExpectation`. -/
structure PublicationExpectation where
  strictCallCount : Nat := 0
  evidenceSiteCount : Nat := 0
  evidenceObservationCount : Nat := 0
  staleStrongEdgeSurvivors : Nat := 0
  vectorItemCount : Nat := 0
  coverageStatus : String := ""
  deriving Repr, DecidableEq

/-- A row that is counted as an edge: it is not flagged, and names a callee. -/
def linkable (row : Row) : Bool :=
  !(field row "dangling").truthy && calleeText rt row ≠ ""

/-- `expected_effects`. -/
def expectedEffects (staged : StagedReplacement) : PublicationExpectation :=
  { strictCallCount := staged.strictCallRows.length
    evidenceSiteCount := staged.evidenceSites.length
    evidenceObservationCount := staged.evidenceObservations.countP (linkable rt)
    vectorItemCount := staged.vectorPointIds.length }

/-! ## What is staged -/

variable {rt}

theorem raised_ok {α : Type} {x : Except MergeError α} {a : α} :
    raised x = .ok a ↔ x = .ok a := by
  cases x with
  | ok b => simp [raised]
  | error e => simp [raised]

theorem build_ok {request : ReplacementRequest} {staged : StagedReplacement}
    (h : buildReplacement rt request = .ok staged) :
    request.stagedStrictRows = .ok staged.strictCallRows ∧
      staged.evidenceObservations = request.evidenceObservations := by
  unfold buildReplacement at h
  obtain ⟨sites, -, h⟩ := bind_ok.mp h
  obtain ⟨rows, hrows, h⟩ := bind_ok.mp h
  obtain ⟨ids, -, h⟩ := bind_ok.mp h
  cases h
  exact ⟨raised_ok.mp hrows, rfl⟩

/-- A row that passes the check is staged as it is. -/
theorem verify_eq {row row' : Row} (h : verifyStrictRow row = .ok row') : row' = row := by
  unfold verifyStrictRow at h
  split at h
  · obtain ⟨b, -, h⟩ := bind_ok.mp h
    cases b with
    | true =>
      cases h
      rfl
    | false => cases h
  · cases h
    rfl

theorem verify_strong_iff {row : Row} (h : verifyStrictRow row = .ok row) :
    isStrongCallEvidence (rowProps row) = .ok true ↔ claimsDirect row = true := by
  unfold verifyStrictRow at h
  constructor
  · intro hstrong
    unfold isStrongCallEvidence at hstrong
    split at hstrong
    · assumption
    · cases hstrong
  · intro hclaim
    rw [if_pos hclaim] at h
    obtain ⟨b, hb, h⟩ := bind_ok.mp h
    cases b with
    | true => exact hb
    | false => cases h

theorem mapM_verify {rows staged : List Row} (h : rows.mapM verifyStrictRow = .ok staged) :
    staged = rows ∧ ∀ row ∈ rows, verifyStrictRow row = .ok row := by
  have hrow : ∀ row ∈ rows, verifyStrictRow row = .ok row := by
    intro row hmem
    obtain ⟨row', -, hv⟩ := mapM_item h row hmem
    rw [verify_eq hv] at hv
    exact hv
  refine ⟨?_, hrow⟩
  have heq := mapM_eq_map (g := id) hrow
  rw [h, List.map_id] at heq
  exact Except.ok.inj heq

/-! ## A merge alone -/

theorem verify_toRow (row : StrictCallRow) :
    verifyStrictRow row.toRow = (verifyRow row).map StrictCallRow.toRow := by
  have hprops : rowProps row.toRow = row.props := rfl
  unfold verifyStrictRow verifyRow claimsDirect
  rw [hprops]
  split
  · cases isStrongCallEvidence row.props with
    | error e => rfl
    | ok b => cases b <;> rfl
  · rfl

theorem reaccepted_toRow (row : StrictCallRow) :
    reacceptedSiteId rt row.toRow = .ok (stagedSiteId rt row) := by
  have hprops : either (field row.toRow "props") (.obj []) = .obj row.props := by
    show either (.obj row.props) (.obj []) = .obj row.props
    unfold either
    split
    · rfl
    · next hempty =>
      have : row.props = [] := by simpa [Json.truthy] using hempty
      rw [this]
  have hsite : field row.toRow "site_id" = .str row.siteId := rfl
  unfold reacceptedSiteId stagedSiteId
  rw [hprops, hsite]
  by_cases h : (Json.str row.siteId).truthy = true
  · have he : either (.str row.siteId) (field row.props "site_id") = .str row.siteId := if_pos h
    rw [if_pos h, he, textOr_str]
    rfl
  · have he : either (.str row.siteId) (field row.props "site_id") = field row.props "site_id" :=
      if_neg h
    rw [if_neg h, he]

theorem Filed.site_observed {projectId : String} {rows : List Row} {m : Merge}
    (h : Filed rt projectId rows m) {head : SiteHead} (hhead : head ∈ m.sites) :
    (m.siteOf head).observations ≠ [] := by
  rw [h.sites] at hhead
  obtain ⟨o, ho, rfl⟩ := List.mem_map.mp (mem_of_mem_firsts hhead)
  have hmem : o.row ∈ (m.siteOf o.head).observations :=
    List.mem_map_of_mem (List.mem_filter.mpr ⟨ho, by simp⟩)
  exact List.ne_nil_of_mem hmem

theorem toWriterRows_succeeds {site : MergedCallSite} (hobs : site.observations ≠ [])
    (hok : ∃ accepted, site.acceptedObservation rt = .ok accepted)
    (acceptedFunctionIds : Option (List String)) :
    ∃ row, site.toWriterRows rt acceptedFunctionIds = .ok row := by
  obtain ⟨accepted, ha⟩ := hok
  have hclass : ∃ cls, site.resolvedClass rt accepted = .ok cls := by
    unfold MergedCallSite.resolvedClass
    cases accepted with
    | some _ => exact ⟨_, rfl⟩
    | none =>
      dsimp only
      split
      · exact ⟨_, rfl⟩
      · next hnone =>
        rw [List.argmax_eq_none, List.map_eq_nil_iff] at hnone
        exact absurd hnone hobs
  obtain ⟨cls, hcls⟩ := hclass
  have hstaging : ∃ staging, site.toStagingRow rt = .ok staging := by
    unfold MergedCallSite.toStagingRow
    exact ⟨_, bind_ok.mpr ⟨accepted, ha, bind_ok.mpr ⟨cls, hcls, rfl⟩⟩⟩
  obtain ⟨staging, hs⟩ := hstaging
  unfold MergedCallSite.toWriterRows
  exact ⟨_, bind_ok.mpr ⟨staging, hs, rfl⟩⟩

/-- **On the result of a merge alone, the staging is that of its strict rows.** -/
theorem staged_of_merge {observations configurations : List Row} {coverage : List Coverage}
    {projectId : String} {r : EvidenceMergeResult}
    (h : mergeCallEvidence rt observations coverage configurations projectId = .ok r)
    (acceptedFunctionIds : Option (List String)) {request : ReplacementRequest}
    (hmerge : request.mergeResult = some (.result r acceptedFunctionIds))
    (hrows : request.strictCallRows = none) :
    ∃ staged₀ staged, buildStagedReplacement rt request.mode r request.baselineStrongEdges
        request.affectedFiles request.fileReasons = .ok staged₀ ∧
      buildReplacement rt request = .ok staged ∧
      staged.strictCallRows = staged₀.strictCallRows.map StrictCallRow.toRow ∧
      staged.staleStrongEdges = staged₀.staleStrongEdges := by
  obtain ⟨m, hf, hs, hstrict, -⟩ := merge_filed h
  obtain ⟨-, hok⟩ := strict_rows_eq hstrict
  have hsites : ∃ sites, request.mergedSites rt = .ok sites := by
    unfold ReplacementRequest.mergedSites
    rw [hmerge]
    refine mapM_succeeds fun site hsite => ?_
    rw [hs] at hsite
    obtain ⟨head, hhead, rfl⟩ := mem_callSites.mp hsite
    exact toWriterRows_succeeds (hf.site_observed hhead) (hok _ hsite) _
  have hstaged : request.stagedStrictRows =
      .ok ((stagedRows request.mode r).map StrictCallRow.toRow) := by
    have hstrictRows : request.strictRows = r.strictCallRows.map StrictCallRow.toRow := by
      unfold ReplacementRequest.strictRows
      rw [hrows, hmerge]
      rfl
    unfold ReplacementRequest.stagedStrictRows stagedRows
    split
    · rw [hstrictRows, mapM_eq_map (g := id), List.map_id]
      intro row hrow
      obtain ⟨strict, hmem, rfl⟩ := List.mem_map.mp hrow
      have hv : verifyRow strict = .ok strict :=
        List.forall₂_same.mp (mapM_ok (strict_rows_staged h)) strict hmem
      rw [verify_toRow, hv]
      rfl
    · rfl
  obtain ⟨sites, hsites⟩ := hsites
  have hids : ((stagedRows request.mode r).map StrictCallRow.toRow).mapM (reacceptedSiteId rt) =
      .ok (reacceptedSiteIds rt (stagedRows request.mode r)) := by
    unfold reacceptedSiteIds
    rw [mapM_eq_map (g := fun row => ((reacceptedSiteId rt row).toOption.getD ""))]
    · rw [List.map_map]
      refine congrArg Except.ok (List.map_congr_left fun row _ => ?_)
      show ((reacceptedSiteId rt row.toRow).toOption.getD "") = _
      rw [reaccepted_toRow]
      rfl
    · intro row hrow
      obtain ⟨strict, -, rfl⟩ := List.mem_map.mp hrow
      rw [reaccepted_toRow]
      rfl
  have hbuilt : buildReplacement rt request = .ok
      { strictCallRows := (stagedRows request.mode r).map StrictCallRow.toRow
        staleStrongEdges := computeStaleStrongEdges rt request.baselineStrongEdges
          (reacceptedSiteIds rt (stagedRows request.mode r)) request.affectedFiles
          request.fileReasons
        evidenceSites := request.evidenceSites.getD sites
        evidenceObservations := request.evidenceObservations
        vectorPointIds := request.vectorPointIds } := by
    unfold buildReplacement
    exact bind_ok.mpr ⟨sites, raised_ok.mpr hsites, bind_ok.mpr ⟨_, raised_ok.mpr hstaged,
      bind_ok.mpr ⟨_, hids, rfl⟩⟩⟩
  exact ⟨_, _, staged_eq h request.mode request.baselineStrongEdges request.affectedFiles
    request.fileReasons, hbuilt, rfl, rfl⟩

/-! ## The gate -/

/-- The publication gate: what is staged is strong evidence, and only the mode `gated` stages. -/
structure PublicationGate (mode : PublicationMode) (staged : StagedReplacement) : Prop where
  strong : ∀ row ∈ staged.strictCallRows, isStrongCallEvidence (rowProps row) = .ok true
  closed : mode ≠ .gated → staged.strictCallRows = []

theorem allowed_iff {mode : PublicationMode} :
    mode.semanticPublicationAllowed = true ↔ mode = .gated := by
  cases mode <;> decide

theorem gate_of_claims {request : ReplacementRequest} {staged : StagedReplacement}
    (h : buildReplacement rt request = .ok staged)
    (hall : request.mode = .gated → ∀ row ∈ request.strictRows, claimsDirect row = true) :
    PublicationGate request.mode staged := by
  obtain ⟨hrows, -⟩ := build_ok h
  unfold ReplacementRequest.stagedStrictRows at hrows
  split at hrows
  · next hmode =>
    obtain ⟨heq, hverified⟩ := mapM_verify hrows
    refine ⟨fun row hrow => ?_, fun hno => absurd (allowed_iff.mp hmode) hno⟩
    rw [heq] at hrow
    exact (verify_strong_iff (hverified row hrow)).mpr (hall (allowed_iff.mp hmode) row hrow)
  · have hnone : staged.strictCallRows = [] := (Except.ok.inj hrows).symm
    refine ⟨fun row hrow => ?_, fun _ => hnone⟩
    rw [hnone] at hrow
    cases hrow

/-- **The publication gate** holds exactly when every strict row that the mode `gated` is handed
claims a direct resolution: any other row is staged unchecked. -/
theorem publication_gate_iff {request : ReplacementRequest} {staged : StagedReplacement}
    (h : buildReplacement rt request = .ok staged) :
    PublicationGate request.mode staged ↔
      (request.mode = .gated → ∀ row ∈ request.strictRows, claimsDirect row = true) := by
  refine ⟨fun hgate hgated row hrow => ?_, gate_of_claims h⟩
  obtain ⟨hrows, -⟩ := build_ok h
  unfold ReplacementRequest.stagedStrictRows at hrows
  rw [if_pos (allowed_iff.mpr hgated)] at hrows
  obtain ⟨heq, hverified⟩ := mapM_verify hrows
  exact (verify_strong_iff (hverified row hrow)).mp (hgate.strong row (heq ▸ hrow))

theorem gate_of_merge {observations configurations : List Row} {coverage : List Coverage}
    {projectId : String} {r : EvidenceMergeResult}
    (h : mergeCallEvidence rt observations coverage configurations projectId = .ok r)
    {acceptedFunctionIds : Option (List String)} {request : ReplacementRequest}
    (hmerge : request.mergeResult = some (.result r acceptedFunctionIds))
    (hrows : request.strictCallRows = none) {staged : StagedReplacement}
    (hstaged : buildReplacement rt request = .ok staged) :
    PublicationGate request.mode staged := by
  refine gate_of_claims hstaged fun _ row hrow => ?_
  unfold ReplacementRequest.strictRows at hrow
  rw [hrows, hmerge] at hrow
  obtain ⟨strict, hmem, rfl⟩ := List.mem_map.mp hrow
  obtain ⟨m, -, -, hstrict, -⟩ := merge_filed h
  obtain ⟨heq, hok⟩ := strict_rows_eq hstrict
  rw [heq] at hmem
  obtain ⟨site, hsite, hs⟩ := List.mem_filterMap.mp hmem
  obtain ⟨o, -, -, rfl⟩ := (siteRow_iff (hok site hsite)).mp hs
  show (field (strictProps site.head o) "resolution_class").isText directResolved = true
  rw [field_strictProps_class]
  decide

/-- **A merge is staged through the gate**: on the result of a merge alone the staging does not
raise, it is that of the strict rows, and it passes the gate. -/
theorem merge_staged {observations configurations : List Row} {coverage : List Coverage}
    {projectId : String} {r : EvidenceMergeResult}
    (h : mergeCallEvidence rt observations coverage configurations projectId = .ok r)
    {acceptedFunctionIds : Option (List String)} {request : ReplacementRequest}
    (hmerge : request.mergeResult = some (.result r acceptedFunctionIds))
    (hrows : request.strictCallRows = none) :
    ∃ staged₀ staged, buildStagedReplacement rt request.mode r request.baselineStrongEdges
        request.affectedFiles request.fileReasons = .ok staged₀ ∧
      buildReplacement rt request = .ok staged ∧
      staged.strictCallRows = staged₀.strictCallRows.map StrictCallRow.toRow ∧
      staged.staleStrongEdges = staged₀.staleStrongEdges ∧
      PublicationGate request.mode staged := by
  obtain ⟨staged₀, staged, hbare, hbuilt, hsame, hstale⟩ :=
    staged_of_merge h acceptedFunctionIds hmerge hrows
  exact ⟨staged₀, staged, hbare, hbuilt, hsame, hstale, gate_of_merge h hmerge hrows hbuilt⟩

theorem merge_staged_sample :
    ∃ r, ∃ staged₀ : StagedReplacementSet, ∃ staged : StagedReplacement,
      mergeCallEvidence sampleRuntime [sampleSemantic "f1" "a.c"] [] [] "p" = .ok r ∧
      staged.strictCallRows = staged₀.strictCallRows.map StrictCallRow.toRow ∧
      staged₀.strictCallRows.length = 1 ∧ PublicationGate .gated staged := by
  obtain ⟨r, hr, hlength⟩ : ∃ r,
      mergeCallEvidence sampleRuntime [sampleSemantic "f1" "a.c"] [] [] "p" = .ok r ∧
        (stagedRows .gated r).length = 1 := ⟨_, rfl, rfl⟩
  have hmerge : ({ mergeResult := some (.result r none) } : ReplacementRequest).mergeResult =
      some (.result r none) := rfl
  obtain ⟨staged₀, staged, hbare, -, hsame, -, hgate⟩ := merge_staged hr hmerge rfl
  refine ⟨r, staged₀, staged, hr, hsame, ?_, hgate⟩
  rw [staged_eq hr] at hbare
  cases hbare
  exact hlength

/-- A row with strong properties. -/
def sampleStrictRow : Row :=
  [("caller_id", .str "f1"), ("callee_id", .str "f2"), ("site_id", .str "s1"),
    ("props", .obj (sampleSemantic "f1" "a.c"))]

/-- A row with the properties of a lexical candidate. -/
def sampleWeakRow : Row :=
  [("caller_id", .str "f1"), ("callee_id", .str "f2"), ("site_id", .str "s1"),
    ("props", .obj [("resolution_class", .str lexicalCandidate)])]

/-- One strict row is handed in. -/
def sampleRequest (row : Row) : ReplacementRequest := { strictCallRows := some [row] }

/-- A strong row is staged. -/
theorem publication_gate_sample :
    ∃ staged, buildReplacement sampleRuntime (sampleRequest sampleStrictRow) = .ok staged ∧
      PublicationGate (sampleRequest sampleStrictRow).mode staged ∧
      staged.strictCallRows = [sampleStrictRow] := by
  obtain ⟨staged, h, hrows⟩ : ∃ staged, buildReplacement sampleRuntime
      (sampleRequest sampleStrictRow) = .ok staged ∧ staged.strictCallRows = [sampleStrictRow] :=
    ⟨_, rfl, rfl⟩
  refine ⟨staged, h, (publication_gate_iff h).mpr fun _ row hrow => ?_, hrows⟩
  rw [List.mem_singleton.mp hrow]
  decide

/-- **A lexical candidate is staged as a strict call.** -/
theorem weak_row_staged :
    ¬ ∀ (rt : Runtime) (request : ReplacementRequest) (staged : StagedReplacement),
      buildReplacement rt request = .ok staged → PublicationGate request.mode staged := by
  intro h
  have hgate := h sampleRuntime (sampleRequest sampleWeakRow) _ rfl
  have hstrong : isStrongCallEvidence (rowProps sampleWeakRow) = .ok true :=
    hgate.strong sampleWeakRow List.mem_cons_self
  cases hstrong

end CortexHarness.Evidence
