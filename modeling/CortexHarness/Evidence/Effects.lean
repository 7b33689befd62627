import CortexHarness.Evidence.Order
import CortexHarness.Evidence.Staging
import CortexHarness.Journal.QueryContract

/-!
# From the merge to the observation edges

Model of `observation_writer_rows` (`evidence_merge.py:249-279, 304-311`), of
`write_call_evidence_observations` with the project scope and the grouping it calls
(`language_writer.py:154-178, 2389-2462`), and of the indexes of `CODE_GRAPH_SCHEMA`
(`manifest.py:127-306`). The rows of a merge are scoped, turned into edges one by one and grouped;
the queries that the driver then runs are left out.

Results:
* `merge_sound`: what the merge guarantees of every observation it files;
* `observation_contract_iff`: when the rows of a merge are rows that the writer accepts, and the
  expected effects count its edges.
-/

namespace CortexHarness.Evidence

open Json Table Fallible
open CortexHarness.Journal (CompileError SchemaIndex GraphSchemaManifest EvidenceEdgeGroup
  groupEvidenceEdges evidenceRow)

variable (rt : Runtime)

/-! ## The schema -/

/-- The labels of `_id_indexes(...)`. -/
def idIndexLabels : List String :=
  ["Alias", "Action", "Advice", "AndroidComponent", "AndroidAnnotation", "AndroidHandlerMessage",
    "AndroidIntentAction", "AndroidManifest", "AndroidNavRoute", "AndroidResource",
    "ApiEndpoint", "ApplicationEvent", "AspNetAnalysisState", "Aspect", "AsyncBoundary",
    "AuthenticationScheme", "Authority", "AuthorizationPolicy", "BuildConfiguration",
    "BuildDescriptor", "CacheOperation", "CacheRegion", "CallSite", "Class", "CobolCicsCommand",
    "CobolCopybook", "CobolDataItem", "CobolFile", "CobolParagraph", "CobolProgram",
    "CobolSection", "CobolSqlStatement", "Constant", "ConfigurationKey", "Control", "Controller",
    "DataRepository", "Database", "DatabaseColumn", "DatabaseTable", "Delegate", "Dependency",
    "Directory", "Document", "Enum", "ErrorPage", "Event", "Field", "File", "Filter",
    "FilterMapping", "FrameworkInstance", "Function", "FunctionType", "GradleDependency",
    "GradleModule", "GrpcEndpoint", "GrpcService", "GraphWriteReceipt", "HttpEndpoint",
    "HttpHandler", "HttpModule", "Interface", "InfraNode", "JSPView", "JpaEntity", "Jp1Unit",
    "JspExpression", "JspTag", "Layout", "LifecycleEvent", "Listener", "Message",
    "MessageDestination", "MessageEndpoint", "Middleware", "Model", "MyBatisArtifact",
    "MyBatisCache", "MyBatisConfig", "MyBatisDynamicNode", "MyBatisExtension", "MyBatisInclude",
    "MyBatisJavaProperty", "MyBatisMapper", "MyBatisMapperMethod", "MyBatisModule",
    "MyBatisParameter", "MyBatisResultMap", "MyBatisResultMapping", "MyBatisSpringBridge",
    "MyBatisSqlFragment", "MyBatisSqlJoin", "MyBatisSqlParameter", "MyBatisSqlProvider",
    "MyBatisSqlStatement", "MyBatisStatement", "MyBatisXmlDocument", "Namespace", "Navigator",
    "Package", "PageHandler", "Paragraph", "ParseRun", "PartialView", "Pointcut", "Procedure",
    "ProjectModule", "Property", "RazorPage", "Repository", "Resource", "Result", "RouteParam",
    "Route", "ScheduledTask", "SemanticCoverage", "SecurityConstraint", "SecurityFilterChain",
    "SecurityRule", "Service", "BatchProgram", "ShellFunction", "ShellInvocation", "ShellScript",
    "Servlet", "ServletJspAnalysisState", "ServletJspModule", "ServletMapping", "SessionState",
    "SqlCursor", "SqlDirective", "SqlHostVariable", "SqlStatement", "SpringApplication",
    "SpringBean", "SpringConfiguration", "SpringModule", "StateSlot", "Table", "Template",
    "TransactionBoundary", "Type", "UIControl", "UnknownFunction", "ValidationConstraint",
    "ValidationRule", "Variable", "View", "ViewModel", "WebConfiguration", "WebDescriptor",
    "WebFormPage", "WebTarget", "WelcomePage"]

/-- The indexes of `CODE_GRAPH_SCHEMA`. -/
def codeGraphIndexes : List SchemaIndex :=
  [⟨"Project", ["project_id"], "range", true⟩, ⟨"Repository", ["name"], "range", true⟩,
    ⟨"Workflow", ["workflow_id"], "range", true⟩] ++
  idIndexLabels.map (fun label => ⟨label, ["id"], "range", true⟩) ++
  (["ApiEndpoint", "Controller", "DataRepository", "Database", "Middleware", "Service"].map
    fun label => ⟨label, ["symbol_id"], "range", true⟩) ++
  [⟨"BuildConfiguration", ["config_fingerprint"], "range", true⟩,
    ⟨"CallSite", ["site_id"], "range", true⟩, ⟨"SemanticCoverage", ["tu_key"], "range", true⟩,
    ⟨"SemanticCoverage", ["fingerprint"], "range", true⟩]

/-- `CODE_GRAPH_SCHEMA`, with its fingerprint and the texts that messages show. -/
def codeGraphSchema (fingerprint : String) (repr : String → String) : GraphSchemaManifest :=
  { name := "code_graph", fingerprint, repr, indexes := codeGraphIndexes }

variable (fingerprint : String) (repr : String → String)

theorem callSite_indexed :
    (codeGraphSchema fingerprint repr).hasIdentityIndex "CallSite" "site_id" = true := by
  have h : (codeGraphIndexes.any fun index => index.label == "CallSite" &&
      index.properties == ["site_id"] && index.indexType == "range" && index.required) = true := by
    decide +kernel
  exact h

theorem function_indexed :
    (codeGraphSchema fingerprint repr).hasIdentityIndex "Function" "id" = true := by
  have h : (codeGraphIndexes.any fun index => index.label == "Function" &&
      index.properties == ["id"] && index.indexType == "range" && index.required) = true := by
    decide +kernel
  exact h

/-! ## The rows of a merge -/

/-- One row of `observation_writer_rows`. -/
def MergedCallSite.observationWriterRow (site : MergedCallSite)
    (acceptedFunctionIds : Option (List String)) (o : Row) : Row :=
  let kept := o.filter fun m =>
    !(["_repeat_runs", "caller_id", "props"].contains m.1) && scalar m.2
  let row := put kept "site_id" (.str site.head.siteId)
  let row := put row "callee_id" (.str (calleeText rt o))
  let row := put row "evidence_id" (.str (rt.textOr (field o "evidence_id")))
  put row "dangling" (.bool (isDangling acceptedFunctionIds (calleeText rt o)))

/-- `observation_writer_rows` of a result. -/
def EvidenceMergeResult.observationWriterRows (r : EvidenceMergeResult)
    (acceptedFunctionIds : Option (List String)) : List Row :=
  r.callSites.flatMap fun site =>
    site.observations.map (site.observationWriterRow rt acceptedFunctionIds)

/-! ## The writer -/

/-- What the writer raises. -/
inductive WriterError where
  | compile (error : CompileError)
  /-- `KeyError` -/
  | key (name : String)

/-- What the scope and the grouping raise, the writer raises. -/
def lifted {α : Type} : Except CompileError α → Except WriterError α
  | .ok a => .ok a
  | .error e => .error (.compile e)

/-- The project of a row: its own, or else that of the journal, if there is one. -/
def scopedProjectId (journalProjectId : Option String) (row props : Row) : Json :=
  let projectId := either (field row "project_id") (field props "project_id")
  if projectId.isNull then (journalProjectId.map Json.str).getD .null else projectId

/-- One round of `_require_evidence_project_scope`. -/
def scopeEvidenceRow (journalProjectId : Option String) (rowKind : String) (row : Row)
    (position : Nat) : Except CompileError Row :=
  let props := match field row "props" with
    | .obj props => props
    | _ => []
  let row := put row "props" (.obj props)
  let projectId := scopedProjectId journalProjectId row props
  match Journal.projectIdLookupKey rt.toPython projectId with
  | none =>
    .error (.value (rowKind ++ " row requires project_id (row " ++ toString position ++ ")"))
  | some normalized =>
    let row := put row "project_id" (.str (strip (rt.str projectId)))
    let row := put row "project_id_normalized" (.str normalized)
    let props := put props "project_id" (.str (strip (rt.str projectId)))
    .ok (put row "props" (.obj (put props "project_id_normalized" (.str normalized))))

/-- The members of a row that its edge does not carry as properties. -/
def edgeMembers : List String :=
  ["site_id", "callee_id", "callee_symbol_id", "evidence_id", "dangling", "props", "_repeat_runs",
    "caller_id"]

/-- The edge of a row. -/
def observedAs (siteId calleeId : String) (row : Row) : Row :=
  [("source_label", .str "CallSite"), ("source_property", .str "site_id"),
    ("source_id", .str siteId), ("target_label", .str "Function"), ("target_property", .str "id"),
    ("target_id", .str calleeId), ("rel_type", .str "OBSERVED_AS"),
    ("edge_property", .str "evidence_id"), ("edge_id", .str (rt.str (field row "evidence_id"))),
    ("project_id", .str (rt.textOr (field row "project_id"))),
    ("props", .obj (row.filter fun m =>
      !edgeMembers.contains m.1 && notEmpty m.2 && scalar m.2))]

/-- One round of the loop: the edge of a row, unless its callee is flagged. -/
def observationEdge (row : Row) : Except WriterError (Option Row) :=
  let calleeId := calleeText rt row
  if calleeId = "" then
    if (field row "dangling").truthy then .ok none
    else .error (.compile (.value ("call evidence observation requires callee_id or an explicit " ++
      "dangling flag: evidence_id=" ++ rt.repr (field row "evidence_id"))))
  else if (field row "dangling").truthy then .ok none
  else if blank (rt.textOr (field row "evidence_id")) then
    .error (.compile (.value "call evidence observation rows require evidence_id"))
  else
    match find? row "site_id" with
    | none => .error (.key "site_id")
    | some siteId => .ok (some (observedAs rt (rt.str siteId) calleeId row))

/-- `write_call_evidence_observations`, up to the groups that it compiles and writes. -/
def writeCallEvidenceObservations (journalProjectId : Option String) (observations : List Row) :
    Except WriterError
      (List (EvidenceEdgeGroup (codeGraphSchema fingerprint repr) × List Row)) := do
  let rows ← lifted (observations.zipIdx.mapM fun r =>
    scopeEvidenceRow rt journalProjectId "call evidence observation" r.1 r.2)
  let edges ← rows.mapM (observationEdge rt)
  lifted (groupEvidenceEdges rt.toPython _ (edges.filterMap id))

/-! ## What the merge files -/

variable {rt}

theorem lifted_ok {α : Type} {x : Except CompileError α} {a : α} :
    lifted x = .ok a ↔ x = .ok a := by
  cases x with
  | ok b => simp [lifted]
  | error e => simp [lifted]

/-- What the merge guarantees of an observation: a project, which is that of the merge if the merge
has one, and an identity that is a digest. -/
structure Sound (rt : Runtime) (projectId : String) (o : Observation) : Prop where
  project : ∃ s, field o.row "project_id" = .str s ∧ (projectId ≠ "" → s = projectId)
  evidence : ∃ t, field o.row "evidence_id" = .str (rt.sha256Hex t)
  site : ∃ t, o.head.siteId = rt.uuid5 t

theorem identity_digest {row : Row} {id : String} (h : evidenceIdentity rt row = .ok id) :
    ∃ t, id = rt.sha256Hex t := by
  unfold evidenceIdentity at h
  obtain ⟨n, -, h⟩ := bind_ok.mp h
  obtain ⟨site, -, h⟩ := bind_ok.mp h
  cases h
  exact ⟨_, rfl⟩

theorem nodeId_uuid {row : Row} {site : SiteParts} {id : String}
    (h : observationNodeId rt row site = .ok id) : ∃ t, id = rt.uuid5 t := by
  unfold observationNodeId at h
  obtain ⟨spelling, -, h⟩ := bind_ok.mp h
  obtain ⟨expansion, -, h⟩ := bind_ok.mp h
  obtain ⟨ordinal, -, h⟩ := bind_ok.mp h
  cases h
  unfold callsiteNodeId
  cases spelling with
  | some offset => exact ⟨_, rfl⟩
  | none => exact ⟨_, rfl⟩

theorem admitRow_project {projectId : String} {raw n : Row}
    (h : admitRow rt projectId raw = .ok n) :
    ∃ s, field n "project_id" = .str s ∧ (projectId ≠ "" → s = projectId) := by
  unfold admitRow at h
  obtain ⟨normalized, -, h⟩ := bind_ok.mp h
  obtain ⟨u, -, h⟩ := bind_ok.mp h
  obtain ⟨u', hproject, h⟩ := bind_ok.mp h
  cases h
  refine ⟨projectOr rt projectId normalized, by rw [field_put, if_pos rfl], fun hne => ?_⟩
  unfold requireProject at hproject
  unfold projectOr
  dsimp only at hproject ⊢
  split_ifs at hproject with hother
  by_cases hown : rowProject rt projectId normalized = ""
  · rw [if_pos hown]
  · rw [if_neg hown]
    by_contra hdiffer
    exact hother ⟨hne, hown, hdiffer⟩

theorem repeated_keeps {existing normalized row : Row} (h : repeated rt existing normalized = .ok row)
    {k : String} (hruns : k ≠ "_repeat_runs") (hcount : k ≠ "observation_count") :
    field row k = field existing k := by
  unfold repeated at h
  obtain ⟨earlier, -, h⟩ := bind_ok.mp h
  obtain ⟨runs, -, h⟩ := bind_ok.mp h
  obtain ⟨count, -, h⟩ := bind_ok.mp h
  cases h
  rw [field_put, if_neg hcount, field_put, if_neg hruns]

/-- **One round of the loop** keeps the guarantee. -/
theorem absorb_sound {projectId : String} {m m' : Merge} {raw : Row}
    (hm : ∀ o ∈ m.identities, Sound rt projectId o) (h : m.absorb rt projectId raw = .ok m') :
    ∀ o ∈ m'.identities, Sound rt projectId o := by
  unfold Merge.absorb at h
  obtain ⟨n, hn, h⟩ := bind_ok.mp h
  obtain ⟨id, hid, h⟩ := bind_ok.mp h
  cases hl : lookup Observation.evidenceId id m.identities with
  | some existing =>
    rw [hl] at h
    obtain ⟨row, hrow, h⟩ := bind_ok.mp h
    cases h
    intro o ho
    obtain ⟨y, hy, rfl⟩ := mem_updateWhere.mp ho
    split
    · have hfound := hm existing (lookup_mem hl)
      refine ⟨?_, ?_, (hm y hy).site⟩
      · rw [repeated_keeps hrow (by decide) (by decide)]
        exact hfound.project
      · rw [repeated_keeps hrow (by decide) (by decide)]
        exact hfound.evidence
    · exact hm y hy
  | none =>
    rw [hl] at h
    obtain ⟨parts, -, h⟩ := bind_ok.mp h
    obtain ⟨siteId, hsite, h⟩ := bind_ok.mp h
    cases h
    intro o ho
    rcases List.mem_append.mp ho with ho | ho
    · exact hm o ho
    · rw [List.mem_singleton.mp ho]
      obtain ⟨s, hs, heq⟩ := admitRow_project hn
      obtain ⟨t, rfl⟩ := identity_digest hid
      refine ⟨⟨s, ?_, heq⟩, ⟨t, ?_⟩, nodeId_uuid hsite⟩
      · show field (filed n _) "project_id" = _
        rw [filed, field_setDefault, if_neg (by simp), field_put, if_neg (by decide), hs]
      · show field (filed n _) "evidence_id" = _
        rw [filed, field_setDefault, if_neg (by simp), field_put, if_pos rfl]

/-- **What a merge guarantees of its sites**: their id is a UUID, and every observation has a
project, an identity that is a digest, and the callee of an observation that was read. -/
theorem merge_sound {observations configurations : List Row} {coverage : List Coverage}
    {projectId : String} {r : EvidenceMergeResult}
    (h : mergeCallEvidence rt observations coverage configurations projectId = .ok r) :
    ∀ site ∈ r.callSites, (∃ t, site.head.siteId = rt.uuid5 t) ∧
      ∀ o ∈ site.observations,
        (∃ s, field o "project_id" = .str s ∧ (projectId ≠ "" → s = projectId)) ∧
        (∃ t, field o "evidence_id" = .str (rt.sha256Hex t)) ∧
        ∃ raw ∈ observations, calleeText rt o = calleeText rt raw := by
  unfold mergeCallEvidence at h
  obtain ⟨m, hm, h⟩ := bind_ok.mp h
  obtain ⟨strict, -, h⟩ := bind_ok.mp h
  obtain ⟨seen, -, h⟩ := bind_ok.mp h
  obtain ⟨records, -, h⟩ := bind_ok.mp h
  cases h
  have hsound : ∀ o ∈ m.identities, Sound rt projectId o :=
    foldlM_invariant (I := fun _ m => ∀ o ∈ m.identities, Sound rt projectId o) (fun o ho => by cases ho)
      (fun _ _ _ _ hs ha => absorb_sound hs ha) hm
  have hf : Filed rt projectId observations m :=
    foldlM_invariant filed_nil (fun _ _ _ _ hf ha => hf.absorb ha) hm
  intro site hsite
  obtain ⟨head, hhead, rfl⟩ := mem_callSites.mp hsite
  rw [hf.sites] at hhead
  obtain ⟨o, ho, rfl⟩ := List.mem_map.mp (mem_of_mem_firsts hhead)
  refine ⟨(hsound o ho).site, fun row hrow => ?_⟩
  obtain ⟨x, hx, rfl⟩ := List.mem_map.mp hrow
  have hmem := (List.mem_filter.mp hx).1
  obtain ⟨raw, hraw, hview⟩ := hf.mem_views.mp ⟨x, hmem, rfl⟩
  have hcallee : callee x.row = callee raw := viewOf_callee hview
  refine ⟨(hsound x hmem).project, (hsound x hmem).evidence, raw, mem_of_mem_firsts hraw, ?_⟩
  unfold calleeText
  rw [hcallee]

theorem merge_observed {observations configurations : List Row} {coverage : List Coverage}
    {projectId : String} {r : EvidenceMergeResult}
    (h : mergeCallEvidence rt observations coverage configurations projectId = .ok r) {raw : Row}
    (hraw : raw ∈ observations) :
    ∃ site ∈ r.callSites, ∃ o ∈ site.observations, ∃ id, identityOf rt raw = some id ∧
      field o "evidence_id" = .str id := by
  obtain ⟨m, hf, hs, -⟩ := merge_filed h
  obtain ⟨first, hfirst, hsame⟩ : ∃ x ∈ firsts (identityOf rt) observations,
      identityOf rt x = identityOf rt raw := exists_firsts hraw
  obtain ⟨id, hid⟩ := Option.isSome_iff_exists.mp (hf.identified raw hraw)
  obtain ⟨o, ho, rfl⟩ := hf.seen_iff.mpr ⟨first, hfirst, hsame.trans hid⟩
  obtain ⟨head, hhead, hsite⟩ : ∃ x ∈ firsts SiteHead.siteId (m.identities.map Observation.head),
      x.siteId = o.head.siteId := exists_firsts (List.mem_map_of_mem ho)
  refine ⟨m.siteOf head, ?_, o.row, ?_, o.evidenceId, hid, (hf.entries o ho).evidence⟩
  · rw [hs]
    exact mem_callSites.mpr ⟨head, hf.sites ▸ hhead, rfl⟩
  · exact List.mem_map_of_mem (List.mem_filter.mpr ⟨ho, by simp [hsite]⟩)

/-! ## The rows that the writer reads -/

variable {site : MergedCallSite} {accepted : Option (List String)} {o row : Row}

theorem find?_filter_none {p : String × Json → Bool} {k : String}
    (h : ∀ v, p (k, v) = false) : find? (row.filter p) k = none := by
  unfold find?
  rw [Option.map_eq_none_iff, List.find?_eq_none]
  intro m hm
  have hp := (List.mem_filter.mp hm).2
  intro hk
  rw [beq_iff_eq] at hk
  obtain ⟨k', v⟩ := m
  subst hk
  rw [h v] at hp
  cases hp

/-- What the writer reads from the row of an observation. -/
structure WriterRow (rt : Runtime) (siteId : String) (accepted : Option (List String))
    (o row : Row) : Prop where
  site : find? row "site_id" = some (.str siteId)
  callee : field row "callee_id" = .str (calleeText rt o)
  evidence : field row "evidence_id" = .str (rt.textOr (field o "evidence_id"))
  dangling : field row "dangling" = .bool (isDangling accepted (calleeText rt o))

theorem writerRow_reads :
    WriterRow rt site.head.siteId accepted o (site.observationWriterRow rt accepted o) := by
  unfold MergedCallSite.observationWriterRow
  refine ⟨?_, ?_, ?_, ?_⟩
  · simp [find?_put]
  · simp [field_put]
  · simp [field_put]
  · simp [field_put]

/-- A text outside the excluded members is kept. -/
theorem writerRow_text {k s : String} (h : field o k = .str s)
    (hdrop : k ∉ ["_repeat_runs", "caller_id", "props"])
    (hset : k ∉ ["site_id", "callee_id", "evidence_id", "dangling"]) :
    field (site.observationWriterRow rt accepted o) k = .str s := by
  unfold MergedCallSite.observationWriterRow
  simp only [List.mem_cons, List.not_mem_nil, or_false, not_or] at hset
  obtain ⟨h1, h2, h3, h4⟩ := hset
  simp only [field_put, if_neg h1, if_neg h2, if_neg h3, if_neg h4]
  unfold field
  rw [field_filter (find?_of_field h)]
  · rfl
  · simpa [scalar] using hdrop

theorem writerRow_props :
    field (site.observationWriterRow rt accepted o) "props" = .null := by
  unfold MergedCallSite.observationWriterRow
  simp only [field_put]
  unfold field
  rw [find?_filter_none (by simp)]
  simp

/-! ## The project scope -/

/-- The project that a row has, or that the journal lends it, is not blank. -/
def projectKnown (rt : Runtime) (journalProjectId : Option String) (row : Row) : Bool :=
  (Journal.projectIdLookupKey rt.toPython (scopedProjectId journalProjectId row [])).isSome

/-- What the writer reads from a row with a project. -/
structure ScopedRow (rt : Runtime) (siteId : String) (accepted : Option (List String))
    (o row : Row) : Prop extends WriterRow rt siteId accepted o row where
  project : ∃ p, field row "project_id" = .str p ∧ p ≠ "" ∧ strip p = p

theorem scopedProjectId_congr {journalProjectId : Option String} {row row' props : Row}
    (h : field row' "project_id" = field row "project_id") :
    scopedProjectId journalProjectId row' props = scopedProjectId journalProjectId row props := by
  unfold scopedProjectId
  rw [h]

theorem lookupKey_strip {v : Json} {key : String}
    (h : Journal.projectIdLookupKey rt.toPython v = some key) : strip (rt.str v) ≠ "" := by
  unfold Journal.projectIdLookupKey Journal.normalizeProjectId at h
  split_ifs at h with hnull hblank
  · cases h
  · cases h
  · exact hblank

/-- **The scope** of a row without properties of its own fails exactly when no project is known. -/
theorem scope_iff {journalProjectId : Option String} {kind : String} {position : Nat}
    (hprops : field row "props" = .null) :
    (∃ row', scopeEvidenceRow rt journalProjectId kind row position = .ok row') ↔
      projectKnown rt journalProjectId row = true := by
  have hp : scopedProjectId journalProjectId (put row "props" (.obj [])) [] =
      scopedProjectId journalProjectId row [] :=
    scopedProjectId_congr (by rw [field_put, if_neg (by decide)])
  unfold scopeEvidenceRow projectKnown
  rw [hprops]
  dsimp only
  rw [hp]
  cases Journal.projectIdLookupKey rt.toPython (scopedProjectId journalProjectId row []) with
  | none => simp
  | some key => simp

theorem scope_reads {journalProjectId : Option String} {kind siteId : String} {position : Nat}
    {row' : Row} (hw : WriterRow rt siteId accepted o row) (hprops : field row "props" = .null)
    (h : scopeEvidenceRow rt journalProjectId kind row position = .ok row') :
    ScopedRow rt siteId accepted o row' := by
  unfold scopeEvidenceRow at h
  rw [hprops] at h
  dsimp only at h
  split at h
  · cases h
  · next key hkey =>
    cases h
    refine ⟨⟨?_, ?_, ?_, ?_⟩, ?_⟩
    · simp [find?_put, hw.site]
    · simp [field_put, hw.callee]
    · simp [field_put, hw.evidence]
    · simp [field_put, hw.dangling]
    · refine ⟨strip (rt.str (scopedProjectId journalProjectId (put row "props" (.obj [])) [])), ?_,
        lookupKey_strip hkey, strip_strip _⟩
      simp [field_put]

/-! ## The edge of a row -/

/-- The writer can link the observation: it names a callee, and one that is not flagged is more
than blanks. -/
def Linkable (rt : Runtime) (accepted : Option (List String)) (o : Row) : Prop :=
  calleeText rt o ≠ "" ∧
    (isDangling accepted (calleeText rt o) = true ∨ blank (calleeText rt o) = false)

theorem calleeText_row {siteId : String} (hw : WriterRow rt siteId accepted o row)
    (h : calleeText rt o ≠ "") : calleeText rt row = calleeText rt o := by
  have htruthy : (Json.str (calleeText rt o)).truthy = true := by simpa [Json.truthy] using h
  conv_lhs => unfold calleeText callee
  rw [hw.callee, either, if_pos htruthy, textOr_str]

theorem observationEdge_eq {siteId digest : String} (hw : WriterRow rt siteId accepted o row)
    (h : calleeText rt o ≠ "") (hdigest : field o "evidence_id" = .str digest)
    (hblank : blank digest = false) :
    observationEdge rt row = .ok (if isDangling accepted (calleeText rt o) then none
      else some (observedAs rt siteId (calleeText rt o) row)) := by
  unfold observationEdge
  simp only
  rw [calleeText_row hw h, if_neg h, hw.dangling, hw.evidence, textOr_str, hdigest, textOr_str,
    hblank, hw.site]
  cases isDangling accepted (calleeText rt o) <;> rfl

theorem text_str {py : Python} {edge : Row} {k s : String} (h : find? edge k = some (.str s)) :
    Journal.text py edge k = s := by
  unfold Journal.text Python.strOr Json.orElse
  rw [h]
  by_cases hs : s = ""
  · simp [hs, Json.truthy]
  · simp [hs, Json.truthy, Python.str]

theorem observedAs_group :
    ∃ group, EvidenceEdgeGroup.make (codeGraphSchema fingerprint repr) "CallSite" "site_id"
      "Function" "id" "OBSERVED_AS" "evidence_id" = .ok group := by
  unfold EvidenceEdgeGroup.make
  rw [dif_pos (by decide), dif_pos (by decide), dif_pos (by decide), dif_pos (by decide),
    dif_pos (by decide), dif_pos (.inr (by decide)), dif_pos (callSite_indexed fingerprint repr),
    dif_pos (function_indexed fingerprint repr)]
  exact ⟨_, rfl⟩

theorem observedAs_grouped {siteId digest : String} (hr : ScopedRow rt siteId accepted o row)
    (hl : blank (calleeText rt o) = false) (hsite : blank siteId = false)
    (hdigest : field o "evidence_id" = .str digest) (hblank : blank digest = false)
    (position : Nat) :
    ∃ g, evidenceRow rt.toPython (codeGraphSchema fingerprint repr)
      (observedAs rt siteId (calleeText rt o) row) position = .ok g := by
  obtain ⟨p, hp, hne, hstrip⟩ := hr.project
  have hevidence : rt.str (field row "evidence_id") = digest := by
    rw [hr.evidence, hdigest, textOr_str]
    rfl
  have hfields : (Journal.evidenceEdgeRowFields.any fun key =>
      blank (Journal.text rt.toPython (observedAs rt siteId (calleeText rt o) row) key)) = false := by
    rw [List.any_eq_false]
    intro key hkey
    rw [Bool.not_eq_true]
    simp only [Journal.evidenceEdgeRowFields, List.mem_cons, List.not_mem_nil, or_false] at hkey
    rcases hkey with rfl | rfl | rfl | rfl | rfl | rfl | rfl
    · rw [text_str (s := "CallSite") rfl]; decide
    · rw [text_str (s := "site_id") rfl]; decide
    · rw [text_str (s := "Function") rfl]; decide
    · rw [text_str (s := "id") rfl]; decide
    · rw [text_str (s := "OBSERVED_AS") rfl]; decide
    · rw [text_str (s := siteId) rfl]; exact hsite
    · rw [text_str (s := calleeText rt o) rfl]; exact hl
  have hproject : Journal.evidenceProjectId (observedAs rt siteId (calleeText rt o) row) =
      .ok (.str p) := by
    have hfield : field (observedAs rt siteId (calleeText rt o) row) "project_id" = .str p := by
      show Json.str (rt.textOr (field row "project_id")) = .str p
      rw [hp, textOr_str]
    unfold Journal.evidenceProjectId
    rw [hfield, if_pos (by simpa [Json.truthy] using hne)]
  have hkey : Journal.projectIdLookupKey rt.toPython (.str p) = some (rt.casefold p) := by
    unfold Journal.projectIdLookupKey Journal.normalizeProjectId
    have hstr : strip (rt.str (.str p)) = p := hstrip
    rw [if_neg (by simp [Json.isNull]), hstr, if_neg hne]
    rfl
  have hproperty : Journal.text rt.toPython (observedAs rt siteId (calleeText rt o) row)
      "edge_property" = "evidence_id" := text_str rfl
  have hid : Journal.text rt.toPython (observedAs rt siteId (calleeText rt o) row) "edge_id" =
      digest := text_str (congrArg (fun t => some (Json.str t)) hevidence)
  have hidne : digest ≠ "" := by
    rintro rfl
    cases hblank
  obtain ⟨group, hgroup⟩ := observedAs_group fingerprint repr
  unfold evidenceRow
  dsimp only
  rw [if_neg (by rw [hfields]; simp), hproperty, hid, hproject]
  simp only [bind, Except.bind, hkey]
  rw [if_neg (by simp [hidne])]
  have hmake : EvidenceEdgeGroup.make (codeGraphSchema fingerprint repr)
      (rt.str (field (observedAs rt siteId (calleeText rt o) row) "source_label"))
      (rt.str (field (observedAs rt siteId (calleeText rt o) row) "source_property"))
      (rt.str (field (observedAs rt siteId (calleeText rt o) row) "target_label"))
      (rt.str (field (observedAs rt siteId (calleeText rt o) row) "target_property"))
      (rt.str (field (observedAs rt siteId (calleeText rt o) row) "rel_type")) "evidence_id" =
        .ok group := hgroup
  rw [hmake]
  exact ⟨_, rfl⟩

/-! ## The contract -/

variable {fingerprint : String} {repr : String → String}

/-- The contract between the rows of a merge, the writer and the expected effects. -/
structure ObservationContract (rt : Runtime) (fingerprint : String) (repr : String → String)
    (journalProjectId : Option String) (rows : List Row) (staged : StagedReplacement) : Prop where
  complete : ∀ row ∈ rows, (field row "dangling").truthy = true ∨
    rt.textOr (field row "callee_id") ≠ "" ∧ rt.textOr (field row "site_id") ≠ "" ∧
      rt.textOr (field row "evidence_id") ≠ ""
  written : ∃ groups, writeCallEvidenceObservations rt fingerprint repr journalProjectId rows =
      .ok groups ∧
    Grouping.size groups = (expectedEffects rt staged).evidenceObservationCount

/-- Every observation can be linked, and has a project or is lent one by the journal. -/
def AllLinkable (rt : Runtime) (accepted : Option (List String)) (journalProjectId : Option String)
    (r : EvidenceMergeResult) : Prop :=
  ∀ site ∈ r.callSites, ∀ o ∈ site.observations,
    Linkable rt accepted o ∧ projectKnown rt journalProjectId o = true

theorem mem_writerRows {r : EvidenceMergeResult} :
    row ∈ r.observationWriterRows rt accepted ↔ ∃ site ∈ r.callSites, ∃ o ∈ site.observations,
      site.observationWriterRow rt accepted o = row := by
  unfold EvidenceMergeResult.observationWriterRows
  simp only [List.mem_flatMap, List.mem_map]

theorem linkable_row {siteId : String} (hw : WriterRow rt siteId accepted o row)
    (h : calleeText rt o ≠ "") :
    linkable rt row = !isDangling accepted (calleeText rt o) := by
  unfold linkable
  rw [hw.dangling, calleeText_row hw h]
  simp [h, Json.truthy]

theorem isDangling_named {calleeId : String} (h : isDangling accepted calleeId = true) :
    calleeId ≠ "" := by
  unfold isDangling at h
  split at h
  · cases h
  · rw [Bool.and_eq_true, decide_eq_true_iff] at h
    exact h.1

/-- What is known of every row of a merge. -/
structure MergeRow (rt : Runtime) (r : EvidenceMergeResult) (accepted : Option (List String))
    (site : MergedCallSite) (o row : Row) : Prop where
  site_mem : site ∈ r.callSites
  mem : o ∈ site.observations
  reads : WriterRow rt site.head.siteId accepted o row
  props : field row "props" = .null
  project : field row "project_id" = field o "project_id"

theorem merge_row {r : EvidenceMergeResult} (hsound : ∀ site ∈ r.callSites,
      ∀ o ∈ site.observations, ∃ s, field o "project_id" = .str s)
    (h : row ∈ r.observationWriterRows rt accepted) : ∃ site o, MergeRow rt r accepted site o row := by
  obtain ⟨site, hsite, o, ho, rfl⟩ := mem_writerRows.mp h
  obtain ⟨s, hs⟩ := hsound site hsite o ho
  exact ⟨site, o, hsite, ho, writerRow_reads, writerRow_props, by
    rw [hs]
    exact writerRow_text hs (by decide) (by decide)⟩

theorem MergeRow.projectKnown_iff {r : EvidenceMergeResult} (h : MergeRow rt r accepted site o row)
    (journalProjectId : Option String) :
    projectKnown rt journalProjectId row = projectKnown rt journalProjectId o := by
  unfold projectKnown
  rw [scopedProjectId_congr h.project]

/-- A writer that returns has scoped every row, and grouped the edge of every row that it did not
skip. -/
theorem writer_ok {journalProjectId : Option String} {rows : List Row}
    {groups : List (EvidenceEdgeGroup (codeGraphSchema fingerprint repr) × List Row)}
    (h : writeCallEvidenceObservations rt fingerprint repr journalProjectId rows = .ok groups) :
    ∀ row ∈ rows, ∃ position row' edge,
      scopeEvidenceRow rt journalProjectId "call evidence observation" row position = .ok row' ∧
      observationEdge rt row' = .ok edge ∧
      ∀ e, edge = some e → ∃ position' g,
        evidenceRow rt.toPython (codeGraphSchema fingerprint repr) e position' = .ok g := by
  unfold writeCallEvidenceObservations at h
  obtain ⟨rows', hrows', h⟩ := bind_ok.mp h
  obtain ⟨edges, hedges, h⟩ := bind_ok.mp h
  intro row hrow
  obtain ⟨i, hi⟩ := List.mem_iff_getElem?.mp hrow
  obtain ⟨row', hmem', hscope⟩ := mapM_item (lifted_ok.mp hrows') (row, i)
    (List.mk_mem_zipIdx_iff_getElem?.mpr hi)
  obtain ⟨edge, hedge, he⟩ := mapM_item hedges row' hmem'
  refine ⟨i, row', edge, hscope, he, ?_⟩
  rintro e rfl
  have hmem : e ∈ edges.filterMap id := List.mem_filterMap.mpr ⟨some e, hedge, rfl⟩
  obtain ⟨j, hj⟩ := List.mem_iff_getElem?.mp hmem
  have hgroup := lifted_ok.mp h
  unfold groupEvidenceEdges Journal.groupRows at hgroup
  obtain ⟨pairs, hpairs, -⟩ := bind_ok.mp hgroup
  obtain ⟨g, -, hg⟩ := mapM_item hpairs (e, j) (List.mk_mem_zipIdx_iff_getElem?.mpr hj)
  exact ⟨j, g, hg⟩

theorem countP_forall₂ {α β : Type} {R : α → β → Prop} {p : α → Bool} {q : β → Bool}
    {xs : List α} {ys : List β} (h : List.Forall₂ R xs ys) (hpq : ∀ x ∈ xs, ∀ y, R x y → p x = q y) :
    xs.countP p = ys.countP q := by
  induction h with
  | nil => rfl
  | cons hxy _ ih =>
    rw [List.countP_cons, List.countP_cons, hpq _ List.mem_cons_self _ hxy,
      ih fun x hx => hpq x (List.mem_cons_of_mem _ hx)]

/-- **The rows of a merge that are all linkable are written**, and the edges are those counted. -/
theorem written_of_linkable (hsha : ∀ s, blank (rt.sha256Hex s) = false)
    (huuid : ∀ s, blank (rt.uuid5 s) = false) {observations configurations : List Row}
    {coverage : List Coverage} {projectId : String} {r : EvidenceMergeResult}
    (h : mergeCallEvidence rt observations coverage configurations projectId = .ok r)
    {journalProjectId : Option String} (hall : AllLinkable rt accepted journalProjectId r) :
    ∃ groups, writeCallEvidenceObservations rt fingerprint repr journalProjectId
        (r.observationWriterRows rt accepted) = .ok groups ∧
      Grouping.size groups = (r.observationWriterRows rt accepted).countP (linkable rt) := by
  have hsound := merge_sound h
  have hrow : ∀ row ∈ r.observationWriterRows rt accepted, ∃ site o,
      MergeRow rt r accepted site o row := fun row hmem =>
    merge_row (fun site hsite o ho => ((hsound site hsite).2 o ho).1.imp fun _ hs => hs.1) hmem
  -- the scope
  obtain ⟨rows', hrows'⟩ : ∃ rows', ((r.observationWriterRows rt accepted).zipIdx.mapM fun x =>
      scopeEvidenceRow rt journalProjectId "call evidence observation" x.1 x.2) = .ok rows' := by
    refine mapM_succeeds fun x hx => ?_
    obtain ⟨site, o, hm⟩ := hrow x.1 (List.fst_mem_of_mem_zipIdx hx)
    refine (scope_iff hm.props).mpr ?_
    rw [hm.projectKnown_iff]
    exact (hall site hm.site_mem o hm.mem).2
  have hscoped : ∀ row' ∈ rows', ∃ site ∈ r.callSites, ∃ o ∈ site.observations,
      ScopedRow rt site.head.siteId accepted o row' := by
    intro row' hrow'
    obtain ⟨x, hx, hscope⟩ := mapM_mem hrows' row' hrow'
    obtain ⟨site, o, hm⟩ := hrow x.1 (List.fst_mem_of_mem_zipIdx hx)
    exact ⟨site, hm.site_mem, o, hm.mem, scope_reads hm.reads hm.props hscope⟩
  -- the edges
  have hedge : ∀ row' ∈ rows', ∃ edge, observationEdge rt row' = .ok edge ∧
      edge.isSome = linkable rt row' := by
    intro row' hrow'
    obtain ⟨site, hsite, o, ho, hr⟩ := hscoped row' hrow'
    have hnamed := (hall site hsite o ho).1.1
    obtain ⟨t, ht⟩ := ((hsound site hsite).2 o ho).2.1
    refine ⟨_, observationEdge_eq hr.toWriterRow hnamed ht (hsha t), ?_⟩
    rw [linkable_row hr.toWriterRow hnamed]
    cases isDangling accepted (calleeText rt o) <;> rfl
  obtain ⟨edges, hedges, hlen⟩ := mapM_filterMap_length hedge
  -- the groups
  obtain ⟨pairs, hpairs⟩ : ∃ pairs, ((edges.filterMap id).zipIdx.mapM fun x => evidenceRow
      rt.toPython (codeGraphSchema fingerprint repr) x.1 x.2) = .ok pairs := by
    refine mapM_succeeds fun x hx => ?_
    obtain ⟨e, he, hx'⟩ := List.mem_filterMap.mp (List.fst_mem_of_mem_zipIdx hx)
    obtain ⟨row', hrow', hf⟩ := mapM_mem hedges e he
    obtain ⟨site, hsite, o, ho, hr⟩ := hscoped row' hrow'
    obtain ⟨hnamed, hl⟩ := (hall site hsite o ho).1
    obtain ⟨t, ht⟩ := ((hsound site hsite).2 o ho).2.1
    obtain ⟨u, hu⟩ := (hsound site hsite).1
    rw [observationEdge_eq hr.toWriterRow hnamed ht (hsha t)] at hf
    cases hd : isDangling accepted (calleeText rt o) with
    | true =>
      rw [hd] at hf
      cases hf
      cases hx'
    | false =>
      rw [hd] at hf hl
      cases hf
      have hx1 := Option.some.inj hx'
      rw [← hx1]
      exact observedAs_grouped fingerprint repr hr (hl.resolve_left (by simp))
        (hu ▸ huuid u) ht (hsha t) x.2
  have hgroups : groupEvidenceEdges rt.toPython (codeGraphSchema fingerprint repr)
      (edges.filterMap id) = .ok (Grouping.groups pairs) := bind_ok.mpr ⟨pairs, hpairs, rfl⟩
  refine ⟨Grouping.groups pairs, ?_, ?_⟩
  · unfold writeCallEvidenceObservations
    exact bind_ok.mpr ⟨rows', lifted_ok.mpr hrows', bind_ok.mpr ⟨edges, hedges,
      lifted_ok.mpr hgroups⟩⟩
  · have hcount : (r.observationWriterRows rt accepted).zipIdx.countP
        (fun x => linkable rt x.1) = rows'.countP (linkable rt) := by
      refine countP_forall₂ (mapM_ok hrows') fun x hx row' hscope => ?_
      obtain ⟨site, o, hm⟩ := hrow x.1 (List.fst_mem_of_mem_zipIdx hx)
      have hnamed := (hall site hm.site_mem o hm.mem).1.1
      rw [linkable_row hm.reads hnamed,
        linkable_row (scope_reads hm.reads hm.props hscope).toWriterRow hnamed]
    have hfst : (r.observationWriterRows rt accepted).zipIdx.countP (fun x => linkable rt x.1) =
        (r.observationWriterRows rt accepted).countP (linkable rt) := by
      conv_rhs => rw [← List.zipIdx_map_fst 0 (r.observationWriterRows rt accepted), List.countP_map]
      rfl
    rw [Journal.groupRows_size hgroups, hlen, ← hcount, hfst]

theorem ObservationContract.named {journalProjectId : Option String} {r : EvidenceMergeResult}
    {staged : StagedReplacement} (h : ObservationContract rt fingerprint repr journalProjectId
      (r.observationWriterRows rt accepted) staged) (hsite : site ∈ r.callSites)
    (ho : o ∈ site.observations) : calleeText rt o ≠ "" := by
  have hw : WriterRow rt site.head.siteId accepted o (site.observationWriterRow rt accepted o) :=
    writerRow_reads
  rcases h.complete _ (mem_writerRows.mpr ⟨site, hsite, o, ho, rfl⟩) with hd | ⟨hcallee, -⟩
  · rw [hw.dangling] at hd
    exact isDangling_named hd
  · rwa [hw.callee, textOr_str] at hcallee

/-- **The contract** between the merge, the writer and the expected effects holds exactly when every
observation names a callee, has a project or is lent one, and has more than blanks for a callee that
is not flagged. -/
theorem observation_contract_iff (hsha : ∀ s, blank (rt.sha256Hex s) = false)
    (huuid : ∀ s, blank (rt.uuid5 s) = false) {observations configurations : List Row}
    {coverage : List Coverage} {projectId : String} {r : EvidenceMergeResult}
    (h : mergeCallEvidence rt observations coverage configurations projectId = .ok r)
    (accepted : Option (List String)) (journalProjectId : Option String)
    {staged : StagedReplacement}
    (hstaged : staged.evidenceObservations = r.observationWriterRows rt accepted) :
    ObservationContract rt fingerprint repr journalProjectId (r.observationWriterRows rt accepted)
        staged ↔ AllLinkable rt accepted journalProjectId r := by
  have hsound := merge_sound h
  have hne : ∀ {s : String}, blank s = false → s ≠ "" := by
    rintro s hs rfl
    cases hs
  constructor
  · intro hc site hsite o ho
    have hmem : site.observationWriterRow rt accepted o ∈ r.observationWriterRows rt accepted :=
      mem_writerRows.mpr ⟨site, hsite, o, ho, rfl⟩
    have hw : WriterRow rt site.head.siteId accepted o (site.observationWriterRow rt accepted o) :=
      writerRow_reads
    have hnamed := hc.named hsite ho
    obtain ⟨groups, hwritten, -⟩ := hc.written
    obtain ⟨i, row', edge, hscope, hedge, hgroup⟩ := writer_ok hwritten _ hmem
    have hr := scope_reads hw writerRow_props hscope
    obtain ⟨t, ht⟩ := ((hsound site hsite).2 o ho).2.1
    rw [observationEdge_eq hr.toWriterRow hnamed ht (hsha t)] at hedge
    refine ⟨⟨hnamed, ?_⟩, ?_⟩
    · cases hd : isDangling accepted (calleeText rt o) with
      | true => exact .inl rfl
      | false =>
        rw [hd] at hedge
        obtain ⟨j, g, hg⟩ := hgroup _ (Except.ok.inj hedge).symm
        have hfilled := (Journal.evidenceRow_ok _ _ hg).1.filled "target_id" (by decide)
        rw [text_str (s := calleeText rt o) rfl] at hfilled
        exact .inr hfilled
    · obtain ⟨p, hp, -⟩ := ((hsound site hsite).2 o ho).1
      have hproject : field (site.observationWriterRow rt accepted o) "project_id" =
          field o "project_id" := by
        rw [hp]
        exact writerRow_text hp (by decide) (by decide)
      unfold projectKnown
      rw [← scopedProjectId_congr hproject]
      exact (scope_iff writerRow_props).mp ⟨row', hscope⟩
  · intro hall
    refine ⟨fun row hrow => ?_, ?_⟩
    · obtain ⟨site, hsite, o, ho, rfl⟩ := mem_writerRows.mp hrow
      have hw : WriterRow rt site.head.siteId accepted o
          (site.observationWriterRow rt accepted o) := writerRow_reads
      obtain ⟨t, ht⟩ := ((hsound site hsite).2 o ho).2.1
      obtain ⟨u, hu⟩ := (hsound site hsite).1
      have hsiteId : field (site.observationWriterRow rt accepted o) "site_id" =
          .str site.head.siteId := by
        unfold field
        rw [hw.site]
        rfl
      right
      rw [hw.callee, hw.evidence, hsiteId, textOr_str, textOr_str, textOr_str, ht, textOr_str]
      exact ⟨(hall site hsite o ho).1.1, hne (hu ▸ huuid u), hne (hsha t)⟩
    · unfold expectedEffects
      rw [hstaged]
      exact written_of_linkable hsha huuid h hall

theorem linkable_of_inputs {observations configurations : List Row} {coverage : List Coverage}
    {projectId : String} {r : EvidenceMergeResult}
    (h : mergeCallEvidence rt observations coverage configurations projectId = .ok r)
    (hproject : strip projectId ≠ "")
    (hcallee : ∀ raw ∈ observations, blank (calleeText rt raw) = false)
    (accepted : Option (List String)) (journalProjectId : Option String) :
    AllLinkable rt accepted journalProjectId r := by
  intro site hsite o ho
  obtain ⟨⟨p, hp, heq⟩, -, raw, hraw, hsame⟩ := (merge_sound h site hsite).2 o ho
  have hblank : blank (calleeText rt o) = false := by
    rw [hsame]
    exact hcallee raw hraw
  have hne : projectId ≠ "" := by
    rintro rfl
    exact hproject (by decide)
  have hscope : scopedProjectId journalProjectId o [] = .str projectId := by
    unfold scopedProjectId either
    rw [hp, heq hne]
    have htruthy : (Json.str projectId).truthy = true := by simpa [Json.truthy] using hne
    rw [if_pos htruthy]
    rfl
  refine ⟨⟨?_, .inr hblank⟩, ?_⟩
  · intro he
    rw [he] at hblank
    cases hblank
  · unfold projectKnown Journal.projectIdLookupKey Journal.normalizeProjectId
    rw [hscope]
    have hstr : rt.str (.str projectId) = projectId := rfl
    simp [Json.isNull, hstr, hproject]

/-- A runtime whose digests are never blank. -/
def markedRuntime : Runtime :=
  { sampleRuntime with sha256Hex := fun s => "#" ++ s, uuid5 := fun s => "#" ++ s }

theorem marked_not_blank (s : String) : blank ("#" ++ s) = false := by
  unfold blank
  rw [String.toList_append, List.all_append]
  have h : ("#".toList.all isSpace) = false := by decide
  rw [h, Bool.false_and]

/-- One call that names its callee, merged under a project. -/
theorem observation_contract_sample :
    ∃ r staged, mergeCallEvidence markedRuntime [sampleCall 0] [] [] "p" = .ok r ∧
      ObservationContract markedRuntime "" id none (r.observationWriterRows markedRuntime none)
        staged := by
  have hplain : ∀ raw ∈ [sampleCall 0], Plain markedRuntime "p" raw := by
    intro raw hraw
    rw [List.mem_singleton.mp hraw]
    exact ⟨⟨_, rfl⟩, ⟨_, rfl⟩, ⟨_, rfl⟩, rfl, rfl, rfl⟩
  obtain ⟨r, hr⟩ := merge_succeeds hplain
  refine ⟨r, ⟨[], [], [], r.observationWriterRows markedRuntime none, []⟩, hr,
    (observation_contract_iff marked_not_blank marked_not_blank hr none none rfl).mpr ?_⟩
  refine linkable_of_inputs hr (by decide) (fun raw hraw => ?_) none none
  rw [List.mem_singleton.mp hraw]
  decide

/-- **A call without a callee stops the writer**: the merge files it, its row is not flagged, and the
writer refuses it. -/
theorem unresolved_call_refused :
    ¬ ∀ (rt : Runtime) (observations configurations : List Row) (coverage : List Coverage)
      (projectId : String) (r : EvidenceMergeResult) (accepted : Option (List String))
      (staged : StagedReplacement), (∀ s, blank (rt.sha256Hex s) = false) →
      (∀ s, blank (rt.uuid5 s) = false) →
      mergeCallEvidence rt observations coverage configurations projectId = .ok r →
      staged.evidenceObservations = r.observationWriterRows rt accepted →
      ObservationContract rt "" id none (r.observationWriterRows rt accepted) staged := by
  intro h
  have hplain : ∀ raw ∈ [sampleLexical "f1" "a.c"], Plain markedRuntime "p" raw := by
    intro raw hraw
    rw [List.mem_singleton.mp hraw]
    exact ⟨⟨_, rfl⟩, ⟨_, rfl⟩, ⟨_, rfl⟩, rfl, rfl, rfl⟩
  obtain ⟨r, hr⟩ := merge_succeeds hplain
  have hc := h markedRuntime _ [] [] "p" r none
    ⟨[], [], [], r.observationWriterRows markedRuntime none, []⟩ marked_not_blank marked_not_blank
    hr rfl
  obtain ⟨site, hsite, o, ho, -⟩ := merge_observed hr List.mem_cons_self
  obtain ⟨-, -, raw, hraw, hsame⟩ := (merge_sound hr site hsite).2 o ho
  refine hc.named hsite ho ?_
  rw [hsame, List.mem_singleton.mp hraw]
  decide

end CortexHarness.Evidence
