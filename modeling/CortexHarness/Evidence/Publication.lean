import CortexHarness.Evidence.CallEdges

/-!
# The stale edges of a guarded publication

Model of `compute_stale_strong_edges`, `build_staged_replacement` and the delete query of
`guarded_publication.py:456-666`: the strict rows of a merge are staged, and every baseline strong
edge in the affected files that they do not re-accept is listed for deletion. Re-acceptance and the
list go by site id alone: an edge without one is skipped, and of the edges that share one the first
is listed.

The baseline edges are dicts of JSON values, as the graph returns them. The fields of a staged
replacement set that neither the list nor the strict rows depend on are left out.

Results:
* `stale_eq`: the list is that of the first edge of every site id among the stale ones;
* `strict_rows_staged`: the strict rows of a merge pass the check of the staging;
* `stale_edges_iff`: when every affected edge is derived again or deleted.
-/

namespace CortexHarness.Evidence

open Json Table Upserts Fallible

variable (rt : Runtime)

/-- `SEMANTIC_PUBLICATION_MODES`. -/
inductive PublicationMode where
  | gated
  | off
  | rollback
  deriving Repr, DecidableEq

/-- `SemanticPublicationPolicy.semantic_publication_allowed`. -/
def PublicationMode.semanticPublicationAllowed : PublicationMode → Bool
  | .gated => true
  | _ => false

/-- `StaleStrongEdge`. -/
structure StaleStrongEdge where
  callerId : String
  calleeId : String
  siteId : String
  filePath : String
  reason : String
  deriving Repr, DecidableEq

/-- `StagedReplacementSet`. -/
structure StagedReplacementSet where
  strictCallRows : List StrictCallRow
  staleStrongEdges : List StaleStrongEdge

/-- `str(row.get("site_id") or (row.get("props") or {}).get("site_id") or "")`. -/
def stagedSiteId (row : StrictCallRow) : String :=
  rt.textOr (either (.str row.siteId) (field row.props "site_id"))

/-- `StagedReplacementSet.reaccepted_site_ids`. -/
def reacceptedSiteIds (rows : List StrictCallRow) : List String := rows.map (stagedSiteId rt)

/-- `str(edge.get("site_id") or "")`. -/
def edgeSiteId (edge : Row) : String := rt.textOr (field edge "site_id")

/-- `baseline_edge_file_path`. -/
def baselineEdgeFilePath (edge : Row) : String := rt.textOr (field edge "file_path")

/-- `str(reasons.get(file_path) or affected_reason)`. -/
def staleReason (fileReasons : List (String × String)) (file : String) : String :=
  match (lookup Prod.fst file fileReasons).map Prod.snd with
  | some reason => if reason = "" then "downgraded" else reason
  | none => "downgraded"

/-- The entry of a stale edge. -/
def staleEdge (fileReasons : List (String × String)) (edge : Row) : StaleStrongEdge :=
  { callerId := rt.textOr (field edge "caller_id")
    calleeId := rt.textOr (field edge "callee_id")
    siteId := edgeSiteId rt edge
    filePath := baselineEdgeFilePath rt edge
    reason := staleReason fileReasons (baselineEdgeFilePath rt edge) }

/-- The state of the loop over the baseline edges. -/
structure StaleScan where
  stale : List StaleStrongEdge := []
  seen : List String := []

/-- One round of the loop. -/
def StaleScan.visit (reaccepted affectedFiles : List String) (fileReasons : List (String × String))
    (scan : StaleScan) (edge : Row) : StaleScan :=
  let siteId := edgeSiteId rt edge
  if siteId = "" ∨ siteId ∈ scan.seen then scan
  else if baselineEdgeFilePath rt edge ∉ affectedFiles then scan
  else if siteId ∈ reaccepted then scan
  else
    { stale := scan.stale ++ [staleEdge rt fileReasons edge]
      seen := siteId :: scan.seen }

/-- `compute_stale_strong_edges`. -/
def computeStaleStrongEdges (baseline : List Row) (reaccepted affectedFiles : List String)
    (fileReasons : List (String × String)) : List StaleStrongEdge :=
  let reaccepted := reaccepted.filter fun siteId => siteId ≠ ""
  (baseline.foldl (StaleScan.visit rt reaccepted affectedFiles fileReasons) {}).stale

/-- The check of a strict row before it is staged. -/
def verifyRow (row : StrictCallRow) : Except MergeError StrictCallRow :=
  if (field row.props "resolution_class").isText directResolved then do
    if ← isStrongCallEvidence row.props then return row
    else throw (.value ("staged strict call row claims direct_resolved without an approved " ++
      "semantic provider and complete identity fields"))
  else .ok row

/-- `build_staged_replacement`, on the result of a merge. -/
def buildStagedReplacement (mode : PublicationMode) (merge : EvidenceMergeResult)
    (baseline : List Row) (affectedFiles : List String) (fileReasons : List (String × String)) :
    Except MergeError StagedReplacementSet := do
  let rows ← if mode.semanticPublicationAllowed then merge.strictCallRows.mapM verifyRow else .ok []
  return {
    strictCallRows := rows
    staleStrongEdges :=
      computeStaleStrongEdges rt baseline (reacceptedSiteIds rt rows) affectedFiles fileReasons }

/-! ## Edges and the delete query -/

/-- Caller, callee and site id, as the graph stores them. -/
abbrev EdgeTriple := Json × Json × Json

/-- The triple of a baseline edge. -/
def edgeTriple (edge : Row) : EdgeTriple :=
  (field edge "caller_id", field edge "callee_id", field edge "site_id")

/-- The triple of a listed edge. -/
def StaleStrongEdge.triple (e : StaleStrongEdge) : EdgeTriple :=
  (.str e.callerId, .str e.calleeId, .str e.siteId)

/-- The triple of a staged row. -/
def stagedTriple (row : StrictCallRow) : EdgeTriple :=
  (.str row.callerId, row.calleeId, .str (stagedSiteId rt row))

/-- `(caller {id})-[r:CALLS {site_id}]->(callee {id})` matches the edge. -/
def carries (functions : List FunctionNode) (edge : CallEdge) (t : EdgeTriple) : Bool :=
  let same (stored : Option Json) (value : Json) : Bool :=
    (graphKey rt value).isSome && stored.bind (graphKey rt) = graphKey rt value
  same (functions[edge.ends.1]?.map FunctionNode.id) t.1 &&
    same (functions[edge.ends.2]?.map FunctionNode.id) t.2.1 &&
    same (some (edge.props "site_id")) t.2.2

/-- `STALE_STRONG_EDGE_DELETE_CYPHER`. -/
def deleteStaleStrongEdges (functions : List FunctionNode) (edges : List CallEdge)
    (stale : List StaleStrongEdge) : List CallEdge :=
  edges.filter fun edge => !stale.any fun l => carries rt functions edge l.triple

/-- The edge is in the affected scope. -/
def Affected (affectedFiles : List String) (edge : Row) : Prop :=
  baselineEdgeFilePath rt edge ∈ affectedFiles

/-- A staged row derives the edge again. -/
def Rederived (rows : List StrictCallRow) (edge : Row) : Prop :=
  ∃ row ∈ rows, stagedTriple rt row = edgeTriple edge

/-- The edge is listed, with its triple. -/
def Listed (stale : List StaleStrongEdge) (edge : Row) : Prop :=
  ∃ l ∈ stale, l.triple = edgeTriple edge

/-- No stale strong edge survives: an affected edge is derived again or listed, the delete query
removes what is listed, and what is listed is an affected edge. -/
structure NoStaleEdge (baseline : List Row) (affectedFiles : List String)
    (staged : StagedReplacementSet) : Prop where
  settled : ∀ edge ∈ baseline, Affected rt affectedFiles edge →
    Rederived rt staged.strictCallRows edge ∨ Listed staged.staleStrongEdges edge
  deleted : ∀ edge ∈ baseline, Listed staged.staleStrongEdges edge → ∀ functions edges,
    ∀ e ∈ deleteStaleStrongEdges rt functions edges staged.staleStrongEdges,
      carries rt functions e (edgeTriple edge) = false
  bounded : ∀ l ∈ staged.staleStrongEdges, l.filePath ∈ affectedFiles ∧
    ∃ edge ∈ baseline, Affected rt affectedFiles edge ∧ l.filePath = baselineEdgeFilePath rt edge ∧
      l.siteId = edgeSiteId rt edge

/-! ## What is listed -/

variable {rt}

/-- The edge is to be listed: it has a site id that is not re-accepted, and its file is affected. -/
def isStale (rt : Runtime) (reaccepted affectedFiles : List String) (edge : Row) : Bool :=
  edgeSiteId rt edge ≠ "" && baselineEdgeFilePath rt edge ∈ affectedFiles &&
    edgeSiteId rt edge ∉ reaccepted

theorem isStale_iff {reaccepted affectedFiles : List String} {edge : Row} :
    isStale rt reaccepted affectedFiles edge = true ↔
      edgeSiteId rt edge ≠ "" ∧ Affected rt affectedFiles edge ∧
        edgeSiteId rt edge ∉ reaccepted := by
  unfold isStale Affected
  simp only [Bool.and_eq_true, decide_eq_true_iff, and_assoc]

theorem visit_eq (reaccepted affectedFiles : List String) {fileReasons : List (String × String)}
    {kept : List Row} {scan : StaleScan} (edge : Row)
    (hstale : scan.stale = kept.map (staleEdge rt fileReasons))
    (hseen : ∀ s, s ∈ scan.seen ↔ ∃ e ∈ kept, edgeSiteId rt e = s) :
    let kept' := if isStale rt reaccepted affectedFiles edge
      then keepFirst (edgeSiteId rt) kept edge else kept
    let scan' := scan.visit rt reaccepted affectedFiles fileReasons edge
    scan'.stale = kept'.map (staleEdge rt fileReasons) ∧
      ∀ s, s ∈ scan'.seen ↔ ∃ e ∈ kept', edgeSiteId rt e = s := by
  simp only
  unfold StaleScan.visit
  simp only
  by_cases hold : edgeSiteId rt edge ∈ scan.seen
  · obtain ⟨e, he, hid⟩ := (hseen _).mp hold
    rw [if_pos (.inr hold), keepFirst_old he hid, ite_self]
    exact ⟨hstale, hseen⟩
  · by_cases hs : isStale rt reaccepted affectedFiles edge = true
    · obtain ⟨hne, haff, hre⟩ := isStale_iff.mp hs
      unfold Affected at haff
      rw [if_neg (by simp [hne, hold]), if_neg (not_not.mpr haff), if_neg hre, if_pos hs,
        keepFirst_new fun e he hid => hold ((hseen _).mpr ⟨e, he, hid⟩)]
      refine ⟨?_, fun s => ?_⟩
      · rw [hstale, List.map_append, List.map_singleton]
      · rw [List.mem_cons, hseen]
        simp only [List.mem_append, List.mem_singleton, or_and_right, exists_or, exists_eq_left]
        rw [or_comm, eq_comm]
    · rw [if_neg hs]
      have hskip : edgeSiteId rt edge = "" ∨ baselineEdgeFilePath rt edge ∉ affectedFiles ∨
          edgeSiteId rt edge ∈ reaccepted := by
        by_contra hno
        simp only [not_or, not_not] at hno
        exact hs (isStale_iff.mpr hno)
      have hscan : scan.visit rt reaccepted affectedFiles fileReasons edge = scan := by
        unfold StaleScan.visit
        rcases hskip with h | h | h <;> simp [h]
      unfold StaleScan.visit at hscan
      simp only at hscan
      rw [hscan]
      exact ⟨hstale, hseen⟩

/-- **The list of stale edges**: the first edge of every site id among the stale ones. -/
theorem stale_eq (baseline : List Row) (reaccepted affectedFiles : List String)
    (fileReasons : List (String × String)) :
    computeStaleStrongEdges rt baseline reaccepted affectedFiles fileReasons =
      (firsts (edgeSiteId rt) (baseline.filter
        (isStale rt reaccepted affectedFiles))).map (staleEdge rt fileReasons) := by
  have hrun : ∀ ids : List String,
      let scan := baseline.foldl (StaleScan.visit rt ids affectedFiles fileReasons) {}
      let kept := firsts (edgeSiteId rt) (baseline.filter (isStale rt ids affectedFiles))
      scan.stale = kept.map (staleEdge rt fileReasons) ∧
        ∀ s, s ∈ scan.seen ↔ ∃ e ∈ kept, edgeSiteId rt e = s := by
    intro ids
    induction baseline using List.reverseRecOn with
    | nil => simp
    | append_singleton baseline edge ih =>
      have hstep := visit_eq ids affectedFiles edge ih.1 ih.2
      simp only at hstep ⊢
      rw [List.foldl_append, List.foldl_cons, List.foldl_nil, List.filter_append]
      by_cases hs : isStale rt ids affectedFiles edge = true
      · rw [if_pos hs] at hstep
        rw [List.filter_cons_of_pos hs, List.filter_nil, firsts_snoc]
        exact hstep
      · rw [if_neg hs] at hstep
        rw [List.filter_cons_of_neg hs, List.filter_nil, List.append_nil]
        exact hstep
  have hstale : isStale rt (reaccepted.filter fun siteId => siteId ≠ "") affectedFiles =
      isStale rt reaccepted affectedFiles := by
    funext edge
    rw [Bool.eq_iff_iff, isStale_iff, isStale_iff]
    refine and_congr_right fun hne => and_congr_right fun _ => ?_
    simp [hne]
  unfold computeStaleStrongEdges
  simp only
  rw [(hrun _).1, hstale]

/-- The triple of an edge, as the list would carry it. -/
def textTriple (rt : Runtime) (edge : Row) : EdgeTriple :=
  (.str (rt.textOr (field edge "caller_id")), .str (rt.textOr (field edge "callee_id")),
    .str (edgeSiteId rt edge))

theorem staleEdge_triple (fileReasons : List (String × String)) (edge : Row) :
    (staleEdge rt fileReasons edge).triple = textTriple rt edge := rfl

theorem textOr_str (s : String) : rt.textOr (.str s) = s := by
  unfold Runtime.textOr either
  by_cases h : (Json.str s).truthy = true
  · rw [if_pos h]
    rfl
  · rw [if_neg h]
    have hs : s = "" := by simpa [Json.truthy] using h
    rw [hs]
    rfl

/-- The edges of the affected scope. -/
def affectedEdges (rt : Runtime) (affectedFiles : List String) (baseline : List Row) : List Row :=
  baseline.filter fun edge => baselineEdgeFilePath rt edge ∈ affectedFiles

theorem lookup_stale {reaccepted affectedFiles : List String} {baseline : List Row} {id : String}
    (hne : id ≠ "") (hre : id ∉ reaccepted) :
    lookup (edgeSiteId rt) id (baseline.filter (isStale rt reaccepted affectedFiles)) =
      lookup (edgeSiteId rt) id (affectedEdges rt affectedFiles baseline) := by
  unfold lookup affectedEdges
  rw [List.find?_filter, List.find?_filter]
  refine find?_congr fun edge _ => ?_
  by_cases hid : edgeSiteId rt edge = id
  · unfold isStale
    rw [hid]
    simp [hne, hre]
  · simp [hid]

/-- The edge has a site id that no staged row has, and the first affected edge with that id has its
caller and callee. -/
def Deletable (rt : Runtime) (rows : List StrictCallRow) (baseline : List Row)
    (affectedFiles : List String) (edge : Row) : Prop :=
  edgeSiteId rt edge ≠ "" ∧ (∀ row ∈ rows, stagedSiteId rt row ≠ edgeSiteId rt edge) ∧
    ∃ first, lookup (edgeSiteId rt) (edgeSiteId rt edge)
      (affectedEdges rt affectedFiles baseline) = some first ∧
        textTriple rt first = edgeTriple edge

theorem listed_iff (rows : List StrictCallRow) (baseline : List Row) (affectedFiles : List String)
    (fileReasons : List (String × String)) (edge : Row) :
    Listed (computeStaleStrongEdges rt baseline (reacceptedSiteIds rt rows) affectedFiles
        fileReasons) edge ↔ Deletable rt rows baseline affectedFiles edge := by
  unfold Listed Deletable
  rw [stale_eq]
  have hrows : edgeSiteId rt edge ∉ reacceptedSiteIds rt rows ↔
      ∀ row ∈ rows, stagedSiteId rt row ≠ edgeSiteId rt edge := by
    unfold reacceptedSiteIds
    simp
  rw [← hrows]
  constructor
  · rintro ⟨l, hl, htriple⟩
    obtain ⟨first, hfirst, rfl⟩ := List.mem_map.mp hl
    rw [staleEdge_triple] at htriple
    obtain ⟨hne, -, hre⟩ := isStale_iff.mp (List.mem_filter.mp (mem_of_mem_firsts hfirst)).2
    have hid : edgeSiteId rt edge = edgeSiteId rt first := by
      have hsite : Json.str (edgeSiteId rt first) = field edge "site_id" :=
        congrArg (fun t : EdgeTriple => t.2.2) htriple
      conv_lhs => unfold edgeSiteId
      rw [← hsite, textOr_str]
    rw [hid]
    refine ⟨hne, hre, first, ?_, htriple⟩
    rw [← lookup_stale hne hre, ← lookup_firsts]
    exact lookup_of_mem (keyed_firsts _) hfirst
  · rintro ⟨hne, hre, first, hfirst, htriple⟩
    rw [← lookup_stale hne hre, ← lookup_firsts] at hfirst
    exact ⟨staleEdge rt fileReasons first, List.mem_map_of_mem (lookup_mem hfirst), htriple⟩

theorem delete_removes {stale : List StaleStrongEdge} {edge : Row} (h : Listed stale edge)
    (functions : List FunctionNode) (edges : List CallEdge) :
    ∀ e ∈ deleteStaleStrongEdges rt functions edges stale,
      carries rt functions e (edgeTriple edge) = false := by
  intro e he
  obtain ⟨l, hl, htriple⟩ := h
  have hkept := (List.mem_filter.mp he).2
  rw [Bool.not_eq_true', List.any_eq_false] at hkept
  rw [← htriple]
  simpa using hkept l hl

/-! ## The staged rows -/

theorem field_filter {row : Row} {p : String × Json → Bool} {k : String} {v : Json}
    (h : find? row k = some v) (hp : p (k, v) = true) : find? (row.filter p) k = some v := by
  rw [find?_eq_lookup] at h ⊢
  obtain ⟨m, hm, rfl⟩ := Option.map_eq_some_iff.mp h
  have hkey := lookup_key hm
  refine Option.map_eq_some_iff.mpr ⟨m, ?_, rfl⟩
  unfold lookup at hm ⊢
  obtain ⟨hq, before, after, rfl, hnone⟩ := List.find?_eq_some_iff_append.mp hm
  refine List.find?_eq_some_iff_append.mpr ⟨hq, before.filter p, after.filter p, ?_, ?_⟩
  · rw [List.filter_append, List.filter_cons_of_pos]
    rw [← hkey] at hp
    exact hp
  · exact fun x hx => hnone x (List.mem_filter.mp hx).1

theorem field_strictProps (head : SiteHead) {o : Row} {k s : String} (h : field o k = .str s)
    (hdrop : k ∉ ["caller_id", "callee_id", "site_id", "props", "_repeat_runs"])
    (hset : k ∉ ["resolution_class", "evidence_id", "site_id", "project_id",
      "merge_schema_version", "observation_count"]) : field (strictProps head o) k = .str s := by
  unfold strictProps
  simp only [List.mem_cons, List.not_mem_nil, or_false, not_or] at hset
  obtain ⟨h1, h2, h3, h4, h5, h6⟩ := hset
  simp only [List.foldl_cons, List.foldl_nil, field_put, if_neg h1, if_neg h2, if_neg h3,
    if_neg h4, if_neg h5, if_neg h6]
  unfold field
  rw [field_filter (find?_of_field h)]
  · rfl
  · simpa [notEmpty] using hdrop

theorem nonBlankText_str {v : Json} (h : nonBlankText v = true) : ∃ s, v = .str s := by
  cases v with
  | str s => exact ⟨s, rfl⟩
  | null | bool | int | float | arr | obj => cases h

theorem isText_str {v : Json} {s : String} (h : v.isText s = true) : v = .str s := by
  cases v with
  | str t => simpa [isText] using h
  | null | bool | int | float | arr | obj => cases h

theorem field_strictProps_class (head : SiteHead) (o : Row) :
    field (strictProps head o) "resolution_class" = .str directResolved := by
  unfold strictProps
  simp only [List.foldl_cons, List.foldl_nil, field_put]
  simp

theorem strictProps_strong (head : SiteHead) {o : Row} (h : strong o = true) :
    isStrongCallEvidence (strictProps head o) = .ok true := by
  have ho : isStrongCallEvidence o = .ok true := by
    unfold strong at h
    split at h
    · next hb => rw [hb, h]
    · cases h
  unfold isStrongCallEvidence at ho
  split at ho
  swap
  · cases ho
  next hclass =>
  obtain ⟨approved, hmember, ho⟩ := bind_ok.mp ho
  have hall := Except.ok.inj ho
  simp only [Bool.and_eq_true] at hall
  obtain ⟨⟨rfl, hcontext⟩, hprops⟩ := hall
  have htext : ∀ k ∈ strongCallRequiredProps, ∃ s, field o k = .str s := fun k hk =>
    nonBlankText_str (List.all_eq_true.mp hprops k hk)
  unfold contextIsStrictlyEligible at hcontext
  simp only [Bool.and_eq_true] at hcontext
  obtain ⟨⟨⟨hfidelity, hadmission⟩, hcoverage⟩, hpair⟩ := hcontext
  have hsame : ∀ k ∈ ["semantic_provider", "tu_key", "config_fingerprint", "callee_usr",
      "context_attestation", "manifest_key"], field (strictProps head o) k = field o k := by
    intro k hk
    obtain ⟨s, hs⟩ := htext k (List.mem_cons_of_mem _ hk)
    rw [hs]
    refine field_strictProps head hs ?_ ?_
    · clear hs
      revert k
      decide
    · clear hs
      revert k
      decide
  have hfidelity' := field_strictProps head (isText_str hfidelity) (by decide) (by decide)
  have hadmission' := field_strictProps head (isText_str hadmission) (by decide) (by decide)
  have hcoverage' := field_strictProps head (isText_str hcoverage) (by decide) (by decide)
  have hrequired : (strongCallRequiredProps.all fun prop =>
      nonBlankText (field (strictProps head o) prop)) = true := by
    refine List.all_eq_true.mpr fun k hk => ?_
    rcases List.mem_cons.mp hk with rfl | hk'
    · rw [field_strictProps_class]
      decide
    · rw [hsame k hk']
      exact List.all_eq_true.mp hprops k hk
  have heligible : contextIsStrictlyEligible (strictProps head o) = true := by
    unfold contextIsStrictlyEligible
    rw [hfidelity', hadmission', hcoverage']
    refine List.all_eq_true.mpr fun k hk => ?_
    rw [hsame k (by revert k; decide)]
    exact List.all_eq_true.mp hpair k hk
  unfold isStrongCallEvidence
  rw [field_strictProps_class, hsame _ (by decide), hmember, heligible, hrequired]
  rfl

/-- **The strict rows of a merge are staged as they are.** -/
theorem strict_rows_staged {observations configurations : List Row} {coverage : List Coverage}
    {projectId : String} {r : EvidenceMergeResult}
    (h : mergeCallEvidence rt observations coverage configurations projectId = .ok r) :
    r.strictCallRows.mapM verifyRow = .ok r.strictCallRows := by
  obtain ⟨m, -, -, hrows, -⟩ := merge_filed h
  obtain ⟨hr, hok⟩ := strict_rows_eq hrows
  rw [mapM_eq_map (g := id), List.map_id]
  intro row hrow
  rw [hr] at hrow
  obtain ⟨site, hsite, hrow⟩ := List.mem_filterMap.mp hrow
  obtain ⟨o, ho, -, rfl⟩ := (siteRow_iff (hok site hsite)).mp hrow
  have hstrong := (List.mem_filter.mp (List.mem_of_mem_head? ho)).2
  have hprops : (strictCallRow rt site.head o).props = strictProps site.head o := rfl
  unfold verifyRow
  rw [hprops, field_strictProps_class, strictProps_strong site.head hstrong]
  rfl

/-! ## Publication -/

/-- The strict rows that a mode stages. -/
def stagedRows (mode : PublicationMode) (r : EvidenceMergeResult) : List StrictCallRow :=
  if mode.semanticPublicationAllowed then r.strictCallRows else []

theorem staged_eq {observations configurations : List Row} {coverage : List Coverage}
    {projectId : String} {r : EvidenceMergeResult}
    (h : mergeCallEvidence rt observations coverage configurations projectId = .ok r)
    (mode : PublicationMode) (baseline : List Row) (affectedFiles : List String)
    (fileReasons : List (String × String)) :
    buildStagedReplacement rt mode r baseline affectedFiles fileReasons =
      .ok ⟨stagedRows mode r, computeStaleStrongEdges rt baseline
        (reacceptedSiteIds rt (stagedRows mode r)) affectedFiles fileReasons⟩ := by
  unfold buildStagedReplacement stagedRows
  cases mode.semanticPublicationAllowed with
  | true =>
    simp only [if_true]
    rw [strict_rows_staged h]
    rfl
  | false => rfl

/-- **No stale strong edge survives** exactly when every affected edge that the staged rows do not
derive again has a site id of its own: no staged row has it, and the first affected edge with that
id has the same caller and callee. -/
theorem stale_edges_iff {observations configurations : List Row} {coverage : List Coverage}
    {projectId : String} {r : EvidenceMergeResult}
    (h : mergeCallEvidence rt observations coverage configurations projectId = .ok r)
    (mode : PublicationMode) (baseline : List Row) (affectedFiles : List String)
    (fileReasons : List (String × String)) :
    ∃ staged, buildStagedReplacement rt mode r baseline affectedFiles fileReasons = .ok staged ∧
      (NoStaleEdge rt baseline affectedFiles staged ↔
        ∀ edge ∈ baseline, Affected rt affectedFiles edge →
          ¬ Rederived rt (stagedRows mode r) edge →
          Deletable rt (stagedRows mode r) baseline affectedFiles edge) := by
  refine ⟨_, staged_eq h mode baseline affectedFiles fileReasons, ?_⟩
  constructor
  · intro hno edge hedge haff hre
    rcases hno.settled edge hedge haff with hr | hl
    · exact absurd hr hre
    · exact (listed_iff _ _ _ fileReasons edge).mp hl
  · intro hall
    refine ⟨?_, fun edge _ hl => delete_removes hl, ?_⟩
    · intro edge hedge haff
      by_cases hre : Rederived rt (stagedRows mode r) edge
      · exact .inl hre
      · exact .inr ((listed_iff _ _ _ fileReasons edge).mpr (hall edge hedge haff hre))
    · intro l hl
      simp only [stale_eq] at hl
      obtain ⟨edge, hedge, rfl⟩ := List.mem_map.mp hl
      obtain ⟨hmem, hstale⟩ := List.mem_filter.mp (mem_of_mem_firsts hedge)
      have haff := (isStale_iff.mp hstale).2.1
      exact ⟨haff, edge, hmem, haff, rfl, rfl⟩

/-- A baseline edge from `f1` in `a.c`. -/
def sampleEdge (callee siteId : String) : Row :=
  [("caller_id", .str "f1"), ("callee_id", .str callee), ("site_id", .str siteId),
    ("file_path", .str "a.c")]

/-- One edge is derived again and the other is deleted. -/
theorem stale_edges_sample :
    ∃ r staged, mergeCallEvidence sampleRuntime [sampleSemantic "f1" "a.c"] [] [] "p" = .ok r ∧
      buildStagedReplacement sampleRuntime .gated r
        [sampleEdge "f2" "f1:f2:a.c:3:5:call", sampleEdge "f3" "s1"] ["a.c"] [] = .ok staged ∧
      NoStaleEdge sampleRuntime [sampleEdge "f2" "f1:f2:a.c:3:5:call", sampleEdge "f3" "s1"]
        ["a.c"] staged := by
  obtain ⟨r, row, hr, hrows, hcaller, hcallee, hsite, -, -⟩ := sample_row
  obtain ⟨staged, hstaged, hiff⟩ := stale_edges_iff hr .gated
    [sampleEdge "f2" "f1:f2:a.c:3:5:call", sampleEdge "f3" "s1"] ["a.c"] []
  have hid : stagedSiteId sampleRuntime row = "f1:f2:a.c:3:5:call" := by
    unfold stagedSiteId
    rw [hsite]
    rfl
  have hall : ∀ row' ∈ stagedRows .gated r, row' = row := by
    intro row' hrow'
    have hmem : row' ∈ r.strictCallRows := hrow'
    rw [hrows] at hmem
    exact List.mem_singleton.mp hmem
  refine ⟨r, staged, hr, hstaged, hiff.mpr fun edge hedge _ hre => ?_⟩
  rcases List.mem_cons.mp hedge with rfl | hedge
  · refine absurd ⟨row, ?_, ?_⟩ hre
    · show row ∈ r.strictCallRows
      rw [hrows]
      exact List.mem_singleton_self row
    · unfold stagedTriple
      rw [hid, hcaller, hcallee]
      rfl
  · rw [List.mem_singleton.mp hedge]
    refine ⟨by decide, fun row' hrow' => ?_, sampleEdge "f3" "s1", rfl, rfl⟩
    rw [hall row' hrow', hid]
    decide

/-- **Of two affected edges with one site id, one survives**: only the first is listed. -/
theorem shared_site_edge_survives :
    ¬ ∀ (rt : Runtime) (observations configurations : List Row) (coverage : List Coverage)
      (projectId : String) (r : EvidenceMergeResult) (mode : PublicationMode) (baseline : List Row)
      (affectedFiles : List String) (fileReasons : List (String × String))
      (staged : StagedReplacementSet),
      mergeCallEvidence rt observations coverage configurations projectId = .ok r →
      buildStagedReplacement rt mode r baseline affectedFiles fileReasons = .ok staged →
      NoStaleEdge rt baseline affectedFiles staged := by
  intro h
  obtain ⟨r, hr⟩ : ∃ r, mergeCallEvidence sampleRuntime [] [] [] "p" = .ok r := ⟨_, rfl⟩
  have hno := h sampleRuntime [] [] [] "p" r .off [sampleEdge "f2" "s1", sampleEdge "f3" "s1"]
    ["a.c"] [] _ hr rfl
  rcases hno.settled (sampleEdge "f3" "s1") (by simp) (by unfold Affected; decide) with ⟨row, hrow, -⟩ | hl
  · cases hrow
  · obtain ⟨-, -, first, hfirst, htriple⟩ := (listed_iff [] _ _ [] _).mp hl
    have he : some first = some (sampleEdge "f2" "s1") := hfirst.symm.trans rfl
    rw [Option.some.inj he] at htriple
    have hcallee : Json.str "f2" = Json.str "f3" :=
      congrArg (fun t : EdgeTriple => t.2.1) htriple
    exact absurd (Json.str.inj hcallee) (by decide)

end CortexHarness.Evidence
