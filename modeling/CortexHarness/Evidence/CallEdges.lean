import CortexHarness.Library.Upsert
import CortexHarness.Evidence.Strict

/-!
# Writing the strict rows

Model of the `call_site` mutation of `compile_persisted_mutation` (`executor.py:97-108`) on the
strict rows of a merge, with the project scope that `_require_call_project_scope` gives a row
(`language_writer.py:133-152`). A graph has Function nodes and `CALLS` edges between them. A row
`MATCH`es its caller and its callee, a null or NaN id matching no node; `MERGE` finds the edges
between the two whose stored `site_id` is the row's, or creates one; `SET edge += row.props` then
writes the property map, a null removing a property. The row is keyed by `callsite_site_id`, while
its property map carries the `callsite_node_id` of the site under the same name.

Result: `replay_safe_iff`, writing the rows again changes nothing and distinct rows have distinct
edges exactly when every row that matches has equal keys.
-/

namespace CortexHarness.Evidence

open Json Table Upserts

variable (rt : Runtime)

/-- A value as Cypher compares it: equal numbers are one value, null and NaN equal nothing. -/
inductive GraphKey where
  | bool (b : Bool)
  | int (n : Int)
  | float (repr : String)
  | str (s : String)
  deriving Repr, DecidableEq

/-- What an id is compared by. The callee of a strict row is hashable, so no list or map. -/
def graphKey : Json → Option GraphKey
  | .bool b => some (.bool b)
  | .int n => some (.int n)
  | .float repr =>
    if repr = "nan" then none
    else match rt.floatInt repr with
      | some n => some (.int n)
      | none => some (.float repr)
  | .str s => some (.str s)
  | _ => none

/-- A `Function` node. -/
structure FunctionNode where
  id : Json
  projectIdNormalized : Option String

/-- The properties of an edge, null where it has none. -/
abbrev Props := String → Json

/-- A `CALLS` edge between two Functions. -/
abbrev CallEdge := Edge (Nat × Nat) Props

/-- `project_id_lookup_key` of a text. -/
def projectIdLookupKey (project : String) : Option String :=
  if strip project = "" then none else some (rt.casefold (strip project))

/-- `row["project_id_normalized"]`; a row without one is refused, and would match no node. -/
def scopeKey (row : StrictCallRow) : Option String :=
  (text? (field row.props "project_id")).bind (projectIdLookupKey rt)

/-- `row["props"]`, as `_require_call_project_scope` leaves it. -/
def scopedProps (row : StrictCallRow) (key : String) : Row :=
  put (put row.props "project_id" (.str (strip ((text? (field row.props "project_id")).getD ""))))
    "project_id_normalized" (.str key)

/-- `MATCH (n:Function {id: id, project_id_normalized: key})`. -/
def matched (functions : List FunctionNode) (id : Json) (key : String) : List Nat :=
  (List.range functions.length).filter fun n =>
    match functions[n]? with
    | some f => (graphKey rt id).isSome && graphKey rt f.id = graphKey rt id &&
        f.projectIdNormalized = some key
    | none => false

/-- `edge.site_id`, where it is a text. -/
def siteLabel (props : Props) : Option String := text? (props "site_id")

/-- `MERGE (caller)-[edge:CALLS {site_id: row.site_id}]->(callee) SET edge += row.props`. -/
def mergeEdge (siteId : String) (props : Row) (caller callee : Nat) :
    Upsert (Nat × Nat) String Props :=
  { ends := (caller, callee)
    key := siteId
    fresh := fun k => if k = "site_id" then .str siteId else .null
    write := fun p k => (find? props k).getD (p k) }

/-- What one row of the mutation merges: an edge for each pair of matches. -/
def rowUpserts (functions : List FunctionNode) (row : StrictCallRow) :
    List (Upsert (Nat × Nat) String Props) :=
  match scopeKey rt row with
  | none => []
  | some key =>
    (matched rt functions (.str row.callerId) key).flatMap fun caller =>
      (matched rt functions row.calleeId key).map fun callee =>
        mergeEdge row.siteId (scopedProps row key) caller callee

/-- What the mutation merges, row by row. -/
def upserts (functions : List FunctionNode) (rows : List StrictCallRow) :
    List (Upsert (Nat × Nat) String Props) := rows.flatMap (rowUpserts rt functions)

/-- The `CALLS` edges after the mutation. -/
def executeCallSites (functions : List FunctionNode) (edges : List CallEdge)
    (rows : List StrictCallRow) : List CallEdge :=
  Upserts.run siteLabel edges (upserts rt functions rows)

/-- Both endpoint ids of the row can match a Function. -/
def Matchable (row : StrictCallRow) : Prop :=
  (scopeKey rt row).isSome ∧ (graphKey rt row.calleeId).isSome

/-- There is exactly one Function for each endpoint id of the rows. -/
def Covers (functions : List FunctionNode) (rows : List StrictCallRow) : Prop :=
  ∀ row ∈ rows, ∀ key, scopeKey rt row = some key →
    (matched rt functions (.str row.callerId) key).length = 1 ∧
      ((graphKey rt row.calleeId).isSome →
        (matched rt functions row.calleeId key).length = 1)

/-- Executing the mutation twice leaves the edges of executing it once, and no edge is merged by two
rows. -/
structure ReplaySafe (functions : List FunctionNode) (edges : List CallEdge)
    (rows : List StrictCallRow) : Prop where
  idempotent : executeCallSites rt functions (executeCallSites rt functions edges rows) rows =
    executeCallSites rt functions edges rows
  distinct : Upserts.Disjoint siteLabel edges (upserts rt functions rows)

/-! ## The upserts of the rows -/

variable {rt} {functions : List FunctionNode} {row : StrictCallRow}

theorem find?_of_field {props : Row} {k s : String} (h : field props k = .str s) :
    find? props k = some (.str s) := by
  unfold field at h
  cases hf : find? props k with
  | none =>
    rw [hf] at h
    cases h
  | some v =>
    rw [hf] at h
    exact congrArg some h

theorem scopedProps_site (row : StrictCallRow) (key : String) :
    field (scopedProps row key) "site_id" = field row.props "site_id" := by
  unfold scopedProps
  rw [field_put, if_neg (by decide), field_put, if_neg (by decide)]

/-- An edge merged from a property map stores the `site_id` of the map. -/
theorem mergeEdge_stores {siteId s : String} {props : Row} {caller callee : Nat}
    (h : field props "site_id" = .str s) :
    Stores siteLabel (mergeEdge siteId props caller callee) s := by
  constructor
  · intro p
    show text? ((find? props "site_id").getD (p "site_id")) = some s
    rw [find?_of_field h]
    rfl
  · intro p
    funext k
    show (find? props k).getD ((find? props k).getD (p k)) = (find? props k).getD (p k)
    cases find? props k with
    | none => rfl
    | some v => rfl

/-- A value that matches no node. -/
theorem matched_none {id : Json} {key : String} (h : (graphKey rt id).isSome = false) :
    matched rt functions id key = [] := by
  unfold matched
  refine List.filter_eq_nil_iff.mpr fun n _ => ?_
  rw [h]
  cases functions[n]? <;> simp

/-- A row that matches merges one edge; the others merge none. -/
theorem rowUpserts_of_covers {rows : List StrictCallRow} (hc : Covers rt functions rows)
    (hrow : row ∈ rows) {s : String} (hs : field row.props "site_id" = .str s) :
    (Matchable rt row ∧ ∃ u, rowUpserts rt functions row = [u] ∧ u.key = row.siteId ∧
        Stores siteLabel u s) ∨
      (¬ Matchable rt row ∧ rowUpserts rt functions row = []) := by
  unfold Matchable rowUpserts
  cases hk : scopeKey rt row with
  | none => exact .inr ⟨by simp, rfl⟩
  | some key =>
    obtain ⟨hcaller, hcallee⟩ := hc row hrow key hk
    obtain ⟨caller, hcaller⟩ := List.length_eq_one_iff.mp hcaller
    by_cases hg : (graphKey rt row.calleeId).isSome = true
    · obtain ⟨callee, hcallee⟩ := List.length_eq_one_iff.mp (hcallee hg)
      refine .inl ⟨⟨rfl, hg⟩, mergeEdge row.siteId (scopedProps row key) caller callee, ?_, rfl, ?_⟩
      · simp [hcaller, hcallee]
      · exact mergeEdge_stores (by rw [scopedProps_site, hs])
    · refine .inr ⟨fun hm => hg hm.2, ?_⟩
      simp [matched_none (by simpa using hg)]

/-- The label that an upsert stores. -/
def storedLabel (u : Upsert (Nat × Nat) String Props) : String :=
  (siteLabel (u.write fun _ => .null)).getD ""

theorem storedLabel_eq {u : Upsert (Nat × Nat) String Props} {s : String}
    (h : Stores siteLabel u s) : storedLabel u = s := by
  unfold storedLabel
  rw [h.labels]
  rfl

/-- Every row carries the `site_id` of its site, and no two rows carry the same. -/
structure NamesSites (rows : List StrictCallRow) : Prop where
  named : ∀ row ∈ rows, ∃ s, field row.props "site_id" = .str s
  unique : (rows.map fun row => field row.props "site_id").Nodup

theorem NamesSites.tail {rows : List StrictCallRow} (h : NamesSites (row :: rows)) :
    NamesSites rows :=
  ⟨fun r hr => h.named r (List.mem_cons_of_mem _ hr), (List.nodup_cons.mp h.unique).2⟩

theorem upserts_stores {rows : List StrictCallRow} (hn : NamesSites rows)
    (hc : Covers rt functions rows) : ∀ u ∈ upserts rt functions rows,
      ∃ row ∈ rows, Matchable rt row ∧ rowUpserts rt functions row = [u] ∧ u.key = row.siteId ∧
        field row.props "site_id" = .str (storedLabel u) ∧ Stores siteLabel u (storedLabel u) := by
  intro u hu
  obtain ⟨row, hrow, hu⟩ := List.mem_flatMap.mp hu
  obtain ⟨s, hs⟩ := hn.named row hrow
  rcases rowUpserts_of_covers hc hrow hs with ⟨hm, v, hv, hkey, hstores⟩ | ⟨-, hnone⟩
  · rw [hv] at hu
    cases List.mem_singleton.mp hu
    have hlabel := storedLabel_eq hstores
    exact ⟨row, hrow, hm, hv, hkey, by rw [hs, hlabel], by rw [hlabel]; exact hstores⟩
  · rw [hnone] at hu
    cases hu

theorem upserts_unique {rows : List StrictCallRow} (hn : NamesSites rows)
    (hc : Covers rt functions rows) : ((upserts rt functions rows).map storedLabel).Nodup := by
  induction rows with
  | nil => exact List.nodup_nil
  | cons row rows ih =>
    have hc' : Covers rt functions rows := fun r hr => hc r (List.mem_cons_of_mem _ hr)
    have hrest := ih hn.tail hc'
    obtain ⟨s, hs⟩ := hn.named row List.mem_cons_self
    unfold upserts at hrest ⊢
    rw [List.flatMap_cons]
    rcases rowUpserts_of_covers hc List.mem_cons_self hs with ⟨-, u, hu, -, hstores⟩ | ⟨-, hnone⟩
    · rw [hu, List.singleton_append, List.map_cons]
      refine List.nodup_cons.mpr ⟨fun hmem => ?_, hrest⟩
      obtain ⟨v, hv, he⟩ := List.mem_map.mp hmem
      obtain ⟨r, hr, -, -, -, hf, -⟩ := upserts_stores hn.tail hc' v hv
      rw [he, storedLabel_eq hstores, ← hs] at hf
      exact (List.nodup_cons.mp hn.unique).1 (List.mem_map.mpr ⟨r, hr, hf⟩)
    · rw [hnone, List.nil_append]
      exact hrest

theorem merge_namesSites {observations configurations : List Row} {coverage : List Coverage}
    {projectId : String} {r : EvidenceMergeResult}
    (h : mergeCallEvidence rt observations coverage configurations projectId = .ok r) :
    NamesSites r.strictCallRows := by
  obtain ⟨m, hf, -, hrows, -⟩ := merge_filed h
  obtain ⟨hr, -⟩ := strict_rows_eq hrows
  rw [hr]
  refine ⟨fun row hrow => ?_, strict_unique hf⟩
  obtain ⟨site, -, hsite⟩ := List.mem_filterMap.mp hrow
  exact ⟨_, siteRow_site hsite⟩

/-- Rows that name their sites are replayed safely exactly when each row that matches is keyed by
the `site_id` that its property map stores. -/
theorem NamesSites.replay_iff {rows : List StrictCallRow} (hn : NamesSites rows)
    (hc : Covers rt functions rows) (edges : List CallEdge) :
    ReplaySafe rt functions edges rows ↔
      ∀ row ∈ rows, Matchable rt row → field row.props "site_id" = .str row.siteId := by
  have hlawful : Lawful siteLabel storedLabel (upserts rt functions rows) := by
    intro u hu
    obtain ⟨row, -, -, -, -, -, hs⟩ := upserts_stores hn hc u hu
    exact hs
  have hreplay := Upserts.replay_iff hlawful (upserts_unique hn hc) edges
  have hkeys : (∀ u ∈ upserts rt functions rows, storedLabel u = u.key) ↔
      ∀ row ∈ rows, Matchable rt row → field row.props "site_id" = .str row.siteId := by
    constructor
    · intro hall row hrow hm
      obtain ⟨s, hs⟩ := hn.named row hrow
      rcases rowUpserts_of_covers hc hrow hs with ⟨-, u, hu, hkey, hstores⟩ | ⟨hno, -⟩
      · have hmem : u ∈ upserts rt functions rows :=
          List.mem_flatMap.mpr ⟨row, hrow, by rw [hu]; exact List.mem_singleton_self u⟩
        rw [hs, ← hkey, ← hall u hmem, storedLabel_eq hstores]
      · exact absurd hm hno
    · intro hall u hu
      obtain ⟨row, hrow, hm, -, hkey, hf, -⟩ := upserts_stores hn hc u hu
      rw [hall row hrow hm] at hf
      rw [hkey]
      exact (Json.str.inj hf).symm
  constructor
  · intro hsafe
    exact hkeys.mp (hreplay.mp ⟨hsafe.idempotent, hsafe.distinct⟩)
  · intro hall
    obtain ⟨hidem, hdis⟩ := hreplay.mpr (hkeys.mpr hall)
    exact ⟨hidem, hdis⟩

/-- **Replay of the strict rows** of a merge. -/
theorem replay_safe_iff {observations configurations : List Row} {coverage : List Coverage}
    {projectId : String} {r : EvidenceMergeResult}
    (h : mergeCallEvidence rt observations coverage configurations projectId = .ok r)
    (hc : Covers rt functions r.strictCallRows) (edges : List CallEdge) :
    ReplaySafe rt functions edges r.strictCallRows ↔
      ∀ row ∈ r.strictCallRows, Matchable rt row → field row.props "site_id" = .str row.siteId :=
  (merge_namesSites h).replay_iff hc edges

/-- The two Functions of the sample call. -/
def sampleFunctions : List FunctionNode :=
  [{ id := .str "f1", projectIdNormalized := some "p" },
    { id := .str "f2", projectIdNormalized := some "p" }]

theorem sample_row :
    ∃ r row, mergeCallEvidence sampleRuntime [sampleSemantic "f1" "a.c"] [] [] "p" = .ok r ∧
      r.strictCallRows = [row] ∧ row.callerId = "f1" ∧ row.calleeId = .str "f2" ∧
      row.siteId = "f1:f2:a.c:3:5:call" ∧ field row.props "site_id" = .str "f1:a.c:3:5:call" ∧
      field row.props "project_id" = .str "p" :=
  ⟨_, _, rfl, rfl, rfl, rfl, rfl, rfl, rfl⟩

theorem sample_strict :
    ∃ r row, mergeCallEvidence sampleRuntime [sampleSemantic "f1" "a.c"] [] [] "p" = .ok r ∧
      r.strictCallRows = [row] ∧ Covers sampleRuntime sampleFunctions r.strictCallRows ∧
      Matchable sampleRuntime row ∧ field row.props "site_id" ≠ .str row.siteId := by
  obtain ⟨r, row, hr, hrows, hcaller, hcallee, hsite, hnode, hproject⟩ := sample_row
  have hkey : scopeKey sampleRuntime row = some "p" := by
    unfold scopeKey
    rw [hproject]
    decide
  refine ⟨r, row, hr, hrows, ?_, ?_, ?_⟩
  · rw [hrows]
    intro row' hrow' key hk
    cases List.mem_singleton.mp hrow'
    cases hkey.symm.trans hk
    rw [hcaller, hcallee]
    decide
  · unfold Matchable
    rw [hkey, hcallee]
    decide
  · rw [hnode, hsite]
    intro he
    exact absurd (Json.str.inj he) (by decide)

/-- The sample row is written again as a second edge. -/
theorem replay_safe_sample :
    ∃ r, mergeCallEvidence sampleRuntime [sampleSemantic "f1" "a.c"] [] [] "p" = .ok r ∧
      Covers sampleRuntime sampleFunctions r.strictCallRows ∧
      ¬ ReplaySafe sampleRuntime sampleFunctions [] r.strictCallRows := by
  obtain ⟨r, row, hr, hrows, hc, hm, hne⟩ := sample_strict
  refine ⟨r, hr, hc, fun hsafe => hne ?_⟩
  refine (replay_safe_iff hr hc []).mp hsafe row ?_ hm
  rw [hrows]
  exact List.mem_singleton_self row

/-- **A strict row is not found again**: the property map replaces the `site_id` that the edge was
matched by, so the second execution creates another edge. -/
theorem replay_duplicates_edge :
    ¬ ∀ (rt : Runtime) (observations configurations : List Row) (coverage : List Coverage)
      (projectId : String) (r : EvidenceMergeResult) (functions : List FunctionNode)
      (edges : List CallEdge),
      mergeCallEvidence rt observations coverage configurations projectId = .ok r →
      Covers rt functions r.strictCallRows → ReplaySafe rt functions edges r.strictCallRows := by
  intro h
  obtain ⟨r, row, hr, hrows, hc, hm, hne⟩ := sample_strict
  have hsafe := h _ _ _ _ _ r sampleFunctions [] hr hc
  refine hne (((merge_namesSites hr).replay_iff hc []).mp hsafe row ?_ hm)
  rw [hrows]
  exact List.mem_singleton_self row

end CortexHarness.Evidence
