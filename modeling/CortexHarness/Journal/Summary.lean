import CortexHarness.Journal.Consumption

/-!
# Conservation summary, endpoint audit and purge

Model of `conservation_summary`, `_validate_endpoint_audit_boundary_locked`, `seal_endpoint_audit`,
`endpoint_audit_status` and the two transactions of `purge_run` (`sqlite_store.py:2292-2541,
2944-3011`).
-/

namespace CortexHarness.Journal

open Table

variable (cfg : Config)

/-! ## Totals -/

/-- `totals(table)` of `conservation_summary`. -/
structure Totals where
  emitted : Nat
  stagedUnique : Nat
  declaredDuplicate : Nat
  conflict : Nat
  rejected : Nat
  acked : Nat
  graphVerified : Nat
  deriving Repr, DecidableEq

/-- `SUM(CASE WHEN disposition = d THEN 1 ELSE 0 END)` over the rows of a run. -/
def dispositionCount (rows : List ManifestRow) (runId : String) (d : ManifestDisposition) : Nat :=
  rows.countP fun m => m.runId == runId && m.disposition == d

def totals (rows : List ManifestRow) (runId : String) : Totals :=
  { emitted := rows.countP fun m => m.runId == runId
    stagedUnique := dispositionCount rows runId .stagedUnique
    declaredDuplicate := dispositionCount rows runId .declaredDuplicate
    conflict := dispositionCount rows runId .conflict
    rejected := dispositionCount rows runId .rejected
    acked := rows.countP fun m => m.runId == runId && m.acked
    graphVerified := rows.countP fun m => m.runId == runId && m.graphVerified }

/-- `emitted == staged_unique + declared_duplicate + conflict + rejected`. -/
def Totals.classified (t : Totals) : Bool :=
  t.emitted == t.stagedUnique + t.declaredDuplicate + t.conflict + t.rejected

/-- The `conserved` entry of `totals`. -/
def Totals.conserved (t : Totals) : Bool :=
  t.classified && t.stagedUnique == t.acked && t.acked == t.graphVerified

/-! ## Digests -/

/-- `ORDER BY` of the node rows: scope, label, property, type, identity, digest, manifest id. -/
def ManifestRow.nodeOrder (m : ManifestRow) : List String :=
  [m.identity.scope, m.identity.shape, m.identity.identityProperty, m.identity.identityType,
    m.identity.identityJson, m.payloadDigest, m.manifestId]

/-- One row of `manifest_rows`. -/
def ManifestRow.nodeDict (m : ManifestRow) : Json :=
  .obj [("scope", .str m.identity.scope), ("node_label", .str m.identity.shape),
    ("identity_property", .str m.identity.identityProperty),
    ("identity_type", .str m.identity.identityType),
    ("identity_json", .str m.identity.identityJson), ("payload_digest", .str m.payloadDigest),
    ("disposition", .str m.disposition.value)]

/-- `node_manifest_digest`. -/
def nodeManifestDigest (s : SQLiteJournal) (runId : String) : String :=
  let rows := (s.nodeManifest.filter fun m => m.runId == runId).insertionSort fun a b =>
    a.nodeOrder ≤ b.nodeOrder
  cfg.python.sha256Hex (Json.dumps (.arr (rows.map ManifestRow.nodeDict)))

/-- The columns of an edge row that `endpoint_manifest_digest` covers. -/
structure EdgeColumns where
  manifestId : String
  jobId : String
  producerId : String
  rowOrdinal : Nat
  identity : ManifestIdentity
  payloadDigest : String
  disposition : ManifestDisposition
  deriving Repr, DecidableEq

def ManifestRow.edgeColumns (m : ManifestRow) : EdgeColumns :=
  ⟨m.manifestId, m.jobId, m.producerId, m.rowOrdinal, m.identity, m.payloadDigest, m.disposition⟩

/-- The covered columns of the edge rows of a run. -/
def edgeRows (s : SQLiteJournal) (runId : String) : List EdgeColumns :=
  (s.edgeManifest.filter fun m => m.runId == runId).map ManifestRow.edgeColumns

/-- The endpoint rows of a run. -/
def endpointRows (s : SQLiteJournal) (runId : String) : List EdgeEndpoint :=
  s.edgeEndpoints.filter fun e => e.runId == runId

def EndpointRole.value : EndpointRole → String
  | .source => "source"
  | .target => "target"

/-- One edge row joined with its endpoints; `LEFT JOIN` keeps an edge without any. -/
def joinEndpoints (endpoints : List EdgeEndpoint) (m : EdgeColumns) :
    List (EdgeColumns × Option EdgeEndpoint) :=
  match endpoints.filter fun e => e.edgeManifestId == m.manifestId with
  | [] => [(m, none)]
  | es => es.map fun e => (m, some e)

/-- `ORDER BY em.manifest_id, ep.role`. -/
def joinOrder (row : EdgeColumns × Option EdgeEndpoint) : List String :=
  [row.1.manifestId, (row.2.map fun e => e.role.value).getD ""]

/-- One row of `edge_endpoint_rows`. -/
def joinDict (row : EdgeColumns × Option EdgeEndpoint) : Json :=
  let endpoint (f : EdgeEndpoint → Json) : Json := (row.2.map f).getD .null
  .obj [("manifest_id", .str row.1.manifestId), ("job_id", .str row.1.jobId),
    ("producer_id", .str row.1.producerId), ("row_ordinal", .int row.1.rowOrdinal),
    ("scope", .str row.1.identity.scope), ("relationship_type", .str row.1.identity.shape),
    ("identity_type", .str row.1.identity.identityType),
    ("identity_json", .str row.1.identity.identityJson),
    ("payload_digest", .str row.1.payloadDigest), ("disposition", .str row.1.disposition.value),
    ("role", endpoint fun e => .str e.role.value), ("endpoint_scope", endpoint fun e => .str e.scope),
    ("node_label", endpoint fun e => .str e.nodeLabel),
    ("identity_property", endpoint fun e => .str e.identityProperty),
    ("endpoint_identity_type", endpoint fun e => .str e.identityType),
    ("endpoint_identity_json", endpoint fun e => .str e.identityJson),
    ("required", endpoint fun _ => .int 1)]

/-- The text `endpoint_manifest_digest` hashes, from the covered columns. -/
def endpointManifestText (edges : List EdgeColumns) (endpoints : List EdgeEndpoint) : String :=
  let rows := (edges.flatMap (joinEndpoints endpoints)).insertionSort fun a b =>
    joinOrder a ≤ joinOrder b
  Json.dumps (.arr (rows.map joinDict))

/-- `endpoint_manifest_digest`. -/
def endpointManifestDigest (s : SQLiteJournal) (runId : String) : String :=
  cfg.python.sha256Hex (endpointManifestText (edgeRows s runId) (endpointRows s runId))

/-! ## The summary -/

/-- The registered producers of a run, the marker apart. -/
def registeredProducer (runId : String) (p : Producer) : Bool :=
  p.runId == runId && p.producerId != producersCompleteId

/-- `v3_eligible`. -/
def v3Eligible (s : SQLiteJournal) (runId : String) : Bool :=
  match s.getRun runId with
  | some run => !(run.status == .quarantined && run.errorCode == some .incompatibleSchema)
  | none => false

/-- What `conservation_summary` returns. -/
structure ConservationSummary where
  node : Totals
  edge : Totals
  producersTotal : Nat
  producersOpen : Nat
  nodeManifestDigest : String
  endpointManifestDigest : String
  auditableEdgeRows : Nat
  v3Eligible : Bool
  conserved : Bool
  deriving Repr, DecidableEq

/-- `conservation_summary`. -/
def conservationSummary (s : SQLiteJournal) (runId : String) : ConservationSummary :=
  let node := totals s.nodeManifest runId
  let edge := totals s.edgeManifest runId
  { node, edge
    producersTotal := s.producers.countP (registeredProducer runId)
    producersOpen := s.producers.countP fun p => registeredProducer runId p && p.status == .opened
    nodeManifestDigest := nodeManifestDigest cfg s runId
    endpointManifestDigest := endpointManifestDigest cfg s runId
    auditableEdgeRows := edge.emitted
    v3Eligible := v3Eligible s runId
    conserved := v3Eligible s runId && node.conserved && edge.conserved }

/-! ## The endpoint audit -/

/-- `_validate_endpoint_audit_boundary_locked`. -/
def validateAuditBoundary (s : SQLiteJournal) (runId : String) (sealedAudit : Option EndpointAudit) :
    Except Failure ConservationSummary :=
  let summary := conservationSummary cfg s runId
  if s.productionComplete runId = false ∨ summary.producersOpen ≠ 0 then
    .error (.journal .invalidTransition
      "endpoint audit requires the durable producer-completion boundary" [])
  else if summary.v3Eligible = false ∨ summary.node.conserved = false ∨
      summary.edge.classified = false ∨ summary.node.conflict ≠ 0 ∨ summary.node.rejected ≠ 0 ∨
      summary.edge.conflict ≠ 0 ∨ summary.edge.rejected ≠ 0 then
    .error (.journal .invalidContract
      "endpoint audit cannot seal an ineligible or unconserved manifest" [])
  else if (sealedAudit.any fun a => a.manifestDigest != summary.endpointManifestDigest ||
      a.receiptCount != summary.auditableEdgeRows) = true then
    .error (.journal .invalidContract
      "sealed endpoint audit no longer matches the durable edge manifest" [("run_id", .str runId)])
  else .ok summary

/-- `EndpointAuditStatus.value`. -/
def EndpointAuditStatus.value : EndpointAuditStatus → String
  | .sealed => "sealed"

/-- `seal_endpoint_audit`. -/
def sealEndpointAudit (s : SQLiteJournal) (runId : String) (manifestDigest : Option String)
    (receiptCount auditedRows : Option Int) (now : Time) : Except Failure (String × SQLiteJournal) :=
  if auditedRows.any (· < 0) then .error (.value "audited_rows must be non-negative")
  else if receiptCount.any (· < 0) then .error (.value "receipt_count must be non-negative")
  else
    match validateAuditBoundary cfg s runId (s.getAudit runId) with
    | .error e => .error e
    | .ok summary =>
      let suppliedCount := auditedRows.or receiptCount
      match s.getAudit runId with
      | some existing =>
        if manifestDigest.any (· != existing.manifestDigest) ∨
            suppliedCount.any (· != (existing.receiptCount : Int)) then
          .error (.journal .invalidContract "sealed endpoint audit is immutable" [])
        else .ok (existing.status.value, s)
      | none =>
        -- `manifest_digest or …`: an empty text counts as missing
        let resolvedDigest := (manifestDigest.filter (· != "")).getD summary.endpointManifestDigest
        let resolvedRows : Int := suppliedCount.getD summary.auditableEdgeRows
        if resolvedDigest ≠ summary.endpointManifestDigest then
          .error (.journal .invalidContract
            "endpoint audit digest does not match the durable edge/endpoint manifest" [])
        else if resolvedRows ≠ summary.auditableEdgeRows then
          .error (.journal .invalidContract
            "endpoint audit row count does not match staged edge rows" [])
        else
          .ok (EndpointAuditStatus.sealed.value,
            { s with endpointAudits := s.endpointAudits ++
              [⟨runId, .sealed, resolvedDigest, summary.auditableEdgeRows, now⟩] })

/-- `endpoint_audit_status`. -/
def endpointAuditStatus (s : SQLiteJournal) (runId : String) : Except Failure (Option String) :=
  match s.getAudit runId with
  | none => .ok none
  | some audit =>
    match validateAuditBoundary cfg s runId (some audit) with
    | .error e => .error e
    | .ok _ => .ok (some audit.status.value)

/-! ## Purge -/

/-- The first transaction of `purge_run`: the checks and the tombstone event. -/
def purgeRun (s : SQLiteJournal) (runId : String) (ownershipConfirmed : Bool) (now : Time) :
    Except Failure (List Artifact × SQLiteJournal) :=
  if ownershipConfirmed = false then
    .error (.journal .invalidTransition
      "journal purge requires the caller to hold the exact-scope ownership lock" [])
  else
    match s.getRun runId with
    | none => .ok ([], s)
    | some run =>
      if run.status.active then
        .error (.journal .invalidTransition "active journal runs cannot be purged" [])
      else if run.retentionUntil > now then
        .error (.journal .invalidTransition "journal retention period has not elapsed" [])
      else if s.batches.countP (fun b => b.runId == runId && b.fencingToken.isSome) ≠ 0 then
        .error (.journal .invalidTransition "fenced journal work cannot be purged" [])
      else
        let refs := s.artifacts.filter fun a => a.runId == runId
        if s.events.any fun e => e.runId == runId && e.eventType == .runPurgeStarted then
          .ok (refs, s)
        else
          .ok (refs, s.addEvent
            { runId, eventType := .runPurgeStarted, counters := [("artifacts", refs.length)],
              createdAt := now })

/-- The second transaction of `purge_run`: `DELETE FROM runs`, which cascades. -/
def deleteRun (s : SQLiteJournal) (runId : String) : SQLiteJournal :=
  { runs := s.runs.filter fun r => r.runId != runId
    artifacts := s.artifacts.filter fun a => a.runId != runId
    batches := s.batches.filter fun b => b.runId != runId
    barriers := s.barriers.filter fun b => b.runId != runId
    producers := s.producers.filter fun p => p.runId != runId
    nodeManifest := s.nodeManifest.filter fun m => m.runId != runId
    edgeManifest := s.edgeManifest.filter fun m => m.runId != runId
    edgeEndpoints := s.edgeEndpoints.filter fun e => e.runId != runId
    endpointAudits := s.endpointAudits.filter fun a => a.runId != runId
    events := s.events.filter fun e => e.runId != runId }

end CortexHarness.Journal
