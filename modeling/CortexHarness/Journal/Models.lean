import CortexHarness.Library.Python
import Mathlib.Data.List.Dedup
import Mathlib.Tactic.DeriveFintype

/-!
# The contracts of the graph-write journal

Model of `code-tiny/tools/graph/journal/models.py` and of the rows of the v3 schema
(`_schema_statements`, `sqlite_store.py:372-561`).

* An enumeration is an inductive type; `«open»` is a Lean keyword, so `OPEN` is `opened`.
* A timestamp is a number of microseconds (`Time`). `_iso` prints UTC timestamps at a fixed width,
  so the text comparisons of the SQL are the comparisons of the instants.
* `BatchSpec` carries what `__post_init__` checks, so a spec the constructor refuses cannot be
  built.
* A batch row is its immutable columns (`BatchCore`) with the columns the operations rewrite.
* `Barrier` carries the schema's `CHECK (drained_count <= produced_count)`.

Left out: `updated_at` of batches, barriers, manifests and producers, `completed_at`, and the
timestamps of artifacts and manifests, which no operation reads; `project_id`, `scope_id`,
`physical_target` and `parser` of a run row, which are columns of its metadata.
-/

namespace CortexHarness.Journal

/-- An instant, in microseconds. -/
abbrev Time := Int

/-- `timedelta(seconds=n)`. -/
def seconds (n : Int) : Time := n * 1000000

inductive RunStatus where
  | opened | draining | drained | blocked | deadLettered | quarantined | failed
  deriving Repr, DecidableEq

inductive BatchStatus where
  | pending | leased | reconciling | retryWait | done | blocked | deadLetter
  deriving Repr, DecidableEq

inductive OperationPhase where
  | nodes | relationships | calls | custom
  deriving Repr, DecidableEq

inductive BarrierStatus where
  | opened | produced | drained
  deriving Repr, DecidableEq

inductive ProducerStatus where
  | opened | complete
  deriving Repr, DecidableEq

inductive ManifestDisposition where
  | stagedUnique | declaredDuplicate | conflict | rejected
  deriving Repr, DecidableEq

inductive EndpointAuditStatus where
  | sealed
  deriving Repr, DecidableEq

inductive RetryClass where
  | transient | ambiguous | integrity | incompatible | terminal
  deriving Repr, DecidableEq

inductive TerminalErrorCode where
  | incompatibleSchema | journalCorrupt | diskFull | unsafePlacement | permissionDenied
  | artifactHashMismatch | admissionRejected | invalidTransition | staleFence | maxAttempts
  | invalidContract
  deriving Repr, DecidableEq

/-- The `event_type` texts. -/
inductive EventType where
  | runOpened | runResumed | runQuarantined | runPurgeStarted
  | batchEnqueued | batchManifestRejected | batchLeased | batchReconciliationLeased
  | batchAcked | batchReconciling | retryScheduled | reconciliationRetryScheduled
  | batchDeadLettered | batchBlocked | barrierReached | producersCompleted | queueDrained
  | leaseRecoveredAsAmbiguous | reconciliationOwnershipRecovered | reconciliationRecovered
  deriving Repr, DecidableEq

/-- `OperationPhase.value`. -/
def OperationPhase.value : OperationPhase → String
  | .nodes => "nodes"
  | .relationships => "relationships"
  | .calls => "calls"
  | .custom => "custom"

/-- `BatchStatus.value`. -/
def BatchStatus.value : BatchStatus → String
  | .pending => "pending"
  | .leased => "leased"
  | .reconciling => "reconciling"
  | .retryWait => "retry_wait"
  | .done => "done"
  | .blocked => "blocked"
  | .deadLetter => "dead_letter"

/-- `ManifestDisposition.value`. -/
def ManifestDisposition.value : ManifestDisposition → String
  | .stagedUnique => "staged_unique"
  | .declaredDuplicate => "declared_duplicate"
  | .conflict => "conflict"
  | .rejected => "rejected"

/-- The two active statuses, `_ACTIVE_RUN_STATUSES`. -/
def RunStatus.active : RunStatus → Bool
  | .opened | .draining => true
  | _ => false

/-- What an operation raises: a `JournalError`, or the `ValueError` of an argument check. -/
inductive Failure where
  | journal (code : TerminalErrorCode) (message : String) (details : List (String × Json))
  | value (message : String)
  deriving Repr

/-- `StaleFenceError`. -/
def staleFence (jobId : String) : Failure :=
  .journal .staleFence ("batch " ++ jobId ++ " is not owned by the supplied fencing token")
    [("job_id", .str jobId)]

/-- `_translate_sqlite_error` of a constraint violation inside a transaction. -/
def integrityError (constraint : String) : Failure :=
  .journal .invalidContract ("journal transaction failed: " ++ constraint) []

/-- `RunMetadata`. -/
structure RunMetadata where
  projectId : String
  scopeId : String
  sourceRevision : String
  sourceSnapshot : String
  physicalTarget : String
  generation : String
  parser : String
  parserVersion : String
  schemaFingerprint : String
  queryShapeVersion : String
  operationVersions : List (String × Int) := []
  contractVersion : Int := 1
  deriving Repr, DecidableEq

/-- `RunMetadata.to_dict`. -/
def RunMetadata.toDict (m : RunMetadata) : Json :=
  .obj [("project_id", .str m.projectId), ("scope_id", .str m.scopeId),
    ("source_revision", .str m.sourceRevision), ("source_snapshot", .str m.sourceSnapshot),
    ("physical_target", .str m.physicalTarget), ("generation", .str m.generation),
    ("parser", .str m.parser), ("parser_version", .str m.parserVersion),
    ("schema_fingerprint", .str m.schemaFingerprint),
    ("query_shape_version", .str m.queryShapeVersion),
    ("operation_versions", .obj (m.operationVersions.map fun v => (v.1, .int v.2))),
    ("contract_version", .int m.contractVersion)]

/-- The four columns that name the lane of a run. -/
structure Lane where
  projectId : String
  scopeId : String
  physicalTarget : String
  parser : String
  deriving Repr, DecidableEq

def RunMetadata.lane (m : RunMetadata) : Lane :=
  ⟨m.projectId, m.scopeId, m.physicalTarget, m.parser⟩

/-- `ArtifactRef`. -/
structure ArtifactRef where
  sha256 : String
  relativePath : String
  byteCount : Nat
  rowCount : Nat
  deriving Repr, DecidableEq

/-- `tuple(sorted(set(names)))`. -/
def sortedSet (names : List String) : List String := names.dedup.insertionSort (· ≤ ·)

theorem nodup_sortedSet (names : List String) : (sortedSet names).Nodup :=
  (List.perm_insertionSort _ _).nodup_iff.mpr (List.nodup_dedup names)

theorem mem_sortedSet {names : List String} {n : String} : n ∈ sortedSet names ↔ n ∈ names := by
  rw [sortedSet, (List.perm_insertionSort _ _).mem_iff, List.mem_dedup]

/-- `BatchSpec`, with what `__post_init__` checks. -/
structure BatchSpec where
  phase : OperationPhase
  operationKey : String
  sequence : Nat
  artifact : ArtifactRef
  expectedCount : Nat
  requiredBarriers : List String := []
  producedBarriers : List String := []
  maxAttempts : Nat := 5
  operation : List (String × Json) := []
  operationKey_named : blank operationKey = false
  maxAttempts_pos : 0 < maxAttempts
  barriers_named : ∀ n ∈ requiredBarriers ++ producedBarriers, blank n = false
  barriers_disjoint : ∀ n ∈ requiredBarriers, n ∉ producedBarriers

/-- A row of `runs`. -/
structure Run where
  runId : String
  fingerprint : String
  metadata : RunMetadata
  status : RunStatus
  createdAt : Time
  updatedAt : Time
  retentionUntil : Time
  errorCode : Option TerminalErrorCode := none
  errorDetail : Option String := none
  deriving Repr

def Run.lane (r : Run) : Lane := r.metadata.lane

/-- A row of `artifacts`. -/
structure Artifact where
  runId : String
  sha256 : String
  relativePath : String
  byteCount : Nat
  rowCount : Nat
  refCount : Nat
  deriving Repr, DecidableEq

/-- The columns of `batches` that no operation rewrites. -/
structure BatchCore where
  jobId : String
  runId : String
  phase : OperationPhase
  operationKey : String
  sequence : Nat
  artifact : ArtifactRef
  expectedCount : Nat
  maxAttempts : Nat
  requiredBarriers : List String
  producedBarriers : List String
  operation : List (String × Json)
  createdAt : Time
  deriving Repr

/-- A row of `batches`. -/
structure Batch extends BatchCore where
  status : BatchStatus := .pending
  attempt : Nat := 0
  fencingToken : Option String := none
  leaseUntil : Option Time := none
  nextAttemptAt : Option Time := none
  retryClass : Option RetryClass := none
  errorCode : Option TerminalErrorCode := none
  errorDetail : Option String := none
  deriving Repr

/-- `LEASED` or `RECONCILING`: the statuses an owner can leave with its token. -/
def BatchStatus.held : BatchStatus → Bool
  | .leased | .reconciling => true
  | _ => false

/-- `PENDING` or `RETRY_WAIT`: the statuses `claim_batch` and `claim_job` lease from. -/
def BatchStatus.executable : BatchStatus → Bool
  | .pending | .retryWait => true
  | _ => false

/-- `DONE`, `BLOCKED` or `DEAD_LETTER`. -/
def BatchStatus.final : BatchStatus → Bool
  | .done | .blocked | .deadLetter => true
  | _ => false

/-- A row of `barriers`. -/
structure Barrier where
  runId : String
  name : String
  status : BarrierStatus
  producedCount : Nat
  drainedCount : Nat
  closedAt : Option Time := none
  drained_le : drainedCount ≤ producedCount
  deriving Repr

/-- The counters `staged`, `duplicate`, `conflict`, `rejected` and `emitted` of one manifest
kind, five columns of `producer_completion`. -/
structure ManifestCounts where
  emitted : Nat := 0
  unique : Nat := 0
  duplicate : Nat := 0
  conflict : Nat := 0
  rejected : Nat := 0
  deriving Repr, DecidableEq

/-- A row of `producer_completion`. -/
structure Producer where
  runId : String
  producerId : String
  status : ProducerStatus
  node : ManifestCounts := {}
  edge : ManifestCounts := {}
  deriving Repr, DecidableEq

/-- `node` or `edge`: which manifest table a candidate goes to. -/
inductive ManifestKind where
  | node | edge
  deriving Repr, DecidableEq

/-- The identity columns of a manifest row. `shape` is `node_label` or `relationship_type`; the
edge table has no `identity_property` column, and an edge row carries the empty text there. -/
structure ManifestIdentity where
  scope : String
  shape : String
  identityProperty : String
  identityType : String
  identityJson : String
  deriving Repr, DecidableEq

/-- A row of `node_manifest` or `edge_manifest`. -/
structure ManifestRow where
  runId : String
  manifestId : String
  jobId : String
  producerId : String
  rowOrdinal : Nat
  identity : ManifestIdentity
  payloadDigest : String
  disposition : ManifestDisposition
  acked : Bool := false
  graphVerified : Bool := false
  deriving Repr, DecidableEq

/-- The `role` of an endpoint. -/
inductive EndpointRole where
  | source | target
  deriving Repr, DecidableEq

/-- A row of `edge_endpoint`; `required` keeps its default `1`. -/
structure EdgeEndpoint where
  runId : String
  edgeManifestId : String
  role : EndpointRole
  scope : String
  nodeLabel : String
  identityProperty : String
  identityType : String
  identityJson : String
  deriving Repr, DecidableEq

/-- A row of `endpoint_audit`. -/
structure EndpointAudit where
  runId : String
  status : EndpointAuditStatus
  manifestDigest : String
  receiptCount : Nat
  sealedAt : Time
  deriving Repr, DecidableEq

/-- A row of `events`; `event_id` is the position in the table. -/
structure Event where
  runId : String
  eventType : EventType
  jobId : Option String := none
  counters : List (String × Nat) := []
  attempt : Option Nat := none
  elapsedMs : Option Int := none
  errorCode : Option TerminalErrorCode := none
  createdAt : Time
  deriving Repr, DecidableEq

/-- `JournalLimits`. -/
structure JournalLimits where
  maxBatchesPerRun : Nat := 100000
  maxPayloadBytesPerRun : Nat := 4 * 1024 * 1024 * 1024
  minFreeBytes : Nat := 512 * 1024 * 1024
  retentionSeconds : Nat := 7 * 24 * 60 * 60
  deriving Repr, DecidableEq

end CortexHarness.Journal
