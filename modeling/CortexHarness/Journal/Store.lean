import CortexHarness.Journal.Manifest
import CortexHarness.Library.Table

/-!
# The state of the journal

Model of the tables of `SQLiteJournal` and of the helpers every transaction uses
(`sqlite_store.py:784-876, 2175-2206, 2570-2620, 2671-2745`).

* `Journal` is the database: one list of rows per table, in insertion order.
* `Files` is what the artifact store reads from disk while an operation runs; it is an input of
  the operation, because files come and go outside the journal's transactions.
* `Config` holds the limits and the standard library.
-/

namespace CortexHarness.Journal

open Table

/-- `_PRODUCERS_COMPLETE_ID`. -/
def producersCompleteId : String := "__journal_all_producers_complete__"

/-- What is fixed for one journal: the standard library and `JournalLimits`. -/
structure Config where
  python : Python
  limits : JournalLimits := {}

/-- The database. -/
structure SQLiteJournal where
  runs : List Run := []
  artifacts : List Artifact := []
  batches : List Batch := []
  barriers : List Barrier := []
  producers : List Producer := []
  nodeManifest : List ManifestRow := []
  edgeManifest : List ManifestRow := []
  edgeEndpoints : List EdgeEndpoint := []
  endpointAudits : List EndpointAudit := []
  events : List Event := []
  deriving Repr

namespace SQLiteJournal

/-- An empty v3 journal. -/
def empty : SQLiteJournal := {}

variable (s : SQLiteJournal)

/-- `get_run`. -/
def getRun (runId : String) : Option Run := lookup Run.runId runId s.runs

/-- `get_batch`. -/
def getBatch (jobId : String) : Option Batch := lookup (fun b => b.jobId) jobId s.batches

/-- `get_barrier`. -/
def getBarrier (runId name : String) : Option Barrier :=
  lookup (fun b => (b.runId, b.name)) (runId, name) s.barriers

def getProducer (runId producerId : String) : Option Producer :=
  lookup (fun p => (p.runId, p.producerId)) (runId, producerId) s.producers

def getAudit (runId : String) : Option EndpointAudit :=
  lookup EndpointAudit.runId runId s.endpointAudits

def getArtifact (runId sha256 : String) : Option Artifact :=
  lookup (fun a => (a.runId, a.sha256)) (runId, sha256) s.artifacts

/-- The status of a run row. -/
def runStatus (runId : String) : Option RunStatus := (s.getRun runId).map Run.status

/-- The run of a batch is `OPEN` or `DRAINING`. -/
def runActive (runId : String) : Bool :=
  match s.runStatus runId with
  | some status => status.active
  | none => false

/-- The durable producer-completion boundary: a `COMPLETE` row under `_PRODUCERS_COMPLETE_ID`. -/
def productionComplete (runId : String) : Bool :=
  s.producers.any fun p =>
    p.runId == runId && p.producerId == producersCompleteId && p.status == .complete

/-- `NOT EXISTS (required barrier that is missing or not DRAINED)`. -/
def barriersDrained (b : Batch) : Bool :=
  b.requiredBarriers.all fun name =>
    match s.getBarrier b.runId name with
    | some barrier => barrier.status == .drained
    | none => false

/-- The batches of a run that are not `DONE`. -/
def pending (runId : String) : Nat :=
  s.batches.countP fun b => b.runId == runId && b.status != .done

/-- `_add_event`. -/
def addEvent (e : Event) : SQLiteJournal :=
  { s with events := s.events ++
    [if e.counters.any (fun c => c.1 == "pending") then e
     else { e with counters := e.counters ++ [("pending", s.pending e.runId)] }] }

/-- `UPDATE batches SET … WHERE job_id = ?`. -/
def updateBatch (jobId : String) (f : Batch → Batch) : SQLiteJournal :=
  { s with batches := updateWhere (fun b => decide (b.jobId = jobId)) f s.batches }

/-- `UPDATE runs SET … WHERE run_id = ?`. -/
def updateRun (runId : String) (f : Run → Run) : SQLiteJournal :=
  { s with runs := updateWhere (fun r => decide (r.runId = runId)) f s.runs }

/-- `UPDATE barriers SET … WHERE run_id = ? AND name = ?`. -/
def updateBarrier (runId name : String) (f : Barrier → Barrier) : SQLiteJournal :=
  { s with
    barriers := updateWhere (fun b => decide ((b.runId, b.name) = (runId, name))) f s.barriers }

end SQLiteJournal

variable (cfg : Config)

/-- `now + retention_seconds`. -/
def Config.retention (now : Time) : Time := now + seconds cfg.limits.retentionSeconds

/-- `_admit`; `free` is what `disk_usage` reports. -/
def admitRun (expectedItems expectedBytes free : Int) : Except Failure Unit :=
  if expectedItems < 0 ∨ expectedBytes < 0 then
    .error (.value "expected admission values must be non-negative")
  else if expectedItems > cfg.limits.maxBatchesPerRun then
    .error (.journal .admissionRejected "run item limit exceeded" [])
  else if expectedBytes > cfg.limits.maxPayloadBytesPerRun then
    .error (.journal .admissionRejected "run byte limit exceeded" [])
  else if free - expectedBytes < cfg.limits.minFreeBytes then
    .error (.journal .diskFull "run admission would violate disk headroom" [])
  else .ok ()

/-- The run row `_set_run_error_locked` writes. -/
def errorRow (status : RunStatus) (errorCode : TerminalErrorCode) (now : Time) (r : Run) : Run :=
  { r with
    status, errorCode := some errorCode, updatedAt := now, retentionUntil := cfg.retention now }

/-- `_set_run_error_locked`. -/
def setRunError (s : SQLiteJournal) (runId : String) (status : RunStatus)
    (errorCode : TerminalErrorCode) (now : Time) : SQLiteJournal :=
  s.updateRun runId (errorRow cfg status errorCode now)

/-- The run row `_refresh_run_status_locked` writes. -/
def drainedRow (now : Time) (r : Run) : Run :=
  { r with status := .drained, updatedAt := now, retentionUntil := cfg.retention now }

/-- `_refresh_run_status_locked`: a draining run with nothing left to do is drained. -/
def refreshRunStatus (s : SQLiteJournal) (runId : String) (now : Time) : SQLiteJournal :=
  if s.runStatus runId = some .draining ∧ s.pending runId = 0 ∧
      s.barriers.countP (fun b => b.runId == runId && b.status != .drained) = 0 then
    (s.updateRun runId (drainedRow cfg now)).addEvent
      { runId, eventType := .queueDrained, createdAt := now }
  else s

/-- The run row a quarantine writes. -/
def quarantinedRow (detail : String) (now : Time) (r : Run) : Run :=
  { r with
    status := .quarantined, updatedAt := now, retentionUntil := cfg.retention now,
    errorCode := some .incompatibleSchema, errorDetail := some detail }

/-- The rows `UPDATE batches` rewrites when a run is quarantined. -/
def quarantineBatch (b : Batch) : Batch :=
  { b with
    status := .blocked, fencingToken := none, leaseUntil := none,
    retryClass := some .incompatible, errorCode := some .incompatibleSchema }

/-- One iteration of the quarantine loops of `open_run` and `quarantine_legacy_targets`. -/
def quarantineRun (s : SQLiteJournal) (runId detail : String) (now : Time) : SQLiteJournal :=
  let s := s.updateRun runId (quarantinedRow cfg detail now)
  let s := s.addEvent
    { runId, eventType := .runQuarantined, errorCode := some .incompatibleSchema, createdAt := now }
  { s with
    batches := updateWhere (fun b => b.runId == runId && b.status != .done) quarantineBatch
      s.batches }

/-! ## Lease recovery -/

/-- A lease taken over: its graph outcome is unknown. -/
def recoverAmbiguous (b : Batch) : Batch :=
  { b with
    status := .reconciling, fencingToken := none, leaseUntil := none,
    retryClass := some .ambiguous }

/-- A reconciliation owner taken over. -/
def releaseOwner (b : Batch) : Batch := { b with fencingToken := none, leaseUntil := none }

/-- One recovery loop: rewrite the selected rows and log each. The rewritten rows are unfinished
before and after, so the `pending` counter is the same in every iteration. -/
def recoverRows (s : SQLiteJournal) (selected : Batch → Bool) (f : Batch → Batch)
    (eventType : EventType) (now : Time) : SQLiteJournal :=
  (s.batches.filter selected).foldl
    (fun s b => s.addEvent
      { runId := b.runId, eventType, jobId := some b.jobId, attempt := some b.attempt,
        createdAt := now })
    { s with batches := updateWhere selected f s.batches }

/-- `status = LEASED AND lease_until <= now`. -/
def expiredLease (now : Time) (b : Batch) : Bool :=
  b.status == .leased && b.leaseUntil.any (· ≤ now)

/-- `status = RECONCILING AND fencing_token IS NOT NULL AND lease_until <= now`. -/
def expiredOwner (now : Time) (b : Batch) : Bool :=
  b.status == .reconciling && b.fencingToken.isSome && b.leaseUntil.any (· ≤ now)

/-- `_recover_expired_leases_locked`. -/
def recoverExpiredLocked (s : SQLiteJournal) (now : Time) : Nat × SQLiteJournal :=
  let s₁ := recoverRows s (expiredLease now) recoverAmbiguous .leaseRecoveredAsAmbiguous now
  let s₂ := recoverRows s₁ (expiredOwner now) releaseOwner .reconciliationRecovered now
  (s.batches.countP (expiredLease now) + s₁.batches.countP (expiredOwner now), s₂)

/-! ## Ownership -/

/-- The row is held under `token` and its lease has not run out. -/
def Batch.ownedBy (b : Batch) (token : String) (now : Time) : Bool :=
  b.status.held && b.fencingToken == some token && b.leaseUntil.any (· > now)

/-- `_owned_transition`. -/
def ownedTransition (s : SQLiteJournal) (jobId token : String) (now : Time) : Except Failure Batch :=
  match s.getBatch jobId with
  | some b => if b.ownedBy token now then .ok b else .error (staleFence jobId)
  | none => .error (staleFence jobId)

/-- `_owned_lease`. -/
def ownedLease (s : SQLiteJournal) (jobId token : String) (now : Time) : Except Failure Batch :=
  match s.getBatch jobId with
  | some b =>
    if b.status = .leased ∧ b.ownedBy token now then .ok b else .error (staleFence jobId)
  | none => .error (staleFence jobId)

end CortexHarness.Journal
