import CortexHarness.Journal.Staging

/-!
# Consuming work: claims and fenced transitions

Model of `claim_batch`, `claim_job`, `claim_reconciling`, `claim_reconciling_job`, `renew_lease`,
`ack_batch`, `mark_reconciling`, `schedule_retry`, `schedule_reconciliation_retry`, `block_batch`,
`recover_expired_leases` and `recover_run_leases_as_ambiguous` (`sqlite_store.py:1595-2190,
2622-2745`). The token of a claim is an argument: `secrets.token_hex` draws it.
-/

namespace CortexHarness.Journal

open Table

variable (cfg : Config)

/-! ## Claims -/

/-- `next_attempt_at IS NULL OR next_attempt_at <= now`. -/
def Batch.due (b : Batch) (now : Time) : Bool := b.nextAttemptAt.all (· ≤ now)

/-- The rows `claim_batch` and `claim_job` select from. -/
def claimable (s : SQLiteJournal) (now : Time) (b : Batch) : Bool :=
  b.status.executable && b.due now && s.runActive b.runId && s.barriersDrained b

/-- The rows `claim_reconciling` and `claim_reconciling_job` select from. -/
def reconcilable (s : SQLiteJournal) (now : Time) (b : Batch) : Bool :=
  b.status == .reconciling && b.fencingToken.isNone && b.due now && s.runActive b.runId

/-- `ORDER BY sequence, created_at, job_id`. -/
def claimOrder (a b : Batch) : Prop :=
  a.sequence < b.sequence ∨ a.sequence = b.sequence ∧
    (a.createdAt < b.createdAt ∨ a.createdAt = b.createdAt ∧ a.jobId ≤ b.jobId)

instance (a b : Batch) : Decidable (claimOrder a b) := by
  unfold claimOrder
  infer_instance

/-- The first selected row in claim order: `… ORDER BY … LIMIT 1`. -/
def firstInOrder (s : SQLiteJournal) (selected : Batch → Bool) : Option Batch :=
  ((s.batches.filter selected).insertionSort claimOrder).head?

/-- `run_id_value IS NULL OR run_id = run_id_value`. -/
def inRun (runId : Option String) (b : Batch) : Bool := runId.all (· == b.runId)

/-- `SET status = LEASED, attempt = attempt + 1, …`. -/
def leaseBatch (token : String) (leaseUntil : Time) (b : Batch) : Batch :=
  { b with
    status := .leased, attempt := b.attempt + 1, fencingToken := some token,
    leaseUntil := some leaseUntil, nextAttemptAt := none }

/-- `SET fencing_token = ?, lease_until = ?`. -/
def leaseReconciliation (token : String) (leaseUntil : Time) (b : Batch) : Batch :=
  { b with fencingToken := some token, leaseUntil := some leaseUntil }

/-- The rest of a claim once its row is selected: fence it and log the lease. -/
def fence (s : SQLiteJournal) (row : Batch) (f : Batch → Batch) (eventType : EventType)
    (now : Time) : Option Batch × SQLiteJournal :=
  let claimed := f row
  (some claimed, (s.updateBatch row.jobId f).addEvent
    { runId := row.runId, eventType, jobId := some row.jobId, attempt := some claimed.attempt,
      createdAt := now })

/-- The four claims: recover expired leases, select, fence. -/
def claim (s : SQLiteJournal) (select : SQLiteJournal → Option Batch)
    (f : String → Time → Batch → Batch) (eventType : EventType) (leaseSeconds : Int)
    (token : String) (now : Time) : Except Failure (Option Batch × SQLiteJournal) :=
  if leaseSeconds ≤ 0 then .error (.value "lease_seconds must be positive")
  else
    let s := (recoverExpiredLocked s now).2
    match select s with
    | none => .ok (none, s)
    | some row => .ok (fence s row (f token (now + seconds leaseSeconds)) eventType now)

/-- `claim_batch`. -/
def claimBatch (s : SQLiteJournal) (runId : Option String) (leaseSeconds : Int) (token : String)
    (now : Time) : Except Failure (Option Batch × SQLiteJournal) :=
  claim s (fun s => firstInOrder s fun b => claimable s now b && inRun runId b) leaseBatch
    .batchLeased leaseSeconds token now

/-- `claim_job`. -/
def claimJob (s : SQLiteJournal) (jobId : String) (leaseSeconds : Int) (token : String)
    (now : Time) : Except Failure (Option Batch × SQLiteJournal) :=
  claim s (fun s => (s.getBatch jobId).filter (claimable s now)) leaseBatch .batchLeased
    leaseSeconds token now

/-- `claim_reconciling`. -/
def claimReconciling (s : SQLiteJournal) (runId : Option String) (leaseSeconds : Int)
    (token : String) (now : Time) : Except Failure (Option Batch × SQLiteJournal) :=
  claim s (fun s => firstInOrder s fun b => reconcilable s now b && inRun runId b)
    leaseReconciliation .batchReconciliationLeased leaseSeconds token now

/-- `claim_reconciling_job`. -/
def claimReconcilingJob (s : SQLiteJournal) (jobId : String) (leaseSeconds : Int) (token : String)
    (now : Time) : Except Failure (Option Batch × SQLiteJournal) :=
  claim s (fun s => (s.getBatch jobId).filter (reconcilable s now)) leaseReconciliation
    .batchReconciliationLeased leaseSeconds token now

/-! ## Fenced transitions -/

/-- `renew_lease`; its `UPDATE` names `LEASED` only. -/
def renewLease (s : SQLiteJournal) (jobId token : String) (leaseSeconds : Int) (now : Time) :
    Except Failure (Batch × SQLiteJournal) :=
  if leaseSeconds ≤ 0 then .error (.value "lease_seconds must be positive")
  else
    match ownedLease s jobId token now with
    | .error e => .error e
    | .ok row =>
      let f (b : Batch) : Batch := { b with leaseUntil := some (now + seconds leaseSeconds) }
      .ok (f row, s.updateBatch jobId f)

/-- `SET status = DONE, …`. -/
def doneBatch (b : Batch) : Batch :=
  { b with
    status := .done, fencingToken := none, leaseUntil := none, retryClass := none,
    errorCode := none, errorDetail := none }

/-- `SET acked = 1, graph_verified = 1 WHERE job_id = ? AND disposition = STAGED_UNIQUE`. -/
def ackRows (jobId : String) (rows : List ManifestRow) : List ManifestRow :=
  updateWhere (fun m => m.jobId == jobId && m.disposition == .stagedUnique)
    (fun m => { m with acked := true, graphVerified := true }) rows

/-- One more acknowledged producer; `none` is a violation of `drained_count <= produced_count`. -/
def Barrier.drain (b : Barrier) : Option Barrier :=
  if h : b.drainedCount + 1 ≤ b.producedCount then
    some
      { b with
        drainedCount := b.drainedCount + 1
        status := if b.closedAt.isSome ∧ b.drainedCount + 1 = b.producedCount then .drained
          else b.status
        drained_le := h }
  else none

/-- The loop of `ack_batch` over the produced barriers. -/
def drainBarriers (runId : String) (now : Time) (s : SQLiteJournal) :
    List String → Except Failure SQLiteJournal
  | [] => .ok s
  | name :: names =>
    match s.getBarrier runId name with
    | none => .error (.journal .invalidContract "produced barrier is missing" [])
    | some barrier =>
      match barrier.drain with
      | none => .error (integrityError "CHECK constraint failed: drained_count <= produced_count")
      | some drained =>
        let s := s.updateBarrier runId name fun _ => drained
        let s := if drained.status = .drained then
            s.addEvent { runId, eventType := .barrierReached,
                         counters := [("produced", barrier.producedCount)], createdAt := now }
          else s
        drainBarriers runId now s names

/-- `ack_batch`. -/
def ackBatch (s : SQLiteJournal) (jobId token : String) (elapsedMs : Option Int) (now : Time) :
    Except Failure (Batch × SQLiteJournal) :=
  match ownedTransition s jobId token now with
  | .error e => .error e
  | .ok row =>
    let s := s.updateBatch jobId doneBatch
    let s := { s with
      nodeManifest := ackRows jobId s.nodeManifest, edgeManifest := ackRows jobId s.edgeManifest }
    match drainBarriers row.runId now s row.producedBarriers with
    | .error e => .error e
    | .ok s =>
      let s := s.addEvent
        { runId := row.runId, eventType := .batchAcked, jobId := some jobId,
          counters := [("rows", row.artifact.rowCount)], attempt := some row.attempt, elapsedMs,
          createdAt := now }
      .ok (doneBatch row, refreshRunStatus cfg s row.runId now)

/-- `mark_reconciling`. -/
def markReconciling (s : SQLiteJournal) (jobId token : String) (errorCode : Option TerminalErrorCode)
    (now : Time) : Except Failure (Batch × SQLiteJournal) :=
  match ownedLease s jobId token now with
  | .error e => .error e
  | .ok row =>
    let f (b : Batch) : Batch :=
      { b with status := .reconciling, retryClass := some .ambiguous, errorCode }
    .ok (f row, (s.updateBatch jobId f).addEvent
      { runId := row.runId, eventType := .batchReconciling, jobId := some jobId,
        attempt := some row.attempt, errorCode, createdAt := now })

/-- The retry transition of a held row that has attempts left. -/
def retryBatch (retryAt : Time) (retryClass : RetryClass) (errorCode : TerminalErrorCode)
    (b : Batch) : Batch :=
  { b with
    status := .retryWait, fencingToken := none, leaseUntil := none, nextAttemptAt := some retryAt,
    retryClass := some retryClass, errorCode := some errorCode }

/-- The transition of a held row whose attempts are used up. -/
def deadLetterBatch (attempt : Nat) (retryClass : RetryClass) (b : Batch) : Batch :=
  { b with
    status := .deadLetter, attempt, fencingToken := none, leaseUntil := none,
    nextAttemptAt := none, retryClass := some retryClass, errorCode := some .maxAttempts }

/-- `schedule_retry`. -/
def scheduleRetry (s : SQLiteJournal) (jobId token : String) (retryAt : Time)
    (retryClass : RetryClass) (errorCode : TerminalErrorCode) (now : Time) :
    Except Failure (Batch × SQLiteJournal) :=
  match ownedTransition s jobId token now with
  | .error e => .error e
  | .ok row =>
    if row.attempt ≥ row.maxAttempts then
      let f := deadLetterBatch row.attempt retryClass
      let s := (s.updateBatch jobId f).addEvent
        { runId := row.runId, eventType := .batchDeadLettered, jobId := some jobId,
          attempt := some row.attempt, errorCode := some .maxAttempts, createdAt := now }
      .ok (f row, setRunError cfg s row.runId .deadLettered .maxAttempts now)
    else
      let f := retryBatch retryAt retryClass errorCode
      .ok (f row, (s.updateBatch jobId f).addEvent
        { runId := row.runId, eventType := .retryScheduled, jobId := some jobId,
          attempt := some row.attempt, errorCode := some errorCode, createdAt := now })

/-- The reconciliation back-off of a held row that has attempts left. -/
def backOffBatch (retryAt : Time) (errorCode : TerminalErrorCode) (b : Batch) : Batch :=
  { b with
    status := .reconciling, attempt := b.attempt + 1, fencingToken := none, leaseUntil := none,
    nextAttemptAt := some retryAt, retryClass := some .transient, errorCode := some errorCode }

/-- `schedule_reconciliation_retry`; exhaustion compares the next attempt, not the current one. -/
def scheduleReconciliationRetry (s : SQLiteJournal) (jobId token : String) (retryAt : Time)
    (errorCode : TerminalErrorCode) (now : Time) : Except Failure (Batch × SQLiteJournal) :=
  match ownedTransition s jobId token now with
  | .error e => .error e
  | .ok row =>
    if row.status ≠ .reconciling then
      .error (.journal .invalidTransition
        "only ambiguous readback work can schedule reconciliation retry" [])
    else if row.attempt + 1 ≥ row.maxAttempts then
      let f := deadLetterBatch (row.attempt + 1) .transient
      let s := (s.updateBatch jobId f).addEvent
        { runId := row.runId, eventType := .batchDeadLettered, jobId := some jobId,
          attempt := some (row.attempt + 1), errorCode := some .maxAttempts, createdAt := now }
      .ok (f row, setRunError cfg s row.runId .deadLettered .maxAttempts now)
    else
      let f := backOffBatch retryAt errorCode
      .ok (f row, (s.updateBatch jobId f).addEvent
        { runId := row.runId, eventType := .reconciliationRetryScheduled, jobId := some jobId,
          attempt := some (row.attempt + 1), errorCode := some errorCode, createdAt := now })

/-- The blocking transition of a held row. -/
def blockRow (retryClass : RetryClass) (errorCode : TerminalErrorCode) (b : Batch) : Batch :=
  { b with
    status := .blocked, fencingToken := none, leaseUntil := none, retryClass := some retryClass,
    errorCode := some errorCode }

/-- `block_batch`. -/
def blockBatch (s : SQLiteJournal) (jobId token : String) (retryClass : RetryClass)
    (errorCode : TerminalErrorCode) (now : Time) : Except Failure (Batch × SQLiteJournal) :=
  match ownedTransition s jobId token now with
  | .error e => .error e
  | .ok row =>
    let f := blockRow retryClass errorCode
    let s := (s.updateBatch jobId f).addEvent
      { runId := row.runId, eventType := .batchBlocked, jobId := some jobId,
        attempt := some row.attempt, errorCode := some errorCode, createdAt := now }
    .ok (f row, setRunError cfg s row.runId .blocked errorCode now)

/-! ## Recovery -/

/-- `recover_run_leases_as_ambiguous`. -/
def recoverRunLeasesAsAmbiguous (s : SQLiteJournal) (runId : String) (now : Time) :
    Nat × SQLiteJournal :=
  let leased (b : Batch) : Bool := b.runId == runId && b.status == .leased
  let owned (b : Batch) : Bool :=
    b.runId == runId && b.status == .reconciling && b.fencingToken.isSome
  let s₁ := recoverRows s leased recoverAmbiguous .leaseRecoveredAsAmbiguous now
  let s₂ := recoverRows s₁ owned releaseOwner .reconciliationOwnershipRecovered now
  (s.batches.countP leased + s₁.batches.countP owned, s₂)

end CortexHarness.Journal
