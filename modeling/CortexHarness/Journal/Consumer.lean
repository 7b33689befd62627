import CortexHarness.Journal.Runtime

/-!
# The autonomous consumer

Model of `GraphWriteJournalConsumer` (`consumer.py:35-299`) as a program of a client: `_load`,
`_reconcile_one`, `_execute_one`, `_seal_endpoint_audit_if_ready` and the `drain` loop. The loop is
unrolled `fuel` times; a consumer that runs out of fuel stops, as a crash at that point does, so the
runs of the loop are the runs with every fuel. The schema preflight before the construction is left
out, and so is the readback of a batch without a job id, which no stored batch takes.
-/

namespace CortexHarness.Journal

open Clients

/-- `GraphWriteJournalConsumer`. -/
structure GraphWriteJournalConsumer where
  config : JournalConfig
  runId : String

namespace GraphWriteJournalConsumer

variable (py : Python) (compilers : Compilers)

/-- `isinstance(row, dict)`. -/
def isObject : Json → Bool
  | .obj _ => true
  | _ => false

/-- `_load`, on the files it finds. -/
def load (batch : Batch) (files : Files) : Except Raised (GraphWriteOperation × List Json) :=
  let invalid (text : String) : Raised := journalError .invalidContract
    ("invalid persisted operation for " ++ batch.jobId ++ ": " ++ text)
  match GraphWriteOperation.fromDict py batch.operation with
  | .error text => .error (invalid text)
  | .ok operation =>
    if operation.operationKey ≠ batch.operationKey then
      .error (invalid "batch and descriptor operation keys do not match")
    else
      match readJsonl files batch.artifact with
      | .error e => .error (.failure e)
      | .ok rows =>
        if rows.all isObject = false then .error (invalid "artifact rows must be JSON objects")
        else if rows.length ≠ batch.expectedCount then
          .error (journalError .artifactHashMismatch
            ("artifact count does not match batch " ++ batch.jobId))
        else .ok (operation, rows)

/-- `__init__`, after the schema preflight. -/
def init (config : JournalConfig) : Client GraphWriteJournalConsumer := do
  if config.required = false then
    .raise (.failure (.value "the autonomous consumer is only valid in required mode"))
  else
    let runId := runIdOf py config.metadata
    match (← Prog.perform (.getRun runId) : Option Run) with
    | none => .raise (journalError .invalidTransition
        "journal run does not exist for autonomous recovery")
    | some _ =>
      let _ ← call fun i => .recoverRunLeasesAsAmbiguous runId i.now
      return { config, runId }

variable (consumer : GraphWriteJournalConsumer)

/-- `block_batch`. -/
def block (batch : Batch) (token : String) (retryClass : RetryClass)
    (errorCode : TerminalErrorCode) : Client Unit := do
  let _ ← call fun i => .blockBatch batch.jobId token retryClass errorCode i.now
  return ()

/-- `exc.code` of a `JournalError`; every other exception gets `INVALID_CONTRACT`. -/
def errorCodeOf : Raised → TerminalErrorCode
  | .failure (.journal code _ _) => code
  | _ => .invalidContract

/-- The receipt the readback of a batch looks for. -/
def receiptOf (batch : Batch) (operation : GraphWriteOperation) (rows : List Json) : Receipt :=
  ⟨batch.jobId, operation.operationKey, rows.length, batch.artifact.sha256, batch.runId,
    consumer.config.metadata.generation⟩

/-- The readback could not be performed. -/
def deferReadback (batch : Batch) (token : String) (e : Raised) : Client Unit := do
  if classifyError e = .transient then
    if consumer.config.retryBaseSeconds ≤ 0 ∨ consumer.config.retryMaxSeconds ≤ 0 ∨
        consumer.config.retryBaseSeconds > consumer.config.retryMaxSeconds then
      .raise (.failure (.value "retry bounds must be positive and ordered"))
    else
      let _ ← call fun i =>
        .scheduleReconciliationRetry batch.jobId token i.retryAt .invalidTransition i.now
      .raise e
  else
    block batch token (classifyError e) .invalidContract
    .raise e

/-- What the number of receipts tells. -/
def resolve (batch : Batch) (token : String) (receipts : Nat) : Client Unit := do
  if receipts = 1 then
    let _ ← call fun i => .ackBatch batch.jobId token none i.now
    return ()
  else if receipts ≠ 0 then
    block batch token .integrity .invalidContract
    .raise (journalError .invalidContract ("reconciliation receipt cardinality for " ++
      batch.jobId ++ " must be zero or one, received " ++ toString receipts))
  else
    let _ ← call fun i =>
      .scheduleRetry batch.jobId token i.retryAt .ambiguous .invalidTransition i.now
    return ()

/-- `_reconcile_one`. -/
def reconcileOne (batch : Batch) (token : String) : Client Unit := do
  match load py batch (← Prog.perform .readFiles : Files) with
  | .error e =>
    block batch token (classifyError e) (errorCodeOf e)
    .raise e
  | .ok (operation, rows) =>
    match (← Prog.perform (.readback (consumer.receiptOf batch operation rows)) :
        Except Raised Nat) with
    | .error e => consumer.deferReadback batch token e
    | .ok receipts => resolve batch token receipts

/-- The mutation of a batch. -/
def mutationOf (batch : Batch) (token : String) (operation : GraphWriteOperation) (query : Query) :
    Mutation :=
  { query, jobId := batch.jobId, operationKey := operation.operationKey,
    artifactSha256 := batch.artifact.sha256, runId := batch.runId,
    generation := consumer.config.metadata.generation, lease := token }

/-- What the count of a submitted mutation tells. -/
def settle (batch : Batch) (token : String) (count : Nat) : Client Unit := do
  if count ≠ batch.expectedCount then
    block batch token .integrity .invalidContract
    .raise (journalError .invalidContract ("replayed count mismatch for " ++ batch.jobId ++
      ": expected " ++ toString batch.expectedCount ++ ", received " ++ toString count))
  else
    let _ ← call fun i => .ackBatch batch.jobId token (some i.elapsedMs) i.now
    return ()

/-- A `JournalError` is raised again, any other exception leaves the batch ambiguous. -/
def markAmbiguous (batch : Batch) (token : String) : Raised → Client Unit
  | .failure (.journal code message details) => .raise (.failure (.journal code message details))
  | e => do
    let _ ← call fun i => .markReconciling batch.jobId token (some .invalidTransition) i.now
    .raise e

/-- The submission inside the `try` of `_execute_one`. -/
def submit (batch : Batch) (token : String) (m : Mutation) : Client Unit :=
  .call (.submit m) fun
    | .ok count => settle batch token count
    | .error e => .raise e

/-- `_execute_one`. -/
def executeOne (batch : Batch) (token : String) : Client Unit := do
  match load py batch (← Prog.perform .readFiles : Files) with
  | .error e =>
    block batch token .incompatible (errorCodeOf e)
    .raise e
  | .ok (operation, rows) =>
    match compilers.persistedMutation operation rows with
    | .error (.failure (.journal code message details)) =>
      block batch token .incompatible code
      .raise (.failure (.journal code message details))
    | .error e => .raise e
    | .ok query =>
      (submit batch token (consumer.mutationOf batch token operation query)).handle
        (markAmbiguous batch token)

/-- The loop of the audit over the staged edge batches, with the rows audited so far. -/
def auditBatches (audited : Nat) : List Batch → Client Nat
  | [] => return audited
  | batch :: batches => do
    if batch.phase = .relationships ∨ batch.phase = .calls then
      match load py batch (← Prog.perform .readFiles : Files) with
      | .error e => .raise e
      | .ok (operation, rows) =>
        match compilers.endpointAudit operation rows with
        | .error e => .raise e
        | .ok none => auditBatches audited batches
        | .ok (some query) =>
          match (← Prog.perform (.audit query) : Except Raised (List Json)) with
          | .error e => .raise e
          | .ok [] => auditBatches (audited + rows.length) batches
          | .ok records => .raise (.failure (.journal .invalidContract
              "sealed endpoint audit found missing or ambiguous endpoints"
              [("job_id", .str batch.jobId), ("rows", .arr (records.take 20))]))
    else auditBatches audited batches

/-- `_seal_endpoint_audit_if_ready`. -/
def sealEndpointAuditIfReady : Client Unit := do
  if consumer.config.nodeFirst = false then return ()
  else
    match (← Prog.perform (.endpointAuditStatus consumer.runId) :
        Except Failure (Option String)) with
    | .error e => .raise (.failure e)
    | .ok status =>
      if status = some "sealed" then
        let _ ← call fun i => .closeBarrier consumer.runId endpointAuditBarrier i.now
        return ()
      else
        match (← Prog.perform (.getBarrier consumer.runId nodePhaseBarrier) : Option Barrier) with
        | none => return ()
        | some barrier =>
          if barrier.status ≠ .drained then return ()
          else
            let batches : List Batch ← Prog.perform (Command.listBatches consumer.runId)
            let audited ← auditBatches py compilers 0 batches
            let _ ← call fun i =>
              .sealEndpointAudit consumer.runId none none (some (audited : Int)) i.now
            let _ ← call fun i => .closeBarrier consumer.runId endpointAuditBarrier i.now
            return ()

/-- `assert batch.fencing_token`, then work on the batch. -/
def withToken (batch : Batch) (work : String → Client Unit) : Client Unit :=
  match batch.fencingToken with
  | some token => if token = "" then .raise (.other .terminal) else work token
  | none => .raise (.other .terminal)

/-- The `while` loop of `drain`, with the batches drained so far. -/
def drainLoop (drained : Nat) : Nat → Client Nat
  | 0 => return drained
  | fuel + 1 => do
    match ← callBatch fun i =>
        .claimReconciling (some consumer.runId) consumer.config.leaseSeconds i.token i.now with
    | some ambiguous =>
      withToken ambiguous (consumer.reconcileOne py ambiguous)
      drainLoop (drained + 1) fuel
    | none =>
      match ← callBatch fun i =>
          .claimBatch (some consumer.runId) consumer.config.leaseSeconds i.token i.now with
      | some pending =>
        withToken pending (consumer.executeOne py compilers pending)
        drainLoop (drained + 1) fuel
      | none =>
        consumer.sealEndpointAuditIfReady py compilers
        match ← callBatch fun i =>
            .claimBatch (some consumer.runId) consumer.config.leaseSeconds i.token i.now with
        | some pending =>
          withToken pending (consumer.executeOne py compilers pending)
          drainLoop (drained + 1) fuel
        | none => return drained

/-- `drain`. -/
def drain (fuel : Nat) : Client Nat := do
  consumer.sealEndpointAuditIfReady py compilers
  consumer.drainLoop py compilers 0 fuel

/-- A process: recover the leases of the run, then drain it. -/
def process (config : JournalConfig) (fuel : Nat) : Client Unit := do
  let consumer ← init py config
  let _ ← consumer.drain py compilers fuel
  return ()

/-! ## Its commands -/

/-- The commands with which a consumer looks at a batch or gives it up satisfy `P`. -/
structure Watches (P : Command → Prop) : Prop where
  readFiles : P .readFiles
  readback : ∀ receipt, P (.readback receipt)
  audit : ∀ query, P (.audit query)
  block : ∀ jobId token retryClass errorCode,
    P (.journal fun i => .blockBatch jobId token retryClass errorCode i.now)
  backOff : ∀ jobId token errorCode,
    P (.journal fun i => .scheduleReconciliationRetry jobId token i.retryAt errorCode i.now)

/-- The commands with which it settles a batch satisfy `P` too. -/
structure Settles (P : Command → Prop) : Prop extends Watches P where
  ack : ∀ jobId token (ms : Input → Option Int),
    P (.journal fun i => .ackBatch jobId token (ms i) i.now)
  retry : ∀ jobId token retryClass errorCode,
    P (.journal fun i => .scheduleRetry jobId token i.retryAt retryClass errorCode i.now)
  mark : ∀ jobId token errorCode,
    P (.journal fun i => .markReconciling jobId token errorCode i.now)

variable {py compilers consumer} {P : Command → Prop}

theorem block_only (hP : Watches P) (batch : Batch) (token : String) (retryClass : RetryClass)
    (errorCode : TerminalErrorCode) : (block batch token retryClass errorCode).Only P :=
  .bind (call_only (hP.block _ _ _ _)) fun _ => trivial

theorem deferReadback_only (hP : Watches P) (batch : Batch) (token : String) (e : Raised) :
    (consumer.deferReadback batch token e).Only P := by
  unfold deferReadback
  split
  · split
    · trivial
    · exact .bind (call_only (hP.backOff _ _ _)) fun _ => trivial
  · exact .bind (block_only hP ..) fun _ => trivial

theorem auditBatches_only (hP : Watches P) (audited : Nat) (batches : List Batch) :
    (auditBatches py compilers audited batches).Only P := by
  induction batches generalizing audited with
  | nil => trivial
  | cons batch batches ih =>
    simp only [auditBatches]
    split
    · refine .bind (.perform hP.readFiles) fun files => ?_
      split
      · trivial
      · split
        · trivial
        · exact ih _
        · refine .bind (.perform (hP.audit _)) fun r => ?_
          split
          · trivial
          · exact ih _
          · trivial
    · exact ih _

theorem resolve_only (hP : Settles P) (batch : Batch) (token : String) (receipts : Nat) :
    (resolve batch token receipts).Only P := by
  unfold resolve
  split
  · exact .bind (call_only (hP.ack _ _ fun _ => none)) fun _ => trivial
  · split
    · exact .bind (block_only hP.toWatches ..) fun _ => trivial
    · exact .bind (call_only (hP.retry _ _ _ _)) fun _ => trivial

theorem reconcileOne_only (hP : Settles P) (batch : Batch) (token : String) :
    (consumer.reconcileOne py batch token).Only P := by
  refine .bind (.perform hP.readFiles) fun files => ?_
  split
  · exact .bind (block_only hP.toWatches ..) fun _ => trivial
  · refine .bind (.perform (hP.readback _)) fun r => ?_
    split
    · exact deferReadback_only hP.toWatches ..
    · exact resolve_only hP ..

theorem settle_only (hP : Settles P) (batch : Batch) (token : String) (count : Nat) :
    (settle batch token count).Only P := by
  unfold settle
  split
  · exact .bind (block_only hP.toWatches ..) fun _ => trivial
  · exact .bind (call_only (hP.ack _ _ fun i => some i.elapsedMs)) fun _ => trivial

theorem markAmbiguous_only (hP : Settles P) (batch : Batch) (token : String) (e : Raised) :
    (markAmbiguous batch token e).Only P := by
  unfold markAmbiguous
  split
  · trivial
  · exact .bind (call_only (hP.mark _ _ _)) fun _ => trivial

theorem withToken_only {batch : Batch} {work : String → Client Unit}
    (h : ∀ token, (work token).Only P) : (withToken batch work).Only P := by
  unfold withToken
  split
  · split
    · trivial
    · exact h _
  · trivial

end GraphWriteJournalConsumer

end CortexHarness.Journal
