import CortexHarness.Journal.Summary
import CortexHarness.Library.Run

/-!
# Operations and runs

`Op` is one call of a public mutating method of `SQLiteJournal` with everything it reads from
outside the database: the clock, the drawn token, the free disk space and the artifact files.
`exec` performs it as its transaction does: an exception rolls back, except the one that
`enqueue_batch` raises after its commit. `BEGIN IMMEDIATE` serialises the transactions of all
clients, so any number of clients in any order is a list of operations, and a reachable state is
what a list of operations makes of the empty journal.

`purge_run` is two transactions with file removals between them; `deleteRun` is the second one.
The model lets it happen at any time, more often than the callers can.
-/

namespace CortexHarness.Journal

/-- One call. -/
inductive Op where
  | openRun (metadata : RunMetadata) (expectedItems expectedBytes free : Int) (now : Time)
  | quarantineLegacyTargets (metadata : RunMetadata) (targets : List String) (now : Time)
  | enqueueBatch (runId : String) (spec : BatchSpec) (files : Files) (free : Int) (now : Time)
  | openBarrier (runId name : String) (now : Time)
  | closeBarrier (runId name : String) (now : Time)
  | claimBatch (runId : Option String) (leaseSeconds : Int) (token : String) (now : Time)
  | claimJob (jobId : String) (leaseSeconds : Int) (token : String) (now : Time)
  | claimReconciling (runId : Option String) (leaseSeconds : Int) (token : String) (now : Time)
  | claimReconcilingJob (jobId : String) (leaseSeconds : Int) (token : String) (now : Time)
  | renewLease (jobId token : String) (leaseSeconds : Int) (now : Time)
  | ackBatch (jobId token : String) (elapsedMs : Option Int) (now : Time)
  | markReconciling (jobId token : String) (errorCode : Option TerminalErrorCode) (now : Time)
  | scheduleRetry (jobId token : String) (retryAt : Time) (retryClass : RetryClass)
      (errorCode : TerminalErrorCode) (now : Time)
  | scheduleReconciliationRetry (jobId token : String) (retryAt : Time)
      (errorCode : TerminalErrorCode) (now : Time)
  | blockBatch (jobId token : String) (retryClass : RetryClass) (errorCode : TerminalErrorCode)
      (now : Time)
  | completeProducers (runId : String) (now : Time)
  | sealEndpointAudit (runId : String) (manifestDigest : Option String)
      (receiptCount auditedRows : Option Int) (now : Time)
  | closeRunProduction (runId : String) (now : Time)
  | recoverExpiredLeases (now : Time)
  | recoverRunLeasesAsAmbiguous (runId : String) (now : Time)
  | purgeRun (runId : String) (ownershipConfirmed : Bool) (now : Time)
  | deleteRun (runId : String)

/-- What a call returns. -/
inductive Reply where
  | run (r : Option Run)
  | batch (b : Option Batch)
  | barrier (b : Barrier)
  | count (n : Nat)
  | status (text : String)
  | refs (artifacts : List Artifact)
  | unit

/-- The outcome of a call and the database after it. -/
abbrev Outcome := Except Failure Reply × SQLiteJournal

/-- `with self._transaction()`: commit on return, roll back on an exception. -/
def transaction {α : Type} (s : SQLiteJournal) (reply : α → Reply)
    (body : Except Failure (α × SQLiteJournal)) : Outcome :=
  match body with
  | .ok (a, s') => (.ok (reply a), s')
  | .error e => (.error e, s)

/-- The end of `enqueue_batch`: a refused manifest is committed and then raised. -/
def enqueueReply (body : Except Failure ((Batch × List (String × Nat)) × SQLiteJournal))
    (s : SQLiteJournal) : Outcome :=
  match body with
  | .ok ((b, []), s') => (.ok (.batch (some b)), s')
  | .ok ((b, failure), s') =>
    (.error (.journal .invalidContract
      "batch manifest contains conflicting or rejected graph identities"
      (("job_id", .str b.jobId) :: failure.map fun e => (e.1, .int e.2))), s')
  | .error e => (.error e, s)

variable (cfg : Config)

/-- Perform one call. -/
def exec (s : SQLiteJournal) : Op → Outcome
  | .openRun metadata items bytes free now =>
    transaction s (.run ∘ some) (openRun cfg s metadata items bytes free now)
  | .quarantineLegacyTargets metadata targets now =>
    transaction s .count (.ok (quarantineLegacyTargets cfg s metadata targets now))
  | .enqueueBatch runId spec files free now =>
    enqueueReply (enqueueBatch cfg s runId spec files free now) s
  | .openBarrier runId name _ => transaction s .barrier (openBarrier s runId name)
  | .closeBarrier runId name now => transaction s .barrier (closeBarrier s runId name now)
  | .claimBatch runId leaseSeconds token now =>
    transaction s .batch (claimBatch s runId leaseSeconds token now)
  | .claimJob jobId leaseSeconds token now =>
    transaction s .batch (claimJob s jobId leaseSeconds token now)
  | .claimReconciling runId leaseSeconds token now =>
    transaction s .batch (claimReconciling s runId leaseSeconds token now)
  | .claimReconcilingJob jobId leaseSeconds token now =>
    transaction s .batch (claimReconcilingJob s jobId leaseSeconds token now)
  | .renewLease jobId token leaseSeconds now =>
    transaction s (.batch ∘ some) (renewLease s jobId token leaseSeconds now)
  | .ackBatch jobId token elapsedMs now =>
    transaction s (.batch ∘ some) (ackBatch cfg s jobId token elapsedMs now)
  | .markReconciling jobId token errorCode now =>
    transaction s (.batch ∘ some) (markReconciling s jobId token errorCode now)
  | .scheduleRetry jobId token retryAt retryClass errorCode now =>
    transaction s (.batch ∘ some) (scheduleRetry cfg s jobId token retryAt retryClass errorCode now)
  | .scheduleReconciliationRetry jobId token retryAt errorCode now =>
    transaction s (.batch ∘ some)
      (scheduleReconciliationRetry cfg s jobId token retryAt errorCode now)
  | .blockBatch jobId token retryClass errorCode now =>
    transaction s (.batch ∘ some) (blockBatch cfg s jobId token retryClass errorCode now)
  | .completeProducers runId now => transaction s .count (completeProducers s runId now)
  | .sealEndpointAudit runId digest count rows now =>
    transaction s .status (sealEndpointAudit cfg s runId digest count rows now)
  | .closeRunProduction runId now => transaction s .run (closeRunProduction cfg s runId now)
  | .recoverExpiredLeases now => transaction s .count (.ok (recoverExpiredLocked s now))
  | .recoverRunLeasesAsAmbiguous runId now =>
    transaction s .count (.ok (recoverRunLeasesAsAmbiguous s runId now))
  | .purgeRun runId confirmed now => transaction s .refs (purgeRun s runId confirmed now)
  | .deleteRun runId => (.ok .unit, deleteRun s runId)

/-- The database after one call. -/
def step (s : SQLiteJournal) (op : Op) : SQLiteJournal := (exec cfg s op).2

/-- The database after a sequence of calls. -/
abbrev runOps (s : SQLiteJournal) (ops : List Op) : SQLiteJournal := Run.run (step cfg) s ops

/-- A state that calls can bring about. -/
def Reachable (s : SQLiteJournal) : Prop := ∃ ops, s = runOps cfg .empty ops

theorem Reachable.empty : Reachable cfg .empty := ⟨[], rfl⟩

theorem Reachable.step {s : SQLiteJournal} (h : Reachable cfg s) (op : Op) :
    Reachable cfg (step cfg s op) := by
  obtain ⟨ops, rfl⟩ := h
  exact ⟨ops ++ [op], (Run.run_snoc _ _ _ _).symm⟩

theorem Reachable.run {s : SQLiteJournal} (h : Reachable cfg s) (ops : List Op) :
    Reachable cfg (runOps cfg s ops) := by
  obtain ⟨ops', rfl⟩ := h
  exact ⟨ops' ++ ops, (Run.run_append _ _ _ _).symm⟩

theorem Reachable.invariant {I : SQLiteJournal → Prop} (h0 : I .empty)
    (hstep : ∀ s op, I s → I (Journal.step cfg s op)) {s : SQLiteJournal} (h : Reachable cfg s) :
    I s := by
  obtain ⟨ops, rfl⟩ := h
  exact Run.run_invariant (fun s op _ => hstep s op) h0 ops (fun _ _ => trivial)

/-- The token an execution claim hands out. -/
def Op.leaseToken : Op → Option String
  | .claimBatch _ _ token _ => some token
  | .claimJob _ _ token _ => some token
  | _ => none

/-- The token a reconciliation claim hands out. -/
def Op.readbackToken : Op → Option String
  | .claimReconciling _ _ token _ => some token
  | .claimReconcilingJob _ _ token _ => some token
  | _ => none

/-- The token a claim hands out. -/
def Op.claimToken (op : Op) : Option String := op.leaseToken.or op.readbackToken

/-- The batch and the token a fenced call names. -/
def Op.fence : Op → Option (String × String)
  | .renewLease jobId token _ _ => some (jobId, token)
  | .ackBatch jobId token _ _ => some (jobId, token)
  | .markReconciling jobId token _ _ => some (jobId, token)
  | .scheduleRetry jobId token _ _ _ _ => some (jobId, token)
  | .scheduleReconciliationRetry jobId token _ _ _ => some (jobId, token)
  | .blockBatch jobId token _ _ _ => some (jobId, token)
  | _ => none

/-- The clock of a call; the second transaction of a purge reads none. -/
def Op.clock : Op → Option Time
  | .openRun _ _ _ _ now => some now
  | .quarantineLegacyTargets _ _ now => some now
  | .enqueueBatch _ _ _ _ now => some now
  | .openBarrier _ _ now => some now
  | .closeBarrier _ _ now => some now
  | .claimBatch _ _ _ now => some now
  | .claimJob _ _ _ now => some now
  | .claimReconciling _ _ _ now => some now
  | .claimReconcilingJob _ _ _ now => some now
  | .renewLease _ _ _ now => some now
  | .ackBatch _ _ _ now => some now
  | .markReconciling _ _ _ now => some now
  | .scheduleRetry _ _ _ _ _ now => some now
  | .scheduleReconciliationRetry _ _ _ _ now => some now
  | .blockBatch _ _ _ _ now => some now
  | .completeProducers _ now => some now
  | .sealEndpointAudit _ _ _ _ now => some now
  | .closeRunProduction _ now => some now
  | .recoverExpiredLeases now => some now
  | .recoverRunLeasesAsAmbiguous _ now => some now
  | .purgeRun _ _ now => some now
  | .deleteRun _ => none

end CortexHarness.Journal
