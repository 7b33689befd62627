import CortexHarness.Journal.Artifacts

/-!
# Producing work: runs, batches, manifests and barriers

Model of `open_run`, `quarantine_legacy_targets`, `enqueue_batch`, `_stage_manifests_locked`,
`open_barrier`, `close_barrier`, `complete_producers` and `close_run_production`
(`sqlite_store.py:878-1585, 2208-2290, 2543-2568`).

Every function is the body of its transaction: it returns the reply and the new state, or the
exception, and the transaction is rolled back then. `enqueue_batch` reads the run row and the
artifact before its transaction; the columns it uses of the run are never rewritten, so the model
reads them in the same step. `now` is the value of the clock.
-/

namespace CortexHarness.Journal

open Table

variable (cfg : Config)

/-! ## Runs -/

/-- `open_run`. -/
def openRun (s : SQLiteJournal) (metadata : RunMetadata) (expectedItems expectedBytes free : Int)
    (now : Time) : Except Failure (Run × SQLiteJournal) :=
  match admitRun cfg expectedItems expectedBytes free with
  | .error e => .error e
  | .ok () =>
    let runId := runIdOf cfg.python metadata
    match s.getRun runId with
    | some existing =>
      if existing.metadata.toDict.dumps ≠ metadata.toDict.dumps then
        .error (.journal .incompatibleSchema "run identity collision has incompatible metadata" [])
      else if existing.status = .quarantined ∧ existing.errorCode = some .incompatibleSchema then
        .error (.journal .incompatibleSchema
          "quarantined legacy run cannot be resumed as a v3 manifest run"
          [("run_id", .str runId)])
      else .ok (existing, s.addEvent { runId, eventType := .runResumed, createdAt := now })
    | none =>
      let incompatible := (s.runs.filter fun r => r.lane == metadata.lane && r.status.active).map
        Run.runId
      let s := incompatible.foldl (fun s r => quarantineRun cfg s r
        "superseded by an incompatible source/target/schema/query fingerprint" now) s
      let run : Run :=
        { runId, fingerprint := runFingerprint cfg.python metadata, metadata, status := .opened,
          createdAt := now, updatedAt := now, retentionUntil := cfg.retention now }
      .ok (run, { s with runs := s.runs ++ [run] }.addEvent
        { runId, eventType := .runOpened, createdAt := now })

/-- The targets `quarantine_legacy_targets` looks for. -/
def legacyTargets (metadata : RunMetadata) (physicalTargets : List String) : List String :=
  sortedSet ((physicalTargets.map strip).filter fun t => t != "" && t != metadata.physicalTarget)

/-- `quarantine_legacy_targets`. -/
def quarantineLegacyTargets (s : SQLiteJournal) (metadata : RunMetadata)
    (physicalTargets : List String) (now : Time) : Nat × SQLiteJournal :=
  let targets := legacyTargets metadata physicalTargets
  let rows := (s.runs.filter fun r =>
    r.metadata.projectId == metadata.projectId && r.metadata.scopeId == metadata.scopeId &&
      r.metadata.parser == metadata.parser && targets.contains r.metadata.physicalTarget &&
      r.status.active).map Run.runId
  (rows.length, rows.foldl (fun s r => quarantineRun cfg s r
    "superseded by the credential-free effective-target identity contract" now) s)

/-- The run row `close_run_production` writes. -/
def drainingRow (now : Time) (r : Run) : Run := { r with status := .draining, updatedAt := now }

/-- `close_run_production`. -/
def closeRunProduction (s : SQLiteJournal) (runId : String) (now : Time) :
    Except Failure (Option Run × SQLiteJournal) :=
  let finish (s : SQLiteJournal) : Option Run × SQLiteJournal :=
    let s := refreshRunStatus cfg s runId now
    (s.getRun runId, s)
  match s.runStatus runId with
  | some .opened =>
    .ok (finish (s.updateRun runId (drainingRow now)))
  | some .draining => .ok (finish s)
  | some .drained => .ok (finish s)
  | _ => .error (.journal .invalidTransition "run cannot close production" [])

/-! ## Manifests -/

/-- The table of one manifest kind. -/
def SQLiteJournal.manifest (s : SQLiteJournal) : ManifestKind → List ManifestRow
  | .node => s.nodeManifest
  | .edge => s.edgeManifest

/-- `disposition IN (STAGED_UNIQUE, DECLARED_DUPLICATE)`. -/
def ManifestDisposition.accepted : ManifestDisposition → Bool
  | .stagedUnique | .declaredDuplicate => true
  | _ => false

/-- The disposition a candidate is stored with: a second sighting of a staged identity is a
duplicate or a conflict. The query has `LIMIT 1` and no order; every row it can return carries the
same digest (`accepted_digest`), so the first one stands for all. -/
def resolveDisposition (rows : List ManifestRow) (runId : String) (c : Candidate) :
    ManifestDisposition :=
  match c.disposition with
  | .stagedUnique =>
    match rows.find? fun m =>
      m.runId == runId && m.identity == c.identity && m.disposition.accepted with
    | some existing =>
      if existing.payloadDigest = c.payloadDigest then .declaredDuplicate else .conflict
    | none => .stagedUnique
  | d => d

/-- `counts[f"\x7bkind\x7d_\x7bsuffix\x7d"] += 1`, with `emitted`. -/
def ManifestCounts.record (k : ManifestCounts) : ManifestDisposition → ManifestCounts
  | .stagedUnique => { k with emitted := k.emitted + 1, unique := k.unique + 1 }
  | .declaredDuplicate => { k with emitted := k.emitted + 1, duplicate := k.duplicate + 1 }
  | .conflict => { k with emitted := k.emitted + 1, conflict := k.conflict + 1 }
  | .rejected => { k with emitted := k.emitted + 1, rejected := k.rejected + 1 }

/-- The counters of one staging: those of the nodes and those of the edges. -/
structure StagingCounts where
  node : ManifestCounts := {}
  edge : ManifestCounts := {}
  deriving Repr, DecidableEq

def StagingCounts.record (k : StagingCounts) (kind : ManifestKind) (d : ManifestDisposition) :
    StagingCounts :=
  match kind with
  | .node => { k with node := k.node.record d }
  | .edge => { k with edge := k.edge.record d }

/-- The row a candidate is stored as. -/
def Candidate.row (c : Candidate) (runId jobId producerId : String) (d : ManifestDisposition) :
    ManifestRow :=
  { runId, manifestId := c.manifestId, jobId, producerId, rowOrdinal := c.rowOrdinal,
    identity := c.identity, payloadDigest := c.payloadDigest, disposition := d }

/-- The endpoint rows of an edge candidate. -/
def Candidate.endpointRows (c : Candidate) (runId : String) : List EdgeEndpoint :=
  c.endpoints.map fun e =>
    { runId, edgeManifestId := c.manifestId, role := e.role, scope := c.identity.scope,
      nodeLabel := e.label, identityProperty := e.property, identityType := e.identityType,
      identityJson := e.identityJson }

/-- One iteration of the staging loop. The primary key is `(run_id, manifest_id)`. -/
def stageCandidate (runId jobId producerId : String) (s : SQLiteJournal) (k : StagingCounts)
    (c : Candidate) : Except Failure (StagingCounts × SQLiteJournal) :=
  let d := resolveDisposition (s.manifest c.kind) runId c
  if (s.manifest c.kind).any fun m => m.runId == runId && m.manifestId == c.manifestId then
    .error (integrityError ("UNIQUE constraint failed: " ++ c.kind.value ++ "_manifest.run_id, " ++
      c.kind.value ++ "_manifest.manifest_id"))
  else
    match c.kind with
    | .node => .ok (k.record .node d,
        { s with nodeManifest := s.nodeManifest ++ [c.row runId jobId producerId d] })
    | .edge => .ok (k.record .edge d,
        { s with
                 edgeManifest := s.edgeManifest ++ [c.row runId jobId producerId d],
                 edgeEndpoints := s.edgeEndpoints ++ c.endpointRows runId })

/-- The staging loop. -/
def stageCandidates (runId jobId producerId : String) (s : SQLiteJournal) (k : StagingCounts) :
    List Candidate → Except Failure (StagingCounts × SQLiteJournal)
  | [] => .ok (k, s)
  | c :: cs =>
    match stageCandidate runId jobId producerId s k c with
    | .error e => .error e
    | .ok (k, s) => stageCandidates runId jobId producerId s k cs

/-- The entries of `manifest_failure`: the counters that make a batch unacceptable. -/
def StagingCounts.failure (k : StagingCounts) : List (String × Nat) :=
  [("node_conflict", k.node.conflict), ("node_rejected", k.node.rejected),
    ("edge_conflict", k.edge.conflict), ("edge_rejected", k.edge.rejected)].filter fun e => e.2 != 0

def ManifestCounts.add (a b : ManifestCounts) : ManifestCounts :=
  ⟨a.emitted + b.emitted, a.unique + b.unique, a.duplicate + b.duplicate, a.conflict + b.conflict,
    a.rejected + b.rejected⟩

/-- `INSERT INTO producer_completion … ON CONFLICT DO UPDATE SET updated_at`. -/
def registerProducer (producers : List Producer) (runId producerId : String) : List Producer :=
  if (lookup (fun p : Producer => (p.runId, p.producerId)) (runId, producerId) producers).isSome
  then producers
  else producers ++ [{ runId, producerId, status := .opened }]

/-- `_stage_manifests_locked`. -/
def stageManifests (s : SQLiteJournal) (runId jobId producerId : String)
    (candidates : List Candidate) : Except Failure (List (String × Nat) × SQLiteJournal) :=
  if ((s.getProducer runId producerId).any fun p => p.status != .opened) = true then
    .error (.journal .invalidTransition ("producer " ++ producerId ++ " is already complete") [])
  else
    let s := { s with producers := registerProducer s.producers runId producerId }
    match stageCandidates runId jobId producerId s {} candidates with
    | .error e => .error e
    | .ok (k, s) =>
      .ok (k.failure,
        { s with
          producers := updateWhere (fun p => decide ((p.runId, p.producerId) = (runId, producerId)))
            (fun p => { p with node := p.node.add k.node, edge := p.edge.add k.edge }) s.producers })

/-! ## Batches -/

/-- The artifact row of a new batch: inserted, or referenced once more. -/
def referenceArtifact (s : SQLiteJournal) (runId : String) (ref : ArtifactRef) :
    Except Failure SQLiteJournal :=
  match s.getArtifact runId ref.sha256 with
  | none =>
    .ok { s with artifacts := s.artifacts ++
      [⟨runId, ref.sha256, ref.relativePath, ref.byteCount, ref.rowCount, 1⟩] }
  | some existing =>
    if existing.relativePath ≠ ref.relativePath ∨ existing.byteCount ≠ ref.byteCount ∨
        existing.rowCount ≠ ref.rowCount then
      .error (.journal .artifactHashMismatch "artifact metadata conflicts with its content hash" [])
    else
      .ok { s with
        artifacts := updateWhere (fun a => decide ((a.runId, a.sha256) = (runId, ref.sha256)))
          (fun a => { a with refCount := a.refCount + 1 }) s.artifacts }

/-- `INSERT INTO batches`. -/
def BatchSpec.batch (spec : BatchSpec) (runId jobId : String) (now : Time) : Batch :=
  { jobId, runId, phase := spec.phase, operationKey := spec.operationKey,
    sequence := spec.sequence, artifact := spec.artifact, expectedCount := spec.expectedCount,
    maxAttempts := spec.maxAttempts, requiredBarriers := sortedSet spec.requiredBarriers,
    producedBarriers := sortedSet spec.producedBarriers, operation := spec.operation,
    createdAt := now }

/-- One more producer of an open barrier. -/
def Barrier.produce (b : Barrier) : Barrier :=
  { b with producedCount := b.producedCount + 1, drained_le := Nat.le_succ_of_le b.drained_le }

/-- A barrier that its first producer creates. -/
def newBarrier (runId name : String) (produced : Nat) : Barrier :=
  ⟨runId, name, .opened, produced, 0, none, Nat.zero_le _⟩

/-- The loop of `enqueue_batch` over the produced barriers. -/
def produceBarriers (runId : String) (s : SQLiteJournal) : List String → Except Failure SQLiteJournal
  | [] => .ok s
  | name :: names =>
    match s.getBarrier runId name with
    | none =>
      produceBarriers runId { s with barriers := s.barriers ++ [newBarrier runId name 1] } names
    | some barrier =>
      if barrier.status = .opened then
        produceBarriers runId (s.updateBarrier runId name Barrier.produce) names
      else
        .error (.journal .invalidTransition
          ("cannot enqueue producer after barrier " ++ name ++ " is closed") [])

/-- A batch refused for its manifest. -/
def rejectBatch (detail : String) (b : Batch) : Batch :=
  { b with
    status := .blocked, retryClass := some .integrity, errorCode := some .invalidContract,
    errorDetail := some detail }

/-- `canonical_json(manifest_failure)`. -/
def failureDetail (failure : List (String × Nat)) : String :=
  Json.dumps (.obj (failure.map fun e => (e.1, .int e.2)))

/-- The admission totals of a run. -/
def SQLiteJournal.payloadBytes (s : SQLiteJournal) (runId : String) : Nat :=
  ((s.batches.filter fun b => b.runId == runId).map fun b => b.artifact.byteCount).sum

/-- The manifests of a new batch; without a replay descriptor there are none. -/
def stageBatch (s : SQLiteJournal) (run : Run) (spec : BatchSpec) (jobId : String)
    (rows : List Json) : Except Failure (List (String × Nat) × SQLiteJournal) :=
  match manifestCandidates cfg.python run.metadata spec rows jobId with
  | some (producerId, candidates) => stageManifests s run.runId jobId producerId candidates
  | none => .ok ([], s)

/-- The part of the `enqueue_batch` transaction that inserts a new batch. -/
def insertBatch (s : SQLiteJournal) (run : Run) (spec : BatchSpec) (jobId : String)
    (rows : List Json) (now : Time) : Except Failure ((Batch × List (String × Nat)) × SQLiteJournal) :=
  match referenceArtifact s run.runId spec.artifact with
  | .error e => .error e
  | .ok s =>
    let batch := spec.batch run.runId jobId now
    match stageBatch cfg { s with batches := s.batches ++ [batch] } run spec jobId rows with
    | .error e => .error e
    | .ok (failure, s) =>
      if failure = [] then
        match produceBarriers run.runId s batch.producedBarriers with
        | .error e => .error e
        | .ok s =>
          .ok ((batch, []), s.addEvent
            { runId := run.runId, eventType := .batchEnqueued, jobId := some jobId,
              counters := [("bytes", spec.artifact.byteCount), ("rows", spec.artifact.rowCount)],
              createdAt := now })
      else
        let s := s.updateBatch jobId (rejectBatch (failureDetail failure))
        let s := setRunError cfg s run.runId .blocked .invalidContract now
        .ok ((rejectBatch (failureDetail failure) batch, failure), s.addEvent
          { runId := run.runId, eventType := .batchManifestRejected, jobId := some jobId,
            counters := [("bytes", spec.artifact.byteCount), ("rows", spec.artifact.rowCount)] ++
              failure,
            errorCode := some .invalidContract, createdAt := now })

/-- `deterministic_job_id` of a spec in a run. -/
def jobIdOf (run : Run) (spec : BatchSpec) : String :=
  deterministicJobId cfg.python run.fingerprint spec.phase spec.operationKey spec.sequence
    spec.artifact.sha256

/-- `enqueue_batch`: the stored or the new batch with its `manifest_failure`. -/
def enqueueBatch (s : SQLiteJournal) (runId : String) (spec : BatchSpec) (files : Files)
    (free : Int) (now : Time) : Except Failure ((Batch × List (String × Nat)) × SQLiteJournal) :=
  match s.getRun runId with
  | none => .error (.journal .invalidTransition "batch run does not exist" [])
  | some run =>
    if posixParts spec.artifact.relativePath ≠ [runId, spec.artifact.sha256 ++ ".jsonl"] then
      .error (.journal .invalidContract "artifact does not belong to the target run" [])
    else
      match readJsonl files spec.artifact with
      | .error e => .error e
      | .ok rows =>
        let jobId := jobIdOf cfg run spec
        if s.productionComplete runId then
          .error (.journal .invalidTransition "batches cannot be enqueued after producer completion"
            [("run_id", .str runId)])
        else
          match s.getBatch jobId with
          | some duplicate => .ok ((duplicate, []), s)
          | none =>
            if run.status ≠ .opened then
              .error (.journal .invalidTransition "batches may only be enqueued into an open run" [])
            else
              match admitRun cfg (s.batches.countP (fun b => b.runId == runId) + 1)
                  (s.payloadBytes runId + spec.artifact.byteCount) free with
              | .error e => .error e
              | .ok () => insertBatch cfg s run spec jobId rows now

/-! ## Barriers -/

/-- `open_barrier`. -/
def openBarrier (s : SQLiteJournal) (runId name : String) : Except Failure (Barrier × SQLiteJournal) :=
  if blank name then .error (.value "barrier name must not be empty")
  else if s.runStatus runId ≠ some .opened then
    .error (.journal .invalidTransition "barriers may only be opened for an open run" [])
  else
    match s.getBarrier runId name with
    | some barrier => .ok (barrier, s)
    | none =>
      .ok (newBarrier runId name 0, { s with barriers := s.barriers ++ [newBarrier runId name 0] })

/-- The status `close_barrier` gives. -/
def Barrier.close (now : Time) (b : Barrier) : Barrier :=
  { b with
           status := if b.drainedCount = b.producedCount then .drained else .produced,
           closedAt := some now }

/-- `close_barrier`. -/
def closeBarrier (s : SQLiteJournal) (runId name : String) (now : Time) :
    Except Failure (Barrier × SQLiteJournal) :=
  match s.getBarrier runId name with
  | none => .error (.journal .invalidContract "barrier does not exist" [])
  | some barrier =>
    if barrier.status = .drained then .ok (barrier, s)
    else if s.runStatus runId ≠ some .opened then
      .error (.journal .invalidTransition "barriers may only be closed for an open run" [])
    else
      let s := s.updateBarrier runId name (Barrier.close now)
      .ok (barrier.close now,
        if barrier.drainedCount = barrier.producedCount then
          s.addEvent { runId, eventType := .barrierReached,
                       counters := [("produced", barrier.producedCount)], createdAt := now }
        else s)

/-! ## Producer completion -/

/-- `disposition IN (CONFLICT, REJECTED)`. -/
def ManifestDisposition.invalid : ManifestDisposition → Bool
  | .conflict | .rejected => true
  | _ => false

/-- The rows of one run that `complete_producers` refuses. -/
def invalidRows (rows : List ManifestRow) (runId : String) : Nat :=
  rows.countP fun m => m.runId == runId && m.disposition.invalid

/-- The producer rows after completion: every open row closed, and the marker. -/
def closeProducers (producers : List Producer) (runId : String) : List Producer :=
  updateWhere (fun p => p.runId == runId && p.status == .opened)
      (fun p => { p with status := .complete }) producers ++
    [{ runId, producerId := producersCompleteId, status := .complete }]

/-- `complete_producers`. A producer that took the marker's own id violates the primary key. -/
def completeProducers (s : SQLiteJournal) (runId : String) (now : Time) :
    Except Failure (Nat × SQLiteJournal) :=
  let conflicts := invalidRows s.nodeManifest runId + invalidRows s.edgeManifest runId
  if s.runStatus runId ≠ some .opened then
    .error (.journal .invalidTransition "producers may only complete for an open run" [])
  else if conflicts ≠ 0 then
    .error (.journal .invalidContract
      "manifest conflicts or rejected rows prevent producer completion"
      [("invalid_rows", .int conflicts)])
  else if s.productionComplete runId then .ok (0, s)
  else if (s.getProducer runId producersCompleteId).isSome then
    .error (integrityError ("UNIQUE constraint failed: producer_completion.run_id, " ++
      "producer_completion.producer_id"))
  else
    let completed := s.producers.countP fun p => p.runId == runId && p.status == .opened
    .ok (completed,
      { s with producers := closeProducers s.producers runId }.addEvent
        { runId, eventType := .producersCompleted, counters := [("producers", completed)],
          createdAt := now })

end CortexHarness.Journal
