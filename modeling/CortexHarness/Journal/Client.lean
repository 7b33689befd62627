import CortexHarness.Journal.Exec
import CortexHarness.Journal.Operation
import CortexHarness.Library.Clients

/-!
# The journal's clients and the graph

What the programs of `runtime.py` and `consumer.py` run against: the journal, the graph, and the
commands they perform on them. One command is one transaction of the journal, one read of it, one
access to the artifact files, or one query of the graph; everything it reads from outside is its
`Input`.

* A guarded `execute_query` (`guard.py:48-138`) commits the mutation together with its
  `GraphWriteReceipt`, or commits nothing; it can raise after it has committed (`Submission`).
* The readback of `reconcile.py:76-104` counts the receipts that agree on all six properties.
* `history` records the submissions and the readbacks; no command reads it.

The Cypher compilers (`executor.py:20-152`, `reconcile.py:18-74`) are parameters: the programs hand
their texts to the driver.
-/

namespace CortexHarness.Journal

open Clients

/-! ## The graph -/

/-- A `GraphWriteReceipt` node, without `applied_at`. -/
structure Receipt where
  jobId : String
  operationKey : String
  rowCount : Nat
  artifactSha256 : String
  runId : String
  generation : String
  deriving Repr, DecidableEq

/-- What happened at the graph. `held` tells whether the lease of a submission was the stored one. -/
inductive GraphEvent where
  | submitted (jobId lease : String) (held : Bool)
  | committed (receipt : Receipt)
  | readback (jobId : String) (count : Nat)
  deriving Repr, DecidableEq

/-- The receipts in the graph, and its history. -/
structure Graph where
  receipts : List Receipt := []
  history : List GraphEvent := []
  deriving Repr

/-- `MERGE (receipt:GraphWriteReceipt \x7bid\x7d) SET …`. -/
def mergeReceipt (r : Receipt) (receipts : List Receipt) : List Receipt :=
  if receipts.any fun x => x.jobId == r.jobId then
    receipts.map fun x => if x.jobId = r.jobId then r else x
  else receipts ++ [r]

/-- A compiled query. -/
structure Query where
  text : String
  parameters : List (String × Json)

/-- A mutation inside `journaled_mutation`. `lease` is the token of the batch record it was
compiled from; the guard does not send it. -/
structure Mutation where
  query : Query
  jobId : String
  operationKey : String
  artifactSha256 : String
  runId : String
  generation : String
  lease : String

def Mutation.receipt (m : Mutation) (rowCount : Nat) : Receipt :=
  ⟨m.jobId, m.operationKey, rowCount, m.artifactSha256, m.runId, m.generation⟩

/-! ## Exceptions -/

/-- What a client program raises: an exception of the journal, or any other, known by the class that
`classify_error` gives it. -/
inductive Raised where
  | failure (f : Failure)
  | other (retryClass : RetryClass)
  deriving Repr

/-- A `JournalError`. -/
def journalError (code : TerminalErrorCode) (message : String) : Raised :=
  .failure (.journal code message [])

/-- `classify_error`. -/
def classifyError : Raised → RetryClass
  | .failure (.journal code _ _) =>
    match code with
    | .artifactHashMismatch | .journalCorrupt => .integrity
    | .incompatibleSchema | .invalidContract => .incompatible
    | _ => .terminal
  | .failure (.value _) => .terminal
  | .other retryClass => retryClass

/-- What becomes of a submitted mutation. -/
inductive Submission where
  /-- it commits and returns its count -/
  | commits (count : Nat)
  /-- it commits, and the call raises -/
  | loses (count : Nat) (error : Raised)
  /-- nothing is committed -/
  | refuses (error : Raised)

/-! ## Configuration -/

/-- The fields of `JournalConfig` the programs read. -/
structure JournalConfig where
  required : Bool := true
  shadow : Bool := false
  metadata : RunMetadata
  leaseSeconds : Int := 300
  maxAttempts : Nat := 5
  retryBaseSeconds : Int := 1
  retryMaxSeconds : Int := 60

/-- The Cypher compilers. -/
structure Compilers where
  /-- `compile_persisted_mutation` -/
  persistedMutation : GraphWriteOperation → List Json → Except Raised Query
  /-- `compile_endpoint_audit` -/
  endpointAudit : GraphWriteOperation → List Json → Except Raised (Option Query)

/-! ## Commands -/

/-- What one command reads from outside. -/
structure Input where
  now : Time
  /-- `secrets.token_hex(…)` -/
  token : String
  /-- the instant of a retry: `datetime.now`, or `retry_at` with its random jitter -/
  retryAt : Time
  free : Int
  files : Files
  /-- what `write_jsonl` returns -/
  artifact : Except Failure ArtifactRef
  submission : Submission
  /-- the exception of a reading query -/
  outage : Option Raised
  /-- the rows an endpoint audit returns -/
  auditRows : List Json
  elapsedMs : Int

/-- One command of a client. -/
inductive Command where
  /-- one transaction of the journal -/
  | journal (call : Input → Op)
  | getRun (runId : String)
  | getBatch (jobId : String)
  | getBarrier (runId name : String)
  | listBatches (runId : String)
  | endpointAuditStatus (runId : String)
  /-- `create_artifact` -/
  | createArtifact (runId : String) (rows : List Json)
  /-- the artifact files, as `read_jsonl` finds them -/
  | readFiles
  /-- a guarded mutation -/
  | submit (mutation : Mutation)
  /-- the readback of a receipt -/
  | readback (receipt : Receipt)
  | audit (query : Query)

/-- What a command returns. -/
abbrev Command.Result : Command → Type
  | .journal _ => Except Failure Reply
  | .getRun _ => Option Run
  | .getBatch _ => Option Batch
  | .getBarrier _ _ => Option Barrier
  | .listBatches _ => List Batch
  | .endpointAuditStatus _ => Except Failure (Option String)
  | .createArtifact _ _ => Except Failure ArtifactRef
  | .readFiles => Files
  | .submit _ => Except Raised Nat
  | .readback _ => Except Raised Nat
  | .audit _ => Except Raised (List Json)

/-- The journal, the graph, and the tokens drawn so far. -/
structure Shared where
  journal : SQLiteJournal := .empty
  graph : Graph := {}
  drawn : List String := []

/-- `list_batches`. -/
def SQLiteJournal.listBatches (s : SQLiteJournal) (runId : String) : List Batch :=
  (s.batches.filter fun b => b.runId == runId).insertionSort claimOrder

/-- `create_artifact`; `written` is what `write_jsonl` returns. -/
def createArtifact (s : SQLiteJournal) (runId : String) (written : Except Failure ArtifactRef) :
    Except Failure ArtifactRef :=
  match s.runStatus runId with
  | some .opened => written
  | some .draining => written
  | some .drained => written
  | _ => .error (.journal .invalidTransition
      "artifacts may only be created for a compatible replayable run" [])

/-- The token is the stored one of the batch. -/
def SQLiteJournal.holds (s : SQLiteJournal) (jobId token : String) : Bool :=
  s.batches.any fun b => b.jobId == jobId && b.fencingToken == some token

/-- The receipts and the reply of a submission. -/
def Submission.apply (m : Mutation) (receipts : List Receipt) :
    Submission → Except Raised Nat × Option Receipt × List Receipt
  | .commits count => (.ok count, some (m.receipt count), mergeReceipt (m.receipt count) receipts)
  | .loses count e => (.error e, some (m.receipt count), mergeReceipt (m.receipt count) receipts)
  | .refuses e => (.error e, none, receipts)

/-- The graph after a submission. -/
def Graph.submit (g : Graph) (m : Mutation) (held : Bool) (submission : Submission) :
    Except Raised Nat × Graph :=
  let (reply, committed, receipts) := submission.apply m g.receipts
  (reply, { receipts, history := g.history ++ .submitted m.jobId m.lease held ::
    committed.toList.map .committed })

/-- A reading query, which the driver can fail. -/
def Graph.readback (g : Graph) (r : Receipt) (outage : Option Raised) : Except Raised Nat × Graph :=
  match outage with
  | some e => (.error e, g)
  | none =>
    let count := g.receipts.countP fun x => decide (x = r)
    (.ok count, { g with history := g.history ++ [.readback r.jobId count] })

variable (cfg : Config)

/-- Perform one command. -/
def perform (s : Shared) (i : Input) : (c : Command) → c.Result × Shared
  | .journal call =>
    let outcome := exec cfg s.journal (call i)
    (outcome.1, { s with journal := outcome.2, drawn := (call i).claimToken.toList ++ s.drawn })
  | .getRun runId => (s.journal.getRun runId, s)
  | .getBatch jobId => (s.journal.getBatch jobId, s)
  | .getBarrier runId name => (s.journal.getBarrier runId name, s)
  | .listBatches runId => (s.journal.listBatches runId, s)
  | .endpointAuditStatus runId => (endpointAuditStatus cfg s.journal runId, s)
  | .createArtifact runId _ => (createArtifact s.journal runId i.artifact, s)
  | .readFiles => (i.files, s)
  | .submit m =>
    let outcome := s.graph.submit m (s.journal.holds m.jobId m.lease) i.submission
    (outcome.1, { s with graph := outcome.2 })
  | .readback r =>
    let outcome := s.graph.readback r i.outage
    (outcome.1, { s with graph := outcome.2 })
  | .audit _ =>
    (match i.outage with
      | some e => .error e
      | none => .ok i.auditRows, s)

/-! ## Programs -/

/-- A program of a client. -/
abbrev Client := Prog Command Command.Result Raised

/-- One call of the journal; an exception is raised. -/
def call (op : Input → Op) : Client Reply :=
  .call (.journal op) fun
    | .ok reply => .ret reply
    | .error e => .raise (.failure e)

/-- A call that returns a batch record, if any. -/
def callBatch (op : Input → Op) : Client (Option Batch) := do
  match ← call op with
  | .batch b => return b
  | _ => return none

theorem call_only {P : Command → Prop} {op : Input → Op} (h : P (.journal op)) :
    (call op).Only P := by
  refine ⟨h, fun r => ?_⟩
  cases r <;> trivial

theorem callBatch_only {P : Command → Prop} {op : Input → Op} (h : P (.journal op)) :
    (callBatch op).Only P := by
  refine .bind (call_only h) fun r => ?_
  cases r <;> trivial

/-- A claim: the record it returns has a token that is not empty. -/
def claimBatchRecord (op : Input → Op) : Client (Option Batch) := do
  return (← callBatch op).filter fun b => b.fencingToken.any (· != "")

end CortexHarness.Journal
