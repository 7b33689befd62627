import CortexHarness.Journal.Client

/-!
# The inline producer

Model of `GraphWriteJournalRuntime` (`runtime.py:39-295`): opening a run, the barrier contract of an
operation, `prepare` and `close_node_production`, as programs of a client. The analyzer that drives
a runtime is a list of calls; an exception of one call reaches the analyzer, which may go on.
-/

namespace CortexHarness.Journal

open Clients

/-- `NODE_FIRST_QUERY_SHAPE`. -/
def nodeFirstQueryShape : String := "language-writer-node-first-v1"

/-- `NODE_PHASE_BARRIER`. -/
def nodePhaseBarrier : String := "phase:nodes"

/-- `ENDPOINT_AUDIT_BARRIER`. -/
def endpointAuditBarrier : String := "audit:endpoints"

/-- `JournalTicket`. -/
structure JournalTicket where
  batch : Batch
  execute : Bool
  operation : GraphWriteOperation
  rows : List Json
  reconcile : Bool := false

/-- A key of `_node_barriers`. -/
structure NodeKey where
  scope : String
  label : String
  property : String
  identity : String
  deriving Repr, DecidableEq

/-- `GraphWriteJournalRuntime`. `nodeBarriers` is the dictionary `_node_barriers`, newest entry
first. -/
structure GraphWriteJournalRuntime where
  config : JournalConfig
  run : Run
  nodeBarriers : List (NodeKey × String) := []

/-- `node_first`. -/
def JournalConfig.nodeFirst (config : JournalConfig) : Bool :=
  config.metadata.queryShapeVersion == nodeFirstQueryShape

namespace GraphWriteJournalRuntime

variable (py : Python)

/-- `__init__`. -/
def init (config : JournalConfig) : Client GraphWriteJournalRuntime := do
  match ← call fun i => .openRun config.metadata 0 0 i.free i.now with
  | .run (some run) =>
    let _ ← call fun i => .recoverRunLeasesAsAmbiguous run.runId i.now
    if config.nodeFirst then
      let _ ← call fun i => .openBarrier run.runId nodePhaseBarrier i.now
      let _ ← call fun i => .openBarrier run.runId endpointAuditBarrier i.now
      return { config, run }
    else return { config, run }
  | _ => .raise (.other .terminal)

/-! ## The barrier contract -/

variable (rt : GraphWriteJournalRuntime)

/-- `scope`, as the rows of every kind compute it. -/
def scope (row : Json) : String := scopeOf py row (py.casefold rt.run.metadata.projectId)

/-- `self._node_barriers.get(key)`; an empty name counts as missing. -/
def dependency (key : NodeKey) : Option String :=
  ((rt.nodeBarriers.find? fun e => e.1 == key).map Prod.snd).filter (· != "")

/-- The endpoint of a self-describing edge row. -/
def endpointKey (row : Json) (labelKey propertyKey identityKey : String) : NodeKey :=
  ⟨rt.scope py row, py.str ((row.get? labelKey).getD .null), py.strOr (row.get? propertyKey) "id",
    ((row.get? identityKey).getD .null).dumps⟩

/-- The endpoints whose barriers a row of the given reconciliation kind depends on. -/
def endpointKeys (reconciliation : String) (row : Json) : List NodeKey :=
  if reconciliation = "typed_relationship" ∨ reconciliation = "evidence_edge" then
    [rt.endpointKey py row "source_label" "source_property" "source_id",
      rt.endpointKey py row "target_label" "target_property" "target_id"]
  else if reconciliation = "repository_file" then
    [⟨rt.scope py row, "File", "id", ((row.get? "id").getD .null).dumps⟩]
  else if reconciliation = "call_edge" ∨ reconciliation = "call_site" ∨
      reconciliation = "possible_call_site" then
    [⟨rt.scope py row, "Function", "id", ((row.get? "caller_id").getD .null).dumps⟩,
      ⟨rt.scope py row, "Function", "id", ((row.get? "callee_id").getD .null).dumps⟩]
  else []

/-- The node that an operation upserts: its label and its identity property, when both are there. -/
def nodeShape (operation : GraphWriteOperation) : Option (String × String) :=
  match operation.nodeLabel, operation.identityProperty with
  | some label, some property =>
    if operation.reconciliation = "node_identity" ∧ label ≠ "" ∧ property ≠ "" then
      some (label, property)
    else none
  | _, _ => none

/-- The barrier of one node batch. -/
def nodeBarrier (label : String) (sequence : Nat) (sha256 : String) : String :=
  "node:" ++ label ++ ":" ++ toString sequence ++ ":" ++ String.ofList (sha256.toList.take 16)

/-- The entries that a node batch adds to `_node_barriers`. -/
def nodeEntries (operation : GraphWriteOperation) (label property barrier : String)
    (rows : List Json) : List (NodeKey × String) :=
  rows.filterMap fun row =>
    match row.get? operation.rowIdentityProperty with
    | none => none
    | some .null => none
    | some identity => some (⟨rt.scope py row, label, property, identity.dumps⟩, barrier)

/-- `_barrier_contract`: the required and the produced barriers, and the runtime with its new
entries. -/
def barrierContract (operation : GraphWriteOperation) (rows : List Json) (sequence : Nat)
    (sha256 : String) : List String × List String × GraphWriteJournalRuntime :=
  let (required, produced, rt') :=
    match nodeShape operation with
    | some (label, property) =>
      let barrier := nodeBarrier label sequence sha256
      ([], [barrier], { rt with nodeBarriers :=
        (rt.nodeEntries py operation label property barrier rows).reverse ++ rt.nodeBarriers })
    | none =>
      (rows.flatMap fun row => (rt.endpointKeys py operation.reconciliation row).filterMap
        rt.dependency, [], rt)
  if rt.config.nodeFirst then
    if operation.phase = .nodes then
      (sortedSet required, sortedSet (nodePhaseBarrier :: produced), rt')
    else (sortedSet (nodePhaseBarrier :: endpointAuditBarrier :: required), produced, rt')
  else (sortedSet required, produced, rt')

/-! ## `prepare` -/

/-- The arguments of `prepare`. -/
structure PrepareCall where
  label : String
  rows : List Json
  sequence : Nat
  operation : Option GraphWriteOperation := none
  additionalRequiredBarriers : List String := []
  defer : Bool := false

/-- Close the barriers that only this batch produces. -/
def closeBarriers (runId : String) : List String → Client Unit
  | [] => return ()
  | name :: names => do
    if name ≠ nodePhaseBarrier then
      let _ ← call fun i => .closeBarrier runId name i.now
      closeBarriers runId names
    else closeBarriers runId names

/-- The end of `prepare`: the ticket of the stored batch. -/
def ticket (a : PrepareCall) (operation : GraphWriteOperation) (batch : Batch) :
    Client JournalTicket := do
  let defer := a.defer || (rt.config.nodeFirst && operation.phase != .nodes)
  if batch.status = .done ∨ defer = true then
    return { batch, execute := false, operation, rows := a.rows }
  else if batch.status = .blocked ∨ batch.status = .deadLetter then
    .raise (journalError (batch.errorCode.getD .invalidTransition)
      ("journal batch " ++ batch.jobId ++ " is terminal (" ++ batch.status.value ++ ")"))
  else if batch.status = .reconciling then
    match ← claimBatchRecord fun i =>
        .claimReconcilingJob batch.jobId rt.config.leaseSeconds i.token i.now with
    | some reconciliation =>
      return { batch := reconciliation, execute := false, operation, rows := a.rows,
               reconcile := true }
    | none => .raise (journalError .invalidTransition
        ("cannot fence reconciliation for " ++ batch.jobId))
  else
    match ← claimBatchRecord fun i =>
        .claimJob batch.jobId rt.config.leaseSeconds i.token i.now with
    | some claimed => return { batch := claimed, execute := true, operation, rows := a.rows }
    | none =>
      match (← Prog.perform (.getBatch batch.jobId) : Option Batch) with
      | some current =>
        if current.status = .done then
          return { batch := current, execute := false, operation, rows := a.rows }
        else .raise (journalError .invalidTransition
          ("journal batch " ++ batch.jobId ++ " cannot be claimed"))
      | none => .raise (journalError .invalidTransition
          ("journal batch " ++ batch.jobId ++ " cannot be claimed"))

/-- The middle of `prepare`: enqueue the batch under its barrier contract. -/
def enqueue (a : PrepareCall) (operation : GraphWriteOperation) (artifact : ArtifactRef)
    (required produced : List String) : Client JournalTicket := do
  let spec ← Prog.ofExcept ((BatchSpec.make py operation.phase operation.operationKey a.sequence
    artifact a.rows.length (sortedSet (required ++ a.additionalRequiredBarriers)) produced
    rt.config.maxAttempts operation.toDict).mapError .failure)
  match ← callBatch fun i => .enqueueBatch rt.run.runId spec i.files i.free i.now with
  | some batch =>
    closeBarriers rt.run.runId produced
    rt.ticket a operation batch
  | none => .raise (.other .terminal)

/-- `operation or GraphWriteOperation.for_label(label)`, and the checks before any call. -/
def operationOf (a : PrepareCall) : Except Raised GraphWriteOperation := do
  let operation ← match a.operation with
    | some operation => .ok operation
    | none => (GraphWriteOperation.forLabel py a.label).mapError .failure
  if rt.config.shadow then .error (.other .terminal)
  else if operation.reconciliation = "unsupported" then
    .error (journalError .invalidContract
      ("operation " ++ operation.operationKey ++ " has no trusted recovery compiler"))
  else .ok operation

/-- `prepare`: the ticket or the exception, and the runtime after it. -/
def prepare (a : PrepareCall) : Client (Except Raised JournalTicket × GraphWriteJournalRuntime) :=
  match rt.operationOf py a with
  | .error e => return (.error e, rt)
  | .ok operation => do
    match (← Prog.perform (.createArtifact rt.run.runId a.rows) : Except Failure ArtifactRef) with
    | .error e => return (.error (.failure e), rt)
    | .ok artifact =>
      let (required, produced, rt') :=
        rt.barrierContract py operation a.rows a.sequence artifact.sha256
      let ticket ← (rt'.enqueue py a operation artifact required produced).attempt
      return (ticket, rt')

/-- `close_node_production`. -/
def closeNodeProduction : Client Unit := do
  if rt.config.nodeFirst then
    let _ ← call fun i => .completeProducers rt.run.runId i.now
    let _ ← call fun i => .closeBarrier rt.run.runId nodePhaseBarrier i.now
    return ()
  else return ()

/-! ## The analyzer -/

/-- One call of the analyzer. -/
inductive RuntimeCall where
  | prepare (a : PrepareCall)
  | closeNodeProduction

/-- The calls of an analyzer, one after the other. -/
def produce (rt : GraphWriteJournalRuntime) : List RuntimeCall → Client Unit
  | [] => return ()
  | .prepare a :: calls => do
    let (_, rt') ← rt.prepare py a
    produce rt' calls
  | .closeNodeProduction :: calls => do
    let _ ← rt.closeNodeProduction.attempt
    produce rt calls

/-- A process: open the run, then produce. -/
def process (config : JournalConfig) (calls : List RuntimeCall) : Client Unit := do
  let rt ← init config
  rt.produce py calls

end GraphWriteJournalRuntime

end CortexHarness.Journal
