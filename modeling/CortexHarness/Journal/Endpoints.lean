import CortexHarness.Journal.NodeFirstClients
import CortexHarness.Library.Executions
import Mathlib.Data.List.Find

/-!
# Endpoint barriers of a runtime

A runtime remembers which node batch carried an identity last, and an edge batch requires the barriers
of its endpoints. Here one runtime prepares batch after batch (`PrepareRun`) while other clients work
on the same journal.

Results:
* `PrepareRun.state`: the dictionary holds the entries of every contract that was made, in order;
* `endpoint_barriers_iff`: when the stored edge batch waits for the latest node batch of each
  endpoint. A scope given as a raw `project_id` is neither stripped nor casefolded, so it misses the
  node batch that spells it otherwise; a batch that was stored before keeps its old barriers; a node
  batch that could not be stored hides an earlier one.
-/

namespace CortexHarness.Journal.GraphWriteJournalRuntime

open Clients Table

variable (cfg : Config) (rt : GraphWriteJournalRuntime)

/-! ## Calls of `prepare` -/

/-- A call of `prepare` that returned, with the commands it performed. -/
structure Prepared where
  call : PrepareCall
  log : List (Performed Shared Input Command)

/-- The artifact that a command wrote. -/
def artifactOf (x : Performed Shared Input Command) : Option ArtifactRef :=
  match x.command with
  | .createArtifact runId _ => (createArtifact x.state.journal runId x.input.artifact).toOption
  | _ => none

/-- The batch that a command enqueued. -/
def storedBy (x : Performed Shared Input Command) : Option Batch :=
  match x.command with
  | .journal op =>
    match op x.input with
    | .enqueueBatch runId spec files free now =>
      match (exec cfg x.state.journal (.enqueueBatch runId spec files free now)).1 with
      | .ok (.batch b) => b
      | _ => none
    | _ => none
  | _ => none

namespace Prepared

variable (p : Prepared)

/-- The operation and the artifact of a call that came to its barrier contract. -/
def contract : Option (GraphWriteOperation × ArtifactRef) :=
  match rt.operationOf cfg.python p.call with
  | .ok operation => (p.log.findSome? artifactOf).map fun artifact => (operation, artifact)
  | .error _ => none

/-- The batch that the call stored or found, and the journal before that. -/
def stored : Option (SQLiteJournal × Batch) :=
  p.log.findSome? fun x => (storedBy cfg x).map fun b => (x.state.journal, b)

/-- The identities that the rows of a node batch carry, each with the barrier of the batch. -/
def carried : List (NodeKey × String) :=
  match p.contract cfg rt with
  | some (operation, artifact) =>
    match nodeShape operation with
    | some (label, property) =>
      rt.nodeEntries cfg.python operation label property
        (nodeBarrier label p.call.sequence artifact.sha256) p.call.rows
    | none => []
  | none => []

/-- The endpoints of the rows of an edge batch. -/
def endpoints : List NodeKey :=
  match rt.operationOf cfg.python p.call with
  | .ok operation => p.call.rows.flatMap (rt.endpointKeys cfg.python operation.reconciliation)
  | .error _ => []

end Prepared

/-- One runtime prepares batch after batch. -/
inductive PrepareRun : List Prepared → GraphWriteJournalRuntime → Prop
  | nil : PrepareRun [] rt
  | snoc {runs : List Prepared} {rt₁ rt₂ : GraphWriteJournalRuntime} {p : Prepared}
      {result : Except Raised JournalTicket} (h : PrepareRun runs rt₁)
      (hexec : Executes (perform cfg) (fun s => Reachable cfg s.journal)
        (rt₁.prepare cfg.python p.call) p.log (.ok (result, rt₂))) :
      PrepareRun (runs ++ [p]) rt₂

/-! ## The latest carrier of an endpoint -/

/-- The key with its project as `project_id_lookup_key` normalizes it. -/
def normalizedKey (key : NodeKey) : NodeKey :=
  { key with scope := cfg.python.casefold (strip key.scope) }

/-- The last entry under a key. -/
def lastBarrier (same : NodeKey → Bool) (entries : List (NodeKey × String)) : Option String :=
  (entries.reverse.find? fun e => same e.1).map Prod.snd

/-- The barrier of the latest node batch that was stored and carried the node of the key. -/
def latestStored (runs : List Prepared) (key : NodeKey) : Option String :=
  lastBarrier (fun k => decide (normalizedKey cfg k = normalizedKey cfg key))
    ((runs.filter fun p => (p.stored cfg).isSome).flatMap (Prepared.carried cfg rt))

/-- The barrier of the latest contract that carried the key with its scope in the same spelling. -/
def latestSpelled (runs : List Prepared) (key : NodeKey) : Option String :=
  lastBarrier (· == key) (runs.flatMap (Prepared.carried cfg rt))

/-- The batch waits for the node batches that produce the barrier. -/
structure Awaits (b : Batch) (barrier : String) : Prop where
  required : barrier ∈ b.requiredBarriers
  done : ∀ s op, Reachable cfg s → ∀ b' ∈ s.batches, b'.toBatchCore = b.toBatchCore →
    leasedJob cfg s op = some b'.jobId →
    ∀ c ∈ s.batches, c.runId = b.runId → barrier ∈ c.producedBarriers → c.status = .done

/-- The barrier is among those the edge batch is stored with. -/
def Stored (runs : List Prepared) (edge : Prepared) (s : SQLiteJournal) (jobId barrier : String) :
    Prop :=
  match s.getBatch jobId with
  | some old => barrier ∈ old.requiredBarriers
  | none => barrier ∈ edge.call.additionalRequiredBarriers ∨
      ∃ key ∈ edge.endpoints cfg rt, latestSpelled cfg rt runs key = some barrier

variable {cfg rt} {py : Python} {operation : GraphWriteOperation} {rows : List Json}
  {sequence : Nat} {sha256 barrier : String} {key : NodeKey}

/-! ## One contract -/

theorem nodeShape_reconciliation {shape : String × String} (h : nodeShape operation = some shape) :
    operation.reconciliation = "node_identity" := by
  unfold nodeShape at h
  split at h
  · split at h
    · next hs => exact hs.1
    · cases h
  · cases h

/-- The entries that one contract adds to the dictionary. -/
def contractEntries (py : Python) (rt : GraphWriteJournalRuntime) (operation : GraphWriteOperation)
    (rows : List Json) (sequence : Nat) (sha256 : String) : List (NodeKey × String) :=
  match nodeShape operation with
  | some (label, property) =>
    rt.nodeEntries py operation label property (nodeBarrier label sequence sha256) rows
  | none => []

theorem barrierContract_state : (rt.barrierContract py operation rows sequence sha256).2.2 =
    { rt with nodeBarriers :=
      (contractEntries py rt operation rows sequence sha256).reverse ++ rt.nodeBarriers } := by
  unfold barrierContract contractEntries
  cases nodeShape operation with
  | none =>
    simp only [List.reverse_nil, List.nil_append]
    split_ifs <;> rfl
  | some shape =>
    simp only
    split_ifs <;> rfl

theorem endpointKeys_node (h : operation.reconciliation = "node_identity") (row : Json) :
    rt.endpointKeys py operation.reconciliation row = [] := by
  unfold endpointKeys
  rw [h, if_neg (by decide), if_neg (by decide), if_neg (by decide)]

theorem mem_required (hphase : barrier ≠ nodePhaseBarrier) (haudit : barrier ≠ endpointAuditBarrier) :
    barrier ∈ (rt.barrierContract py operation rows sequence sha256).1 ↔
      ∃ key ∈ rows.flatMap (rt.endpointKeys py operation.reconciliation),
        rt.dependency key = some barrier := by
  unfold barrierContract
  cases hs : nodeShape operation with
  | none =>
    simp only
    split
    · split
      · simp [mem_sortedSet, List.mem_flatMap]
        tauto
      · simp [mem_sortedSet, hphase, haudit, List.mem_flatMap]
        tauto
    · simp [mem_sortedSet, List.mem_flatMap]
      tauto
  | some shape =>
    have hnone (row : Json) : rt.endpointKeys py operation.reconciliation row = [] :=
      endpointKeys_node (nodeShape_reconciliation hs) row
    simp only
    split
    · split
      · simp [mem_sortedSet, hnone]
      · simp [mem_sortedSet, hphase, haudit, hnone]
    · simp [mem_sortedSet, hnone]

/-! ## One call -/

/-- The command neither writes an artifact nor enqueues a batch. -/
def Quiet (c : Command) : Prop :=
  match c with
  | .createArtifact _ _ => False
  | .journal op => ∀ i runId spec files free now, op i ≠ .enqueueBatch runId spec files free now
  | _ => True

theorem artifactOf_quiet {x : Performed Shared Input Command} (h : Quiet x.command) :
    artifactOf x = none := by
  obtain ⟨s, i, c⟩ := x
  cases c <;> first | rfl | exact absurd h id

theorem storedBy_quiet {x : Performed Shared Input Command} (h : Quiet x.command) :
    storedBy cfg x = none := by
  obtain ⟨s, i, c⟩ := x
  cases c with
  | journal op =>
    unfold storedBy
    dsimp only
    split
    · next hop => exact absurd hop (h i _ _ _ _ _)
    · rfl
  | _ => rfl

theorem closeBarriers_quiet (names : List String) :
    (closeBarriers rt.run.runId names).Only Quiet := by
  induction names with
  | nil => trivial
  | cons name names ih =>
    simp only [closeBarriers]
    split
    · exact .bind (call_only fun i _ _ _ _ _ h => by cases h) fun _ => ih
    · exact ih

theorem ticket_quiet (a : PrepareCall) (operation : GraphWriteOperation) (batch : Batch) :
    (rt.ticket a operation batch).Only Quiet := by
  simp only [ticket]
  split
  · trivial
  · split
    · trivial
    · split
      · refine .bind (.bind (callBatch_only fun i _ _ _ _ _ h => by cases h) fun _ => trivial)
          fun r => ?_
        split <;> trivial
      · refine .bind (.bind (callBatch_only fun i _ _ _ _ _ h => by cases h) fun _ => trivial)
          fun r => ?_
        split
        · trivial
        · refine .bind (.perform trivial) fun r => ?_
          split
          · split <;> trivial
          · trivial

variable {a : PrepareCall} {artifact : ArtifactRef} {required produced : List String}
  {log : List (Performed Shared Input Command)} {s : SQLiteJournal} {b : Batch}

theorem callBatch_log {op : Input → Op} {inv : Shared → Prop} {out : Except Raised (Option Batch)}
    (h : Executes (perform cfg) inv (callBatch op) log out) :
    ∃ s i, log = [⟨s, i, .journal op⟩] := by
  unfold callBatch call at h
  simp only [Prog.bind_def, Prog.bind] at h
  cases h with
  | @call s i _ _ log _ hs h =>
    refine ⟨s, i, ?_⟩
    cases hr : (perform cfg s i (.journal op)).1 with
    | error e =>
      rw [hr] at h
      cases h
      rfl
    | ok reply =>
      rw [hr] at h
      cases reply <;>
      · cases h
        rfl

theorem storedBy_some {x : Performed Shared Input Command} (h : storedBy cfg x = some b) :
    ∃ op runId spec files free now t, x.command = .journal op ∧
      op x.input = .enqueueBatch runId spec files free now ∧
      enqueueBatch cfg x.state.journal runId spec files free now = .ok ((b, []), t) := by
  obtain ⟨s, i, c⟩ := x
  unfold storedBy at h
  dsimp only at h
  split at h
  · next op =>
    split at h
    · next runId spec files free now hop =>
      split at h
      · next b' hexec =>
        subst h
        refine ⟨op, runId, spec, files, free, now, ?_⟩
        simp only [exec, enqueueReply] at hexec
        split at hexec
        · next b' t henq =>
          cases hexec
          exact ⟨t, rfl, hop, henq⟩
        · cases hexec
        · cases hexec
      · cases h
    · cases h
  · cases h

theorem enqueue_inv {inv : Shared → Prop} {out : Except Raised JournalTicket}
    (h : Executes (perform cfg) inv (rt.enqueue py a operation artifact required produced) log out) :
    (∀ x ∈ log, artifactOf x = none) ∧ ∀ x ∈ log, storedBy cfg x = some b →
      ∃ spec files free now t,
        spec.requiredBarriers = sortedSet (sortedSet (required ++ a.additionalRequiredBarriers)) ∧
        enqueueBatch cfg x.state.journal rt.run.runId spec files free now = .ok ((b, []), t) := by
  unfold enqueue at h
  cases hspec : BatchSpec.make py operation.phase operation.operationKey a.sequence artifact
      a.rows.length (sortedSet (required ++ a.additionalRequiredBarriers)) produced
      rt.config.maxAttempts operation.toDict with
  | error e =>
    rw [hspec] at h
    cases h
    exact ⟨fun _ hx => absurd hx List.not_mem_nil, fun _ hx => absurd hx List.not_mem_nil⟩
  | ok spec =>
    rw [hspec] at h
    simp only [Except.mapError, Prog.ofExcept, Prog.bind_def, Prog.bind] at h
    have hhead {x : Performed Shared Input Command} {s : Shared} {i : Input}
        (hx : x = ⟨s, i, .journal fun i =>
          .enqueueBatch rt.run.runId spec i.files i.free i.now⟩) :
        artifactOf x = none ∧ (storedBy cfg x = some b → ∃ spec files free now t,
          spec.requiredBarriers =
            sortedSet (sortedSet (required ++ a.additionalRequiredBarriers)) ∧
          enqueueBatch cfg x.state.journal rt.run.runId spec files free now = .ok ((b, []), t)) := by
      subst hx
      refine ⟨rfl, fun hb => ?_⟩
      obtain ⟨op, runId, spec', files, free, now, t, hc, hop, henq⟩ := storedBy_some hb
      cases hc
      cases hop
      exact ⟨spec, _, _, _, t, (BatchSpec.make_barriers hspec).2.1, henq⟩
    rcases h.bind_inv with ⟨e, -, hcall⟩ | ⟨log₁, r, log₂, rfl, hcall, hrest⟩
    · obtain ⟨s, i, rfl⟩ := callBatch_log hcall
      exact ⟨fun x hx => (hhead (List.mem_singleton.mp hx)).1,
        fun x hx => (hhead (List.mem_singleton.mp hx)).2⟩
    · obtain ⟨s, i, rfl⟩ := callBatch_log hcall
      have hquiet : ∀ x ∈ log₂, Quiet x.command := by
        split at hrest
        · exact hrest.only (.bind (closeBarriers_quiet _) fun _ => ticket_quiet ..)
        · cases hrest
          exact fun _ hx => absurd hx List.not_mem_nil
      constructor
      · intro x hx
        rcases List.mem_append.mp hx with hx | hx
        · exact (hhead (List.mem_singleton.mp hx)).1
        · exact artifactOf_quiet (hquiet x hx)
      · intro x hx hb
        rcases List.mem_append.mp hx with hx | hx
        · exact (hhead (List.mem_singleton.mp hx)).2 hb
        · rw [storedBy_quiet (hquiet x hx)] at hb
          cases hb

theorem carried_of_contract {p : Prepared} (h : p.contract cfg rt = some (operation, artifact)) :
    p.carried cfg rt = contractEntries cfg.python rt operation p.call.rows p.call.sequence
      artifact.sha256 := by
  rw [Prepared.carried, h]
  rfl

theorem carried_of_none {p : Prepared} (h : p.contract cfg rt = none) : p.carried cfg rt = [] := by
  rw [Prepared.carried, h]

/-- **One call of `prepare`**: what it adds to the dictionary, and the barriers of the batch it
stores. -/
theorem prepare_inv {inv : Shared → Prop} {p : Prepared} {result : Except Raised JournalTicket}
    {rt' : GraphWriteJournalRuntime}
    (h : Executes (perform cfg) inv (rt.prepare cfg.python p.call) p.log (.ok (result, rt'))) :
    rt' = { rt with nodeBarriers := (p.carried cfg rt).reverse ++ rt.nodeBarriers } ∧
    ∀ s b, p.stored cfg = some (s, b) →
      ∃ operation artifact, p.contract cfg rt = some (operation, artifact) ∧
      ∃ spec files free now t,
        spec.requiredBarriers = sortedSet (sortedSet ((rt.barrierContract cfg.python operation
          p.call.rows p.call.sequence artifact.sha256).1 ++ p.call.additionalRequiredBarriers)) ∧
        enqueueBatch cfg s rt.run.runId spec files free now = .ok ((b, []), t) := by
  unfold prepare at h
  cases hop : rt.operationOf cfg.python p.call with
  | error e =>
    rw [hop] at h
    generalize hlog : p.log = log at h
    cases h
    have hnone : p.contract cfg rt = none := by
      rw [Prepared.contract, hop]
    rw [carried_of_none hnone, Prepared.stored, hlog]
    exact ⟨rfl, fun _ _ hst => by cases hst⟩
  | ok operation =>
    rw [hop] at h
    generalize hlog : p.log = log at h
    simp only [Prog.bind_def, Prog.perform, Prog.bind] at h
    cases h with
    | @call s₀ i _ _ log' _ hs h =>
      have hfirst : artifactOf ⟨s₀, i, .createArtifact rt.run.runId p.call.rows⟩ =
          (createArtifact s₀.journal rt.run.runId i.artifact).toOption := rfl
      have hquiet : storedBy cfg ⟨s₀, i, .createArtifact rt.run.runId p.call.rows⟩ = none := rfl
      simp only [perform] at h
      cases hc : createArtifact s₀.journal rt.run.runId i.artifact with
      | error e =>
        rw [hc] at h hfirst
        cases h
        have hnone : p.contract cfg rt = none := by
          rw [Prepared.contract, hop, hlog]
          simp [hfirst, Except.toOption]
        rw [carried_of_none hnone, Prepared.stored, hlog]
        refine ⟨rfl, fun _ _ hst => ?_⟩
        simp [hquiet] at hst
      | ok artifact =>
        rw [hc] at h hfirst
        have hcontract : p.contract cfg rt = some (operation, artifact) := by
          rw [Prepared.contract, hop, hlog]
          simp [hfirst, Except.toOption]
        rw [carried_of_contract hcontract]
        have hstate := @barrierContract_state rt cfg.python operation p.call.rows p.call.sequence
          artifact.sha256
        simp only at h
        rcases h.bind_inv with ⟨e, he, -⟩ | ⟨log₁, ticket, log₂, rfl, hticket, hret⟩
        · cases he
        · cases hret
          refine ⟨hstate, fun s b hst => ⟨operation, artifact, hcontract, ?_⟩⟩
          obtain ⟨r, -, henqueue⟩ := hticket.attempt_inv
          rw [Prepared.stored, hlog, List.append_nil, List.findSome?_cons, hquiet] at hst
          obtain ⟨x, hx, hsome⟩ := List.exists_of_findSome?_eq_some hst
          obtain ⟨b', hb', he⟩ := Option.map_eq_some_iff.mp hsome
          cases he
          obtain ⟨spec, files, free, now, t, hreq, henq⟩ := (enqueue_inv henqueue).2 x hx hb'
          rw [hstate] at henq
          exact ⟨spec, files, free, now, t, hreq, henq⟩

/-! ## Runs -/

variable {rt' : GraphWriteJournalRuntime} {runs : List Prepared} {edge : Prepared}

/-- **The dictionary holds what every contract added, the newest first.** -/
theorem PrepareRun.state (h : PrepareRun cfg rt runs rt') :
    rt' = { rt with nodeBarriers :=
      (runs.flatMap (Prepared.carried cfg rt)).reverse ++ rt.nodeBarriers } := by
  induction h with
  | nil => rfl
  | @snoc runs rt₁ rt₂ p result _ hexec ih =>
    subst ih
    rw [(prepare_inv hexec).1, List.flatMap_append, List.reverse_append, List.flatMap_singleton,
      List.append_assoc]
    rfl

theorem nodeBarrier_ne_phase (label : String) (sequence : Nat) (sha256 : String) :
    nodeBarrier label sequence sha256 ≠ nodePhaseBarrier := by
  intro h
  have hl := congrArg String.toList h
  simp [nodeBarrier, nodePhaseBarrier] at hl

theorem nodeBarrier_ne_empty (label : String) (sequence : Nat) (sha256 : String) :
    nodeBarrier label sequence sha256 ≠ "" := by
  intro h
  have hl := congrArg String.toList h
  simp [nodeBarrier] at hl

theorem carried_barrier {p : Prepared} {e : NodeKey × String} (he : e ∈ p.carried cfg rt) :
    ∃ label sequence sha256, e.2 = nodeBarrier label sequence sha256 := by
  unfold Prepared.carried at he
  split at he
  · split at he
    · obtain ⟨row, -, hrow⟩ := List.mem_filterMap.mp he
      split at hrow
      · cases hrow
      · cases hrow
      · cases hrow
        exact ⟨_, _, _, rfl⟩
    · cases he
  · cases he

theorem lastBarrier_mem {same : NodeKey → Bool} {entries : List (NodeKey × String)}
    (h : lastBarrier same entries = some barrier) : ∃ e ∈ entries, e.2 = barrier := by
  obtain ⟨e, he, rfl⟩ := Option.map_eq_some_iff.mp h
  exact ⟨e, List.mem_reverse.mp (List.mem_of_find?_eq_some he), rfl⟩

theorem insertBatch_batch {run : Run} {spec : BatchSpec} {jobId : String} {now : Time}
    {t : SQLiteJournal} (h : insertBatch cfg s run spec jobId rows now = .ok ((b, []), t)) :
    b = spec.batch run.runId jobId now := by
  unfold insertBatch at h
  split at h
  · cases h
  · dsimp only at h
    split at h
    · cases h
    · split at h
      · split at h
        · cases h
        · cases h
          rfl
      · next hne =>
        cases h
        exact absurd rfl hne

/-- The dictionary lookup is the last entry in the same spelling. -/
theorem dependency_eq (h : PrepareRun cfg rt runs rt') (hfresh : rt.nodeBarriers = []) (key : NodeKey) :
    rt'.dependency key = latestSpelled cfg rt runs key := by
  rw [h.state]
  unfold dependency latestSpelled lastBarrier
  rw [hfresh, List.append_nil]
  cases hb : lastBarrier (· == key) (runs.flatMap (Prepared.carried cfg rt)) with
  | none =>
    unfold lastBarrier at hb
    rw [hb, Option.filter_none]
  | some barrier =>
    obtain ⟨e, he, hbarrier⟩ := lastBarrier_mem hb
    obtain ⟨p, -, hp⟩ := List.mem_flatMap.mp he
    obtain ⟨label, sequence, sha256, hnode⟩ := carried_barrier hp
    have hne := nodeBarrier_ne_empty label sequence sha256
    rw [← hnode, hbarrier] at hne
    unfold lastBarrier at hb
    rw [hb, Option.filter_some, if_pos (by simpa using hne)]

theorem endpoints_of_contract (h : edge.contract cfg rt = some (operation, artifact)) :
    edge.endpoints cfg rt =
      edge.call.rows.flatMap (rt.endpointKeys cfg.python operation.reconciliation) := by
  unfold Prepared.contract at h
  unfold Prepared.endpoints
  split at h
  · next op hop =>
    obtain ⟨_, -, he⟩ := Option.map_eq_some_iff.mp h
    cases he
    rfl
  · cases h

theorem endpoints_eq (h : PrepareRun cfg rt runs rt') :
    edge.endpoints cfg rt' = edge.endpoints cfg rt := by
  rw [h.state]
  rfl

theorem awaits_iff : Awaits cfg b barrier ↔ barrier ∈ b.requiredBarriers := by
  refine ⟨Awaits.required, fun h => ⟨h, fun s op hs b' hb' hcore hlease c hc hrun hproduced => ?_⟩⟩
  obtain ⟨b₀, _, hleased, hid⟩ := leasedJob_inv hlease
  obtain rfl : b₀ = b' := eq_of_keyed hs.inv.keys.batches hleased.mem hb' hid
  have hdrained := List.all_eq_true.mp hleased.drained barrier (by rwa [hcore])
  split at hdrained
  · next x hget =>
    obtain ⟨hx, hxrun, rfl⟩ := (getBarrier_some hs.inv.keys.barriers).mp hget
    exact done_of_drained hs.inv hs.barrierInv hx (by simpa using hdrained)
      (hxrun ▸ hleased.active) c hc (by rw [hxrun, hrun, hcore]) hproduced
  · cases hdrained

theorem required_iff (h : PrepareRun cfg rt (runs ++ [edge]) rt') (hfresh : rt.nodeBarriers = [])
    (hstored : edge.stored cfg = some (s, b)) (hphase : barrier ≠ nodePhaseBarrier)
    (haudit : barrier ≠ endpointAuditBarrier) :
    barrier ∈ b.requiredBarriers ↔ Stored cfg rt runs edge s b.jobId barrier := by
  generalize hruns : runs ++ [edge] = all at h
  cases h with
  | nil => exact absurd hruns (by simp)
  | @snoc runs' rt₁ _ p result hrun hexec =>
    obtain ⟨rfl, hp⟩ := List.append_inj' hruns rfl
    obtain rfl : edge = p := by simpa using hp
    obtain ⟨operation, artifact, hcontract, spec, files, free, now, t, hreq, henq⟩ :=
      (prepare_inv hexec).2 s b hstored
    have hkey := dependency_eq hrun hfresh
    have hendpoints : edge.endpoints cfg rt =
        edge.call.rows.flatMap (rt₁.endpointKeys cfg.python operation.reconciliation) := by
      rw [← endpoints_eq hrun]
      exact endpoints_of_contract hcontract
    obtain ⟨run, -, -, -, ⟨old, hget, he, -⟩ | ⟨hnew, -, rows, -, hinsert⟩⟩ := enqueueBatch_inv henq
    · cases he
      have hid := lookup_key hget
      rw [← hid] at hget
      rw [Stored, hget]
    · have hb := insertBatch_batch hinsert
      have hid : b.jobId = jobIdOf cfg run spec := by
        rw [hb]
        rfl
      have hrequired : b.requiredBarriers = sortedSet spec.requiredBarriers := by
        rw [hb]
        rfl
      rw [Stored, hid, hnew, hrequired, hreq]
      simp only [mem_sortedSet, List.mem_append, mem_required hphase haudit, hendpoints, hkey]
      exact or_comm

/-- **An edge batch waits for the latest node batch of every endpoint exactly when it is stored with
the barriers of these batches.** -/
theorem endpoint_barriers_iff (h : PrepareRun cfg rt (runs ++ [edge]) rt')
    (hfresh : rt.nodeBarriers = []) (hstored : edge.stored cfg = some (s, b)) :
    (∀ key ∈ edge.endpoints cfg rt, ∀ barrier, latestStored cfg rt runs key = some barrier →
        Awaits cfg b barrier) ↔
      ∀ key ∈ edge.endpoints cfg rt, ∀ barrier, latestStored cfg rt runs key = some barrier →
        Stored cfg rt runs edge s b.jobId barrier := by
  refine forall₂_congr fun key _ => forall₂_congr fun barrier hb => ?_
  obtain ⟨e, he, rfl⟩ := lastBarrier_mem hb
  obtain ⟨p, -, hp⟩ := List.mem_flatMap.mp he
  obtain ⟨label, sequence, sha256, hbarrier⟩ := carried_barrier hp
  rw [awaits_iff, hbarrier]
  exact required_iff h hfresh hstored (nodeBarrier_ne_phase _ _ _) (nodeBarrier_ne _ _ _)

/-- Items that contribute nothing can be left out. -/
theorem flatMap_filter_of_nil {α β : Type} {f : α → List β} {p : α → Bool} {items : List α}
    (h : ∀ a ∈ items, f a ≠ [] → p a = true) : (items.filter p).flatMap f = items.flatMap f := by
  induction items with
  | nil => rfl
  | cons a items ih =>
    have hrest := ih fun b hb => h b (List.mem_cons_of_mem _ hb)
    rw [List.filter_cons]
    split
    · rw [List.flatMap_cons, List.flatMap_cons, hrest]
    · next hp =>
      have hnone : f a = [] := by
        by_contra hne
        exact hp (h a List.mem_cons_self hne)
      rw [List.flatMap_cons, hnone, List.nil_append, hrest]

theorem lastBarrier_congr {same same' : NodeKey → Bool} {entries : List (NodeKey × String)}
    (h : ∀ e ∈ entries, same e.1 = same' e.1) :
    lastBarrier same entries = lastBarrier same' entries := by
  unfold lastBarrier
  rw [List.find?_congr fun e he => h e (List.mem_reverse.mp he)]

/-- **A run in one spelling.** When every row spells its project as normalized and every node
batch could be stored, a new edge batch waits for the latest node batch of every endpoint. -/
theorem endpoint_barriers_of_normalized (h : PrepareRun cfg rt (runs ++ [edge]) rt')
    (hfresh : rt.nodeBarriers = []) (hstored : edge.stored cfg = some (s, b))
    (hnew : s.getBatch b.jobId = none)
    (hruns : ∀ p ∈ runs, p.carried cfg rt ≠ [] → (p.stored cfg).isSome = true)
    (hspelled : ∀ p ∈ runs, ∀ e ∈ p.carried cfg rt, normalizedKey cfg e.1 = e.1)
    (hkeys : ∀ key ∈ edge.endpoints cfg rt, normalizedKey cfg key = key) :
    ∀ key ∈ edge.endpoints cfg rt, ∀ barrier, latestStored cfg rt runs key = some barrier →
      Awaits cfg b barrier := by
  intro key hkey barrier hb
  obtain ⟨e, he, rfl⟩ := lastBarrier_mem hb
  obtain ⟨p, -, hp⟩ := List.mem_flatMap.mp he
  obtain ⟨label, sequence, sha256, hbarrier⟩ := carried_barrier hp
  rw [awaits_iff, required_iff h hfresh hstored (hbarrier ▸ nodeBarrier_ne_phase _ _ _)
    (hbarrier ▸ nodeBarrier_ne _ _ _), Stored, hnew]
  refine .inr ⟨key, hkey, ?_⟩
  have hkept := flatMap_filter_of_nil hruns
  rw [latestStored, hkept] at hb
  rw [latestSpelled, ← hb]
  refine lastBarrier_congr fun e he => ?_
  obtain ⟨p, hp, hcarried⟩ := List.mem_flatMap.mp he
  rw [hspelled p hp e hcarried, hkeys key hkey]
  rfl

/-! ## A run in two spellings -/

/-- One call of `prepare` that runs alone. -/
def prepareAlone (cfg : Config) (rt : GraphWriteJournalRuntime) (a : PrepareCall) (s : Shared)
    (inputs : List Input) : Option (Prepared × GraphWriteJournalRuntime × Shared) :=
  let run := execute (perform cfg) (rt.prepare cfg.python a) s inputs
  match run.2.1 with
  | some (.ok (_, rt')) => some (⟨a, run.1⟩, rt', run.2.2)
  | _ => none

theorem perform_reachable (s : Shared) (i : Input) (c : Command) (h : Reachable cfg s.journal) :
    Reachable cfg (perform cfg s i c).2.journal := by
  rcases perform_journal cfg s i c with hj | ⟨call, rfl, hj⟩
  · rwa [hj]
  · rw [hj]
    exact h.step cfg (call i)

theorem PrepareRun.alone {rt₁ rt₂ : GraphWriteJournalRuntime} {a : PrepareCall} {u v : Shared}
    {inputs : List Input} {p : Prepared} (h : PrepareRun cfg rt runs rt₁)
    (hu : Reachable cfg u.journal) (ha : prepareAlone cfg rt₁ a u inputs = some (p, rt₂, v)) :
    PrepareRun cfg rt (runs ++ [p]) rt₂ ∧ Reachable cfg v.journal := by
  unfold prepareAlone at ha
  dsimp only at ha
  split at ha
  · next result _ hout =>
    cases ha
    have hrun : Executes (perform cfg) (fun s => Reachable cfg s.journal)
        (rt₁.prepare cfg.python a) _ (.ok (result, rt₂)) ∧ Reachable cfg _ :=
      executes_execute perform_reachable hu hout
    exact ⟨.snoc h hrun.1, hrun.2⟩
  · cases ha

/-- A digest that tells the texts of the sample apart. -/
def sampleEndpointConfig : Config :=
  { python := {
      sha256Hex := fun text => "h" ++ toString text.length
      reprContainer := fun _ => ""
      casefold := fun text => String.ofList (text.toList.map Char.toLower)
      parseInt := fun _ => .error "" } }

def sampleEndpointId : String := "run_h274"

/-- The journal of an open run. -/
def sampleOpened : Shared :=
  { journal := step sampleEndpointConfig .empty
      (.openRun (sampleMetadata "g1") 0 0 1000000000 0) }

/-- A new runtime of that run. -/
def sampleRuntimeOf (s : Shared) : Option GraphWriteJournalRuntime :=
  (s.journal.getRun sampleEndpointId).map fun run => { config := { metadata := sampleMetadata "g1" }, run }

/-- The inputs of a call whose rows become the artifact `name`. -/
def sampleInputs (name : String) (rows : List Json) : List Input :=
  List.replicate 4
    { now := 0, token := "a1", retryAt := 0, free := 1000000000,
      files := [⟨[sampleEndpointId, name ++ ".jsonl"], 1, name, some rows⟩],
      artifact := .ok ⟨name, sampleEndpointId ++ "/" ++ name ++ ".jsonl", 1, 1⟩,
      submission := .commits 0, outage := none, auditRows := [], elapsedMs := 0 }

/-- A file of the project, as its node row spells it. -/
def sampleNodeRow (project : String) : Json :=
  .obj [("id", .str "f"), ("project_id", .str project)]

/-- The repository has the file. -/
def sampleFileRow : Json := .obj [("repo", .str "r"), ("id", .str "f"), ("project_id", .str "demo")]

/-- A batch of files, then a batch of their edges. -/
def samplePrepares (project : String) :
    Option (GraphWriteJournalRuntime × Prepared × Prepared × GraphWriteJournalRuntime) := do
  let rt ← sampleRuntimeOf sampleOpened
  let node ← prepareAlone sampleEndpointConfig rt
    { label := "files", rows := [sampleNodeRow project], sequence := 0, defer := true }
    sampleOpened (sampleInputs "n1" [sampleNodeRow project])
  let edge ← prepareAlone sampleEndpointConfig node.2.1
    { label := "repo_file_edges", rows := [sampleFileRow], sequence := 1, defer := true }
    node.2.2 (sampleInputs "c1" [sampleFileRow])
  return (rt, node.1, edge.1, edge.2.1)

/-- The barriers of the endpoints' node batches, and those the batch of edges is stored with. -/
def sampleBarriers (project : String) : Option (List (Option String) × List String) := do
  let run ← samplePrepares project
  let stored ← run.2.2.1.stored sampleEndpointConfig
  return ((run.2.2.1.endpoints sampleEndpointConfig run.1).map
    (latestStored sampleEndpointConfig run.1 [run.2.1]), stored.2.requiredBarriers)

theorem samplePrepares_run {project : String} {rt rt' : GraphWriteJournalRuntime}
    {node edge : Prepared} (h : samplePrepares project = some (rt, node, edge, rt')) :
    rt.nodeBarriers = [] ∧ PrepareRun sampleEndpointConfig rt ([node] ++ [edge]) rt' := by
  unfold samplePrepares at h
  obtain ⟨rt₀, hrt, h⟩ := Option.bind_eq_some_iff.mp h
  obtain ⟨⟨node₀, rt₁, u⟩, hnode, h⟩ := Option.bind_eq_some_iff.mp h
  obtain ⟨⟨edge₀, rt₂, v⟩, hedge, h⟩ := Option.bind_eq_some_iff.mp h
  cases h
  have hopened : Reachable sampleEndpointConfig sampleOpened.journal :=
    Reachable.step _ (.empty _) _
  obtain ⟨hfirst, hu⟩ := (PrepareRun.nil).alone hopened hnode
  refine ⟨?_, (hfirst.alone hu hedge).1⟩
  unfold sampleRuntimeOf at hrt
  obtain ⟨run, -, rfl⟩ := Option.map_eq_some_iff.mp hrt
  rfl

theorem sampleBarriers_run {project : String} {carriers : List (Option String)}
    {required : List String} (h : sampleBarriers project = some (carriers, required)) :
    ∃ rt node edge rt' s b, rt.nodeBarriers = [] ∧
      PrepareRun sampleEndpointConfig rt ([node] ++ [edge]) rt' ∧
      edge.stored sampleEndpointConfig = some (s, b) ∧
      (edge.endpoints sampleEndpointConfig rt).map (latestStored sampleEndpointConfig rt [node]) =
        carriers ∧ b.requiredBarriers = required := by
  unfold sampleBarriers at h
  obtain ⟨⟨rt, node, edge, rt'⟩, hrun, h⟩ := Option.bind_eq_some_iff.mp h
  obtain ⟨⟨s, b⟩, hstored, h⟩ := Option.bind_eq_some_iff.mp h
  cases h
  obtain ⟨hfresh, hprepare⟩ := samplePrepares_run hrun
  exact ⟨rt, node, edge, rt', s, b, hfresh, hprepare, hstored, rfl, rfl⟩

theorem sampleBarriers_eval :
    sampleBarriers "demo" = some ([some "node:File:0:n1"], ["node:File:0:n1"]) ∧
      sampleBarriers "Demo" = some ([some "node:File:0:n1"], []) := by
  decide +kernel

theorem endpoint_barriers_iff_sample :
    ∃ rt node edge rt' s b, PrepareRun sampleEndpointConfig rt ([node] ++ [edge]) rt' ∧
      edge.stored sampleEndpointConfig = some (s, b) ∧
      edge.endpoints sampleEndpointConfig rt ≠ [] ∧
      ∀ key ∈ edge.endpoints sampleEndpointConfig rt, ∀ barrier,
        latestStored sampleEndpointConfig rt [node] key = some barrier →
          Stored sampleEndpointConfig rt [node] edge s b.jobId barrier := by
  obtain ⟨rt, node, edge, rt', s, b, hfresh, hprepare, hstored, hcarriers, hrequired⟩ :=
    sampleBarriers_run sampleBarriers_eval.1
  refine ⟨rt, node, edge, rt', s, b, hprepare, hstored, fun hnil => ?_,
    (endpoint_barriers_iff hprepare hfresh hstored).mp fun key hkey barrier hb => ?_⟩
  · rw [hnil] at hcarriers
    cases hcarriers
  · have hcarrier := hcarriers ▸ List.mem_map_of_mem hkey
    rw [hb] at hcarrier
    rw [awaits_iff, hrequired]
    simpa using hcarrier

theorem barriers_of_normalized_sample :
    ∃ run ∈ samplePrepares "demo", ∃ t ∈ run.2.2.1.stored sampleEndpointConfig,
      Awaits sampleEndpointConfig t.2 "node:File:0:n1" := by
  have hspelled : ∀ run ∈ samplePrepares "demo", ∀ t ∈ run.2.2.1.stored sampleEndpointConfig,
      t.1.getBatch t.2.jobId = none ∧ (run.2.1.stored sampleEndpointConfig).isSome = true ∧
      (∀ e ∈ run.2.1.carried sampleEndpointConfig run.1,
        normalizedKey sampleEndpointConfig e.1 = e.1) ∧
      (∀ key ∈ run.2.2.1.endpoints sampleEndpointConfig run.1,
        normalizedKey sampleEndpointConfig key = key) ∧
      ∃ key ∈ run.2.2.1.endpoints sampleEndpointConfig run.1,
        latestStored sampleEndpointConfig run.1 [run.2.1] key = some "node:File:0:n1" := by
    decide +kernel
  have hsample := sampleBarriers_eval.1
  unfold sampleBarriers at hsample
  obtain ⟨run, hrun, h⟩ := Option.bind_eq_some_iff.mp hsample
  obtain ⟨t, ht, -⟩ := Option.bind_eq_some_iff.mp h
  obtain ⟨hnew, hstored, hnodes, hkeys, key, hkey, hb⟩ := hspelled run hrun t ht
  obtain ⟨hfresh, hprepare⟩ := samplePrepares_run hrun
  exact ⟨run, hrun, t, ht, endpoint_barriers_of_normalized hprepare hfresh ht hnew
    (by simp [hstored]) (by simpa using hnodes) hkeys key hkey _ hb⟩

/-- **A node whose project is spelled `Demo` is not awaited by an edge in `demo`.** -/
theorem endpoint_barriers_missed :
    ∃ rt runs edge rt' s b, rt.nodeBarriers = [] ∧
      PrepareRun sampleEndpointConfig rt (runs ++ [edge]) rt' ∧
      edge.stored sampleEndpointConfig = some (s, b) ∧
      ∃ key ∈ edge.endpoints sampleEndpointConfig rt, ∃ barrier,
        latestStored sampleEndpointConfig rt runs key = some barrier ∧
          ¬Awaits sampleEndpointConfig b barrier := by
  obtain ⟨rt, node, edge, rt', s, b, hfresh, hprepare, hstored, hcarriers, hrequired⟩ :=
    sampleBarriers_run sampleBarriers_eval.2
  obtain ⟨key, hkey, hb⟩ := List.mem_map.mp (hcarriers ▸ List.mem_cons_self)
  refine ⟨rt, [node], edge, rt', s, b, hfresh, hprepare, hstored, key, hkey, _, hb, ?_⟩
  rw [awaits_iff, hrequired]
  exact List.not_mem_nil

end CortexHarness.Journal.GraphWriteJournalRuntime
