import CortexHarness.Journal.Fencing
import CortexHarness.Journal.GraphWriteClients
import CortexHarness.Library.Rights

/-!
# No lost graph write

The token of a lease is a right that is used once (`leaseRights`): a consumer gets it from its claim
and submits at most once with it. With the promises of the consumers (`GraphWriteClients`) this
gives `no_lost_write` over every interleaving of consumers that crash, lose their leases and restart,
with any other calls on the journal that neither claim, nor carry a token, nor purge.

The graph is not fenced: a consumer whose lease was taken over may submit once more, without a
readback in between (`stale_consumer_submits`).
-/

namespace CortexHarness.Journal

open Clients

variable {cfg : Config} {op : Op} {s : Shared} {i : Input} {c : Command}

/-! ## A lease is submitted once -/

/-- The lease of a submission. -/
def GraphEvent.lease : GraphEvent → Option String
  | .submitted _ lease _ => some lease
  | _ => none

/-- How often the lease has been submitted. -/
def submissions (h : List GraphEvent) (token : String) : Nat :=
  h.countP fun e => decide (e.lease = some token)

theorem submissions_append (h : List GraphEvent) (m : Mutation) (held : Bool) (rs : List Receipt)
    (token : String) :
    submissions (h ++ [.submitted m.jobId m.lease held] ++ rs.map .committed) token =
      submissions h token + if m.lease = token then 1 else 0 := by
  have hcommitted : submissions (rs.map .committed) token = 0 :=
    List.countP_eq_zero.mpr fun e he => by
      obtain ⟨r, -, rfl⟩ := List.mem_map.mp he
      simp [GraphEvent.lease]
  unfold submissions at *
  rw [List.countP_append, List.countP_append, hcommitted]
  simp [GraphEvent.lease, List.countP_cons]

theorem perform_submissions {token : String} (hc : ∀ m, c ≠ .submit m) :
    submissions (perform cfg s i c).2.graph.history token =
      submissions s.graph.history token := by
  cases c with
  | submit m => exact absurd rfl (hc m)
  | readback r =>
    simp only [perform, Graph.readback]
    split
    · rfl
    · simp [submissions, GraphEvent.lease]
  | _ => rfl

/-- The command submits with the lease. -/
def Command.uses (token : String) : Command → Prop
  | .submit m => m.lease = token
  | _ => False

/-- The command is a claim that hands out the lease. -/
def Command.gives (token : String) : (c : Command) → c.Result → Prop
  | .journal call, r => (∀ i, (call i).claimToken = some i.token) ∧
      ∃ b, r = .ok (.batch (some b)) ∧ b.fencingToken = some token
  | _, _ => False

theorem claimed_token {j : SQLiteJournal} {token : String} {b : Batch}
    (hop : op.claimToken = some token) (hr : (exec cfg j op).1 = .ok (.batch (some b))) :
    b.fencingToken = some token := by
  rw [Op.claimToken, Option.or_eq_some_iff] at hop
  rcases hop with hop | ⟨-, hop⟩
  · exact (claimed_lease hop hr).2.2
  · exact (claimed_readback hop hr).2.2

theorem Command.gives.token {token : String} (hg : c.gives token (perform cfg s i c).1) :
    token = i.token ∧ ∃ call, c = .journal call ∧ (call i).claimToken = some i.token := by
  cases c with
  | journal call =>
    obtain ⟨hclaim, b, hr, ht⟩ := hg
    exact ⟨Option.some.inj (ht.symm.trans (claimed_token (hclaim i) hr)), call, rfl, hclaim i⟩
  | _ => exact hg.elim

/-- A step submits at most once. -/
theorem submissions_perform_le (cfg : Config) {s : Shared} {i : Input} {c : Command}
    {token : String} : submissions (perform cfg s i c).2.graph.history token ≤
      submissions s.graph.history token + 1 := by
  by_cases hu : ∃ m, c = .submit m
  · obtain ⟨m, rfl⟩ := hu
    obtain ⟨rs, hhist, -⟩ :=
      submit_graph s.graph m (s.journal.holds m.jobId m.lease) i.submission
    simp only [perform, hhist, submissions_append]
    split <;> omega
  · rw [perform_submissions fun m hm => hu ⟨m, hm⟩]
    exact Nat.le_succ _

/-- The leases, as rights to submit. -/
def leaseRights (cfg : Config) :
    Rights (perform cfg) (fun s (i : Input) => i.token ∉ s.drawn) String where
  uses := Command.uses
  gives := Command.gives
  given s token := token ∈ s.drawn
  used s token := submissions s.graph.history token
  exclusive := by
    intro token c r hu hg
    cases c with
    | submit m => exact hg
    | _ => exact hu
  fresh := by
    intro s i c token ha hg
    rw [hg.token.1]
    exact ha
  marked := by
    intro s i c token hg
    obtain ⟨rfl, call, rfl, hclaim⟩ := hg.token
    exact drawn_of_claim hclaim
  kept := perform_drawn
  counted := submissions_perform_le cfg
  unused := by
    intro s i c token hu
    cases c with
    | submit m =>
      obtain ⟨rs, hhist, -⟩ :=
        submit_graph s.graph m (s.journal.holds m.jobId m.lease) i.submission
      simp only [perform, hhist, submissions_append]
      rw [if_neg (show m.lease ≠ token from hu), Nat.add_zero]
    | _ => exact perform_submissions nofun

/-! ## The consumers use a lease once -/

/-- A command that is not a submission. -/
def Command.Quiet (c : Command) : Prop := ∀ token, ¬ c.uses token

theorem quiet_settles : GraphWriteJournalConsumer.Settles Command.Quiet where
  readFiles := fun _ => id
  readback := fun _ _ => id
  audit := fun _ _ => id
  block := fun _ _ _ _ _ => id
  backOff := fun _ _ _ _ => id
  ack := fun _ _ _ _ => id
  retry := fun _ _ _ _ _ => id
  mark := fun _ _ _ _ => id

theorem quiet_free {α : Type} {p : Client α} (h : p.Only Command.Quiet) (token : String) :
    p.Free (leaseRights cfg) token :=
  .of_only (fun _ hc => hc token) h

theorem quiet_linear {α : Type} {p : Client α} (h : p.Only Command.Quiet) :
    p.Linear (leaseRights cfg) :=
  .of_only (fun _ hc => hc) h

theorem quiet_bind {α β : Type} {p : Client α} {q : α → Client β} (hp : p.Only Command.Quiet)
    (hq : ∀ a, (q a).Linear (leaseRights cfg)) : (p.bind q).Linear (leaseRights cfg) :=
  .bind_only (fun _ hc => hc) hp hq

theorem claim_free {α : Type} {op : Input → Op} {q : Option Batch → Client α} {token : String}
    (hop : ∀ i, (op i).claimToken = some i.token) (hnone : (q none).Free (leaseRights cfg) token)
    (hsome : ∀ b, b.fencingToken ≠ some token → (q (some b)).Free (leaseRights cfg) token) :
    ((callBatch op).bind q).Free (leaseRights cfg) token := by
  refine ⟨id, fun r hr => ?_⟩
  cases r with
  | error e => trivial
  | ok reply =>
    cases reply with
    | batch b =>
      cases b with
      | none => exact hnone
      | some b => exact hsome b fun ht => hr ⟨hop, b, rfl, ht⟩
    | _ => exact hnone

namespace GraphWriteJournalConsumer

variable {py : Python} {compilers : Compilers} {consumer : GraphWriteJournalConsumer}

theorem executeOne_free (batch : Batch) {token lease : String} (hne : token ≠ lease) :
    (consumer.executeOne py compilers batch token).Free (leaseRights cfg) lease := by
  have hblock : ∀ retryClass errorCode, (block batch token retryClass errorCode).Only
      Command.Quiet := fun _ _ => block_only quiet_settles.toWatches ..
  refine .bind (quiet_free (.perform fun _ => id) lease) fun files => ?_
  split
  · exact .bind (quiet_free (hblock _ _) lease) fun _ => trivial
  · split
    · exact .bind (quiet_free (hblock _ _) lease) fun _ => trivial
    · trivial
    · refine .handle ⟨hne, fun r _ => ?_⟩ fun e =>
        quiet_free (markAmbiguous_only quiet_settles ..) lease
      cases r with
      | ok count => exact quiet_free (settle_only quiet_settles ..) lease
      | error e => trivial

/-- `_execute_one` submits at most once. -/
theorem executeOne_linear (batch : Batch) (token : String) :
    (consumer.executeOne py compilers batch token).Linear (leaseRights cfg) := by
  have hblock : ∀ retryClass errorCode, (block batch token retryClass errorCode).Only
      Command.Quiet := fun _ _ => block_only quiet_settles.toWatches ..
  refine quiet_bind (.perform fun _ => id) fun files => ?_
  split
  · exact quiet_bind (hblock _ _) fun _ => trivial
  · split
    · exact quiet_bind (hblock _ _) fun _ => trivial
    · trivial
    · refine .handle (fun r => ?_) (fun e => quiet_linear (markAmbiguous_only quiet_settles ..))
        fun e lease => quiet_free (markAmbiguous_only quiet_settles ..) lease
      cases r with
      | ok count =>
        have hsettle := settle_only quiet_settles batch token count
        exact ⟨fun lease _ => quiet_free hsettle lease, quiet_linear hsettle⟩
      | error e => exact ⟨fun _ _ => trivial, trivial⟩

theorem withToken_free {batch : Batch} {work : String → Client Unit} {lease : String}
    (h : ∀ token, batch.fencingToken = some token → (work token).Free (leaseRights cfg) lease) :
    (withToken batch work).Free (leaseRights cfg) lease := by
  unfold withToken
  split
  · rename_i token ht
    split
    · trivial
    · exact h token ht
  · trivial

theorem withToken_linear {batch : Batch} {work : String → Client Unit}
    (h : ∀ token, (work token).Linear (leaseRights cfg)) :
    (withToken batch work).Linear (leaseRights cfg) := by
  unfold withToken
  split
  · split
    · trivial
    · exact h _
  · trivial

theorem sealEndpointAuditIfReady_quiet :
    (consumer.sealEndpointAuditIfReady py compilers).Only Command.Quiet := by
  unfold sealEndpointAuditIfReady
  split
  · trivial
  · refine .bind (.perform fun _ => id) fun r => ?_
    split
    · trivial
    · split
      · exact .bind (call_only fun _ => id) fun _ => trivial
      · refine .bind (.perform fun _ => id) fun r => ?_
        split
        · trivial
        · split
          · trivial
          · refine .bind (.perform fun _ => id) fun batches => ?_
            refine .bind (auditBatches_only quiet_settles.toWatches ..) fun audited => ?_
            refine .bind (call_only fun _ => id) fun _ => ?_
            exact .bind (call_only fun _ => id) fun _ => trivial

/-- The loop of `drain` submits with no lease that it has not claimed. -/
theorem drainLoop_free (drained fuel : Nat) (lease : String) :
    (consumer.drainLoop py compilers drained fuel).Free (leaseRights cfg) lease := by
  induction fuel generalizing drained with
  | zero => trivial
  | succ fuel ih =>
    have hexecute : ∀ pending : Batch, pending.fencingToken ≠ some lease →
        (Prog.bind (withToken pending (consumer.executeOne py compilers pending)) fun _ =>
          consumer.drainLoop py compilers (drained + 1) fuel).Free (leaseRights cfg) lease :=
      fun pending hne => .bind (withToken_free fun token ht =>
        executeOne_free pending fun he => hne (he ▸ ht)) fun _ => ih _
    simp only [drainLoop]
    refine claim_free (fun _ => rfl) ?_ fun ambiguous _ => ?_
    · refine claim_free (fun _ => rfl) ?_ hexecute
      refine .bind (quiet_free sealEndpointAuditIfReady_quiet lease) fun _ => ?_
      exact claim_free (fun _ => rfl) trivial hexecute
    · exact .bind (quiet_free (withToken_only (reconcileOne_only quiet_settles _)) lease)
        fun _ => ih _

theorem drainLoop_linear (drained fuel : Nat) :
    (consumer.drainLoop py compilers drained fuel).Linear (leaseRights cfg) := by
  induction fuel generalizing drained with
  | zero => trivial
  | succ fuel ih =>
    have hexecute : ∀ pending : Batch,
        (Prog.bind (withToken pending (consumer.executeOne py compilers pending)) fun _ =>
          consumer.drainLoop py compilers (drained + 1) fuel).Linear (leaseRights cfg) :=
      fun pending => .bind (withToken_linear (executeOne_linear pending)) (fun _ => ih _)
        fun _ lease => drainLoop_free _ _ lease
    have hclaim : ∀ {op : Input → Op}, (callBatch op).Only Command.Quiet :=
      callBatch_only fun _ => id
    simp only [drainLoop]
    refine quiet_bind hclaim fun r => ?_
    split
    · exact quiet_bind
        (withToken_only (reconcileOne_only quiet_settles _)) fun _ => ih _
    · refine quiet_bind hclaim fun r => ?_
      split
      · exact hexecute _
      · refine quiet_bind sealEndpointAuditIfReady_quiet
          fun _ => ?_
        refine quiet_bind hclaim fun r => ?_
        split
        · exact hexecute _
        · trivial

theorem init_quiet (config : JournalConfig) : (init py config).Only Command.Quiet := by
  unfold init
  split
  · trivial
  · refine .bind (.perform fun _ => id) fun r => ?_
    split
    · trivial
    · exact .bind (call_only fun _ => id) fun _ => trivial

theorem process_once (config : JournalConfig) (fuel : Nat) :
    (process py compilers config fuel).Linear (leaseRights cfg) ∧
      ∀ lease, (process py compilers config fuel).Free (leaseRights cfg) lease := by
  refine ⟨quiet_bind (init_quiet config) fun consumer => ?_,
    fun lease => .bind (quiet_free (init_quiet config) lease) fun consumer => ?_⟩
  · exact .bind (quiet_bind sealEndpointAuditIfReady_quiet
      fun _ => drainLoop_linear 0 fuel) (fun _ => trivial) fun _ _ => trivial
  · exact .bind (.bind (quiet_free sealEndpointAuditIfReady_quiet lease)
      fun _ => drainLoop_free 0 fuel lease) fun _ => trivial

end GraphWriteJournalConsumer

/-! ## The whole -/

/-- A call that neither claims, nor carries a token, nor purges. -/
def Op.Plain (op : Op) : Prop :=
  op.claimToken = none ∧ op.fence = none ∧ ∀ runId, op ≠ .deleteRun runId

theorem Op.Plain.respects (hp : op.Plain) (s : Shared) : op.Respects s := by
  obtain ⟨hclaim, hfence, hdelete⟩ := hp
  cases op with
  | deleteRun runId => exact absurd rfl (hdelete runId)
  | claimBatch | claimJob | claimReconciling | claimReconcilingJob => cases hclaim
  | ackBatch | markReconciling | scheduleRetry => cases hfence
  | _ => trivial

/-- A process at the graph: a consumer, or one call of the journal from elsewhere. -/
inductive GraphProcess where
  | consumer (compilers : Compilers) (config : JournalConfig) (fuel : Nat)
  | caller (op : Op) (h : op.Plain)

def GraphProcess.program (cfg : Config) : GraphProcess → Client Unit
  | .consumer compilers config fuel =>
    GraphWriteJournalConsumer.process cfg.python compilers config fuel
  | .caller op _ => do
    let _ ← call fun _ => op
    return ()

theorem GraphProcess.writes (d : GraphProcess) :
    Writes cfg (fun _ => True) (d.program cfg) (fun _ _ => True) fun _ => True := by
  cases d with
  | consumer compilers config fuel =>
    exact GraphWriteJournalConsumer.process_writes config fuel
  | caller op h =>
    exact .bind (unguarded_writes (Contract.stable_true _)
      (call_only fun s _ _ => h.respects s)) fun _ => fun _ _ _ => trivial

theorem GraphProcess.once (d : GraphProcess) :
    (d.program cfg).Linear (leaseRights cfg) ∧
      ∀ lease, (d.program cfg).Free (leaseRights cfg) lease := by
  cases d with
  | consumer compilers config fuel => exact GraphWriteJournalConsumer.process_once config fuel
  | caller op h =>
    have hquiet : (GraphProcess.program cfg (.caller op h)).Only Command.Quiet :=
      .bind (call_only fun _ => id) fun _ => trivial
    exact ⟨quiet_linear hquiet, quiet_free hquiet⟩

/-- The worlds of the consumers: any interleaving, in which each can stop at any point and the
tokens that are drawn are new. -/
abbrev GraphReaches (cfg : Config) :=
  Reaches (perform cfg) (GraphProcess.program cfg) fun s (i : Input) => i.token ∉ s.drawn

theorem two_submissions {pre post : List GraphEvent} {jobId lease : String} {held : Bool}
    {e : GraphEvent} (he : e.lease = some lease) (hm : e ∈ pre) :
    2 ≤ submissions (pre ++ .submitted jobId lease held :: post) lease := by
  have hpos : 0 < submissions pre lease :=
    List.countP_pos_iff.mpr ⟨e, hm, decide_eq_true he⟩
  unfold submissions at *
  rw [List.countP_append, List.countP_cons_of_pos (by simp [GraphEvent.lease])]
  omega

/-- **No lost graph write.** A batch is `DONE` only after its mutation has committed with the
expected count; and between two submissions of a batch that are each made while their lease is the
stored one, there is a readback that found no receipt. -/
theorem no_lost_write {w : Clients.World Shared Command Command.Result Raised}
    (h : GraphReaches cfg ⟨{}, []⟩ w) :
    (∀ b ∈ w.state.journal.batches, b.status = .done →
      Committed w.state.graph.history b.toBatchCore) ∧
    ∀ pre jobId lease mid lease' post, w.state.graph.history =
        pre ++ .submitted jobId lease true :: mid ++ .submitted jobId lease' true :: post →
      .readback jobId 0 ∈ mid := by
  have h0 : Clients.World.Sound (graphContract cfg)
      (⟨{}, []⟩ : Clients.World Shared Command Command.Result Raised) :=
    ⟨GraphInv.empty cfg, fun p hp => absurd hp List.not_mem_nil⟩
  have howned : Clients.World.Owned (leaseRights cfg)
      (⟨{}, []⟩ : Clients.World Shared Command Command.Result Raised) :=
    ⟨fun p hp => absurd hp List.not_mem_nil, fun _ => Nat.zero_le _,
      fun _ _ => ⟨rfl, fun p hp => absurd hp List.not_mem_nil⟩⟩
  have hsound := (graphContract cfg).sound GraphProcess.writes h0 h
  have honce := Rights.once GraphProcess.once howned h
  refine ⟨fun b hb hd => (hsound.1.rows b hb).done hd,
    fun pre jobId lease mid lease' post hs => ?_⟩
  have hlast : ¬ Submitted (pre ++ .submitted jobId lease true :: mid) jobId lease' := by
    rintro ⟨held, hm⟩
    have htwo : 2 ≤ submissions ((pre ++ .submitted jobId lease true :: mid) ++
        .submitted jobId lease' true :: post) lease' := two_submissions rfl hm
    have hle : submissions w.state.graph.history lease' ≤ 1 := honce lease'
    rw [hs] at hle
    omega
  rcases hsound.1.spaced _ _ _ _ hs with hans | hsub
  · refine hans pre lease mid rfl fun he => hlast ⟨true, ?_⟩
    rw [Option.some.inj he]
    simp
  · exact absurd hsub hlast

/-! ## A lost reply and a stale consumer -/

/-- SHA-256 on the texts of the sample; the job id is that of a batch of files. -/
def sampleWriteSha256 (text : String) : String :=
  if text = Json.dumps (.obj [("run_fingerprint", .str sampleFingerprint), ("phase", .str "nodes"),
      ("operation_key", .str "graph-write/v1/nodes/files"), ("sequence", .int 0),
      ("payload_sha256", .str emptySha256)]) then
    "906f5de8d731863d66e8e25cdfb329fc7bf261ef2a5f2bc2833b20eb64ea3cd1"
  else sampleSha256 text

def sampleWriteConfig : Config :=
  { python := ⟨sampleWriteSha256, fun _ => "", id, fun _ => .error ""⟩ }

def sampleWriteJob : String :=
  "job_906f5de8d731863d66e8e25cdfb329fc7bf261ef2a5f2bc2833b20eb64ea3cd1"

/-- A batch of files. -/
def sampleWriteSpec : BatchSpec :=
  { sampleSpec 0 with
    operationKey := "graph-write/v1/nodes/files"
    operation := [("label", .str "files"), ("phase", .str "nodes")]
    operationKey_named := by decide }

def sampleWriter : GraphProcess :=
  .consumer ⟨fun _ _ => .ok ⟨"", []⟩, fun _ _ => .ok none⟩ { metadata := sampleMetadata "g1" } 3

def sampleWriteInput (token : String) (submission : Submission) : Input :=
  { now := 0, token, retryAt := 0, free := 1000000000, files := sampleFiles,
    artifact := .ok sampleRef, submission, outage := none, auditRows := [], elapsedMs := 0 }

/-- A run with one batch and a consumer that has claimed it and read its rows. -/
def sampleWriteEvents : List (Clients.Event GraphProcess Input) :=
  [.start (.caller (.openRun (sampleMetadata "g1") 0 0 1000000000 0) ⟨rfl, rfl, nofun⟩),
    .start (.caller (.enqueueBatch sampleRunId sampleWriteSpec sampleFiles 1000000000 0)
      ⟨rfl, rfl, nofun⟩),
    .perform 0 (sampleWriteInput "a1" (.commits 0)),
    .perform 1 (sampleWriteInput "a1" (.commits 0)), .start sampleWriter] ++
  ["a1", "a2", "a3", "a4", "a5"].map fun token => .perform 2 (sampleWriteInput token (.commits 0))

/-- A second consumer recovers the lease, finds no receipt and writes the batch. -/
def sampleSecondWriter : List (Clients.Event GraphProcess Input) :=
  .start sampleWriter ::
    ["b1", "b2", "b3", "b4", "b5", "b6", "b7", "b8", "b9", "c1"].map fun token =>
      .perform 3 (sampleWriteInput token (.commits 0))

def sampleWriteWorld (events : List (Clients.Event GraphProcess Input)) :
    Clients.World Shared Command Command.Result Raised :=
  Run.run (Clients.World.step (perform sampleWriteConfig) (GraphProcess.program sampleWriteConfig))
    ⟨{}, []⟩ events

def sampleReceipt : Receipt :=
  ⟨sampleWriteJob, "graph-write/v1/nodes/files", 0, emptySha256, sampleRunId, "g1"⟩

/-- The first consumer's write fails, and it stops; the second one finishes. -/
def sampleRewrite : List (Clients.Event GraphProcess Input) :=
  sampleWriteEvents ++ .perform 2 (sampleWriteInput "b0" (.refuses (.other .transient))) ::
    sampleSecondWriter ++ [.perform 3 (sampleWriteInput "c2" (.commits 0))]

/-- The tokens are new, the history has two held submissions, and the batch ends `DONE`. -/
theorem sampleRewrite_run :
    Admissible (perform sampleWriteConfig) (GraphProcess.program sampleWriteConfig)
      (fun s (i : Input) => i.token ∉ s.drawn) ⟨{}, []⟩ sampleRewrite ∧
    (sampleWriteWorld sampleRewrite).state.graph.history =
      [] ++ .submitted sampleWriteJob "a4" true :: [.readback sampleWriteJob 0] ++
        .submitted sampleWriteJob "b8" true :: [.committed sampleReceipt] ∧
    (sampleWriteWorld sampleRewrite).state.journal.batches.map (fun b => b.status) = [.done] := by
  decide +kernel

theorem no_lost_write_sample :
    GraphReaches sampleWriteConfig ⟨{}, []⟩ (sampleWriteWorld sampleRewrite) ∧
    (sampleWriteWorld sampleRewrite).state.graph.history =
      [] ++ .submitted sampleWriteJob "a4" true :: [.readback sampleWriteJob 0] ++
        .submitted sampleWriteJob "b8" true :: [.committed sampleReceipt] ∧
    .readback sampleWriteJob 0 ∈ [GraphEvent.readback sampleWriteJob 0] ∧
    (sampleWriteWorld sampleRewrite).state.journal.batches.map (fun b => b.status) = [.done] ∧
    ∀ b ∈ (sampleWriteWorld sampleRewrite).state.journal.batches, b.status = .done →
      Committed (sampleWriteWorld sampleRewrite).state.graph.history b.toBatchCore := by
  obtain ⟨hadmitted, hhist, hdone⟩ := sampleRewrite_run
  have h : GraphReaches sampleWriteConfig ⟨{}, []⟩ (sampleWriteWorld sampleRewrite) :=
    Reaches.run _ _ _ _ hadmitted
  exact ⟨h, hhist, (no_lost_write h).2 [] sampleWriteJob "a4" [.readback sampleWriteJob 0] "b8"
    [.committed sampleReceipt] hhist, hdone, (no_lost_write h).1⟩

/-- The first consumer goes on after the second one has written the batch. -/
def sampleStale : List (Clients.Event GraphProcess Input) :=
  sampleWriteEvents ++ sampleSecondWriter ++ [.perform 2 (sampleWriteInput "c2" (.commits 0))]

theorem sampleStale_run :
    Admissible (perform sampleWriteConfig) (GraphProcess.program sampleWriteConfig)
      (fun s (i : Input) => i.token ∉ s.drawn) ⟨{}, []⟩ sampleStale ∧
    (sampleWriteWorld sampleStale).state.graph.history =
      [.readback sampleWriteJob 0] ++ .submitted sampleWriteJob "b8" true ::
        [.committed sampleReceipt] ++ .submitted sampleWriteJob "a4" false ::
          [.committed sampleReceipt] := by
  decide +kernel

/-- **A consumer whose lease was taken over submits again**, with no readback after the other's
submission. -/
theorem stale_consumer_submits :
    GraphReaches sampleWriteConfig ⟨{}, []⟩ (sampleWriteWorld sampleStale) ∧
    ∃ pre mid post, (sampleWriteWorld sampleStale).state.graph.history =
      pre ++ .submitted sampleWriteJob "b8" true :: mid ++
        .submitted sampleWriteJob "a4" false :: post ∧
      ∀ count, .readback sampleWriteJob count ∉ mid := by
  obtain ⟨hadmitted, hhist⟩ := sampleStale_run
  exact ⟨Reaches.run _ _ _ _ hadmitted, _, _, _, hhist, by simp⟩

end CortexHarness.Journal
