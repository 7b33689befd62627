import CortexHarness.Journal.History

/-!
# Fencing

A fenced call (`renew_lease`, `ack_batch`, `mark_reconciling`, `schedule_retry`,
`schedule_reconciliation_retry`, `block_batch`) names a batch and a token.

* `fenced_rejected`: it raises and changes nothing unless the token is the stored one;
* `token_never_returns`: with pairwise distinct tokens, a token that stopped being stored never is
  again;
* `fencing_safety`: the four parts together, over every sequence of calls without a purge.
-/

namespace CortexHarness.Journal

open Table

variable {cfg : Config} {op : Op} {s : SQLiteJournal}

/-! ## A stale token -/

theorem ownedTransition_stale {jobId token : String} {now : Time}
    (h : ¬ Stores s jobId token) : ownedTransition s jobId token now = .error (staleFence jobId) := by
  unfold ownedTransition
  split
  · rename_i b hb
    obtain ⟨hm, hj⟩ := getBatch_mem hb
    rw [if_neg fun ho => h ⟨b, hm, hj, (ownedBy_held ho).2⟩]
  · rfl

theorem ownedLease_stale {jobId token : String} {now : Time}
    (h : ¬ Stores s jobId token) : ownedLease s jobId token now = .error (staleFence jobId) := by
  unfold ownedLease
  split
  · rename_i b hb
    obtain ⟨hm, hj⟩ := getBatch_mem hb
    rw [if_neg fun ho => h ⟨b, hm, hj, (ownedBy_held ho.2).2⟩]
  · rfl

/-- The arguments of a call pass its own checks; `renew_lease` is the fenced call that has one. -/
def Op.argumentsValid : Op → Bool
  | .renewLease _ _ leaseSeconds _ => decide (0 < leaseSeconds)
  | _ => true

/-- **A fenced call with a token that is not stored raises and changes nothing.** -/
theorem fenced_rejected {jobId token : String} (hop : op.fence = some (jobId, token))
    (h : ¬ Stores s jobId token) :
    ∃ e, exec cfg s op = (.error e, s) ∧ (op.argumentsValid = true → e = staleFence jobId) := by
  cases op with
  | renewLease j t leaseSeconds now =>
    cases hop
    by_cases hl : leaseSeconds ≤ 0
    · refine ⟨.value "lease_seconds must be positive",
        by simp only [exec, renewLease, if_pos hl, transaction], fun hv => ?_⟩
      simp only [Op.argumentsValid, decide_eq_true_eq] at hv
      omega
    · exact ⟨_, by simp only [exec, renewLease, if_neg hl, ownedLease_stale h, transaction],
        fun _ => rfl⟩
  | ackBatch j t ms now =>
    cases hop
    exact ⟨_, by simp only [exec, ackBatch, ownedTransition_stale h, transaction], fun _ => rfl⟩
  | markReconciling j t errorCode now =>
    cases hop
    exact ⟨_, by simp only [exec, markReconciling, ownedLease_stale h, transaction], fun _ => rfl⟩
  | scheduleRetry j t retryAt retryClass errorCode now =>
    cases hop
    exact ⟨_, by simp only [exec, scheduleRetry, ownedTransition_stale h, transaction],
      fun _ => rfl⟩
  | scheduleReconciliationRetry j t retryAt errorCode now =>
    cases hop
    exact ⟨_, by simp only [exec, scheduleReconciliationRetry, ownedTransition_stale h,
      transaction], fun _ => rfl⟩
  | blockBatch j t retryClass errorCode now =>
    cases hop
    exact ⟨_, by simp only [exec, blockBatch, ownedTransition_stale h, transaction], fun _ => rfl⟩
  | _ => cases hop

/-! ## Tokens do not return -/

theorem not_stores_empty (jobId token : String) : ¬ Stores .empty jobId token := by
  rintro ⟨b, hb, -⟩
  cases hb

/-- With pairwise distinct tokens, a token that stopped being stored is not stored again. -/
theorem token_never_returns {pre mid post : List Op} {jobId token : String}
    (hn : ((pre ++ mid ++ post).filterMap Op.claimToken).Nodup)
    (hpre : Stores (runOps cfg .empty pre) jobId token)
    (hmid : ¬ Stores (runOps cfg .empty (pre ++ mid)) jobId token) :
    ¬ Stores (runOps cfg .empty (pre ++ mid ++ post)) jobId token := by
  intro hpost
  have h₁ := stores_run Inv.empty (not_stores_empty jobId token) pre hpre
  rw [runOps, Run.run_append] at hpost
  have h₂ := stores_run (run_inv cfg Inv.empty (pre ++ mid)) hmid post hpost
  rw [List.filterMap_append, List.filterMap_append, List.append_assoc] at hn
  exact (List.disjoint_of_nodup_append hn) h₁ (List.mem_append_right _ h₂)

/-! ## The whole -/

/-- `purge_run`, the one call that removes rows. -/
def Op.purges : Op → Bool
  | .purgeRun .. => true
  | .deleteRun .. => true
  | _ => false

/-- What the sequence of calls `ops` from an empty journal guarantees. -/
structure FencingSafety (cfg : Config) (ops : List Op) : Prop where
  /-- a token comes with a lease; a leased batch has both, and a batch that is neither leased nor
  reconciling has neither -/
  paired : ∀ b ∈ (runOps cfg .empty ops).batches,
    (b.fencingToken.isSome ↔ b.leaseUntil.isSome) ∧
    (b.status = .leased → b.fencingToken.isSome ∧ b.leaseUntil.isSome) ∧
    (b.status ∈ [.pending, .retryWait, .done, .blocked, .deadLetter] →
      b.fencingToken = none ∧ b.leaseUntil = none)
  /-- an active run has no failed batch -/
  clean : ∀ r ∈ (runOps cfg .empty ops).runs, r.status = .opened ∨ r.status = .draining →
    ∀ b ∈ (runOps cfg .empty ops).batches, b.runId = r.runId →
      b.status ≠ .blocked ∧ b.status ≠ .deadLetter
  /-- `DONE`, `BLOCKED` and `DEAD_LETTER` are never left -/
  final : ∀ pre post, ops = pre ++ post → ∀ b ∈ (runOps cfg .empty pre).batches,
    b.status ∈ [.done, .blocked, .deadLetter] →
    ∃ b' ∈ (runOps cfg .empty ops).batches, b'.jobId = b.jobId ∧ b'.status = b.status
  /-- a token that stopped being stored is refused from then on -/
  stale : ∀ pre mid post jobId token, ops = pre ++ mid ++ post →
    Stores (runOps cfg .empty pre) jobId token →
    ¬ Stores (runOps cfg .empty (pre ++ mid)) jobId token →
    ∀ op : Op, op.fence = some (jobId, token) →
      ∃ e, exec cfg (runOps cfg .empty ops) op = (.error e, runOps cfg .empty ops) ∧
        (op.argumentsValid = true → e = staleFence jobId)

/-- **Fencing is safe** over every sequence of calls without a purge, with any clock values and
pairwise distinct tokens. -/
theorem fencing_safety (cfg : Config) (ops : List Op) (hpurge : ∀ op ∈ ops, op.purges = false)
    (htokens : (ops.filterMap Op.claimToken).Nodup) : FencingSafety cfg ops := by
  have hi : Inv (runOps cfg .empty ops) := run_inv cfg .empty ops
  refine ⟨fun b hb => ?_, fun r hr hs b hb hid => ?_, ?_, ?_⟩
  · have hv := hi.valid b hb
    refine ⟨by rw [hv.paired], fun hs => ⟨hv.leased hs, hv.paired ▸ hv.leased hs⟩, fun hs => ?_⟩
    have hh : b.status.held = false := by
      cases hb : b.status <;> simp_all [BatchStatus.held]
    exact ⟨hv.unfenced hh, hv.lease_none (hv.unfenced hh)⟩
  · have hact : r.status.active = true := by rcases hs with h | h <;> rw [h] <;> rfl
    have hclean := (hi.runs r hr).clean hact b hb hid
    constructor <;> intro hbad <;> simp [hbad, BatchStatus.final] at hclean
  · rintro pre post rfl b hb hs
    have hf : b.status.final = true := by
      cases hb : b.status <;> simp_all [BatchStatus.final]
    have hnodel : .deleteRun b.runId ∉ post := fun hm => by
      have := hpurge _ (List.mem_append_right _ hm)
      cases this
    rw [runOps, Run.run_append]
    exact ⟨b, final_persists (run_inv cfg .empty pre) hb hf post hnodel, rfl, rfl⟩
  · rintro pre mid post jobId token rfl hpre hmid op hop
    exact fenced_rejected hop (token_never_returns htokens hpre hmid)

/-! ## A sample journal -/

/-- Two generations of one project in one lane. -/
def sampleMetadata (generation : String) : RunMetadata :=
  { projectId := "demo", scopeId := "repo", sourceRevision := "r1", sourceSnapshot := "s1",
    physicalTarget := "graph", generation, parser := "python", parserVersion := "1",
    schemaFingerprint := "f1", queryShapeVersion := "journal-v1" }

/-- The SHA-256 of an empty file. -/
def emptySha256 : String := "e3b0c44298fc1c149afbf4c8996fb92427ae41e4649b934ca495991b7852b855"

/-- The text `deterministic_job_id` hashes for a batch of the sample. -/
def sampleJobText (fingerprint : String) (sequence : Nat) : String :=
  Json.dumps (.obj [("run_fingerprint", .str fingerprint), ("phase", .str "nodes"),
    ("operation_key", .str "op"), ("sequence", .int sequence), ("payload_sha256", .str emptySha256)])

/-- The SHA-256 of `(sampleMetadata "g1").toDict.dumps`. -/
def sampleFingerprint : String :=
  "4c5c3532fe2b316d9392b0d81cec113ef4912ea82454c85871e4ecaff4fc8db6"

/-- SHA-256 on the texts the sample hashes. -/
def sampleSha256 (text : String) : String :=
  if text = (sampleMetadata "g1").toDict.dumps then sampleFingerprint
  else if text = (sampleMetadata "g2").toDict.dumps then
    "3951bbc2c59fb2bfd351eb5d8599682e203270c3334ff5e76bcfdff0e6a1226e"
  else if text = sampleJobText sampleFingerprint 0 then
    "7c837485ba6fa3b89638d0eed5fb9e2892e3dbe7d5573d0a1aedc59ccb63261a"
  else if text = sampleJobText sampleFingerprint 1 then
    "78f83af4d27ceb98d17a785fb61c8c6132f42b905d4bd242fb7dfd7c4637e4f9"
  else ""

def sampleConfig : Config := { python := ⟨sampleSha256, fun _ => "", id, fun _ => .error ""⟩ }

def sampleRunId : String := "run_" ++ sampleFingerprint

/-- A reference to the empty artifact of the first run. -/
def sampleRef : ArtifactRef := ⟨emptySha256, sampleRunId ++ "/" ++ emptySha256 ++ ".jsonl", 0, 0⟩

def sampleFiles : Files := [⟨[sampleRunId, emptySha256 ++ ".jsonl"], 0, emptySha256, some []⟩]

/-- A batch without a replay descriptor. -/
def sampleSpec (sequence : Nat) : BatchSpec :=
  { phase := .nodes, operationKey := "op", sequence, artifact := sampleRef, expectedCount := 0,
    operationKey_named := by decide, maxAttempts_pos := by decide,
    barriers_named := by decide, barriers_disjoint := by decide }

def sampleJobId : Nat → String
  | 0 => "job_7c837485ba6fa3b89638d0eed5fb9e2892e3dbe7d5573d0a1aedc59ccb63261a"
  | _ => "job_78f83af4d27ceb98d17a785fb61c8c6132f42b905d4bd242fb7dfd7c4637e4f9"

/-- Open the first run and enqueue two batches. -/
def sampleProduction : List Op :=
  [.openRun (sampleMetadata "g1") 0 0 1000000000 0,
    .enqueueBatch sampleRunId (sampleSpec 0) sampleFiles 1000000000 0,
    .enqueueBatch sampleRunId (sampleSpec 1) sampleFiles 1000000000 0]

/-- A lease that runs out before the second claim. -/
def sampleTakeover : List Op :=
  sampleProduction ++ [.claimBatch none 60 "a1" 0, .claimBatch none 60 "b2" (seconds 61)]

theorem fencing_safety_takeover :
    (∀ op ∈ sampleTakeover, op.purges = false) ∧
    (sampleTakeover.filterMap Op.claimToken).Nodup ∧ FencingSafety sampleConfig sampleTakeover :=
  ⟨by decide, by decide, fencing_safety _ _ (by decide) (by decide)⟩

end CortexHarness.Journal
