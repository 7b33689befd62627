import CortexHarness.Journal.Audit

/-!
# Replaying a stream of batches

A compatible analyzer run after a crash enqueues its whole stream again. `enqueue_batch` finds a
stored batch under its deterministic job id, but it looks at the producer-completion marker first:

* `enqueue_stored_iff`: a stored batch is returned, and nothing changes, exactly when the artifact
  passes its checks and the producers of the run are not complete;
* `replay_deduplicates_iff`: so is every batch of a stream;
* `completed_replay_raises`: a run that crashed after `complete_producers` cannot be replayed.
-/

namespace CortexHarness.Journal

open Table

variable {cfg : Config} {s : SQLiteJournal} {run : Run} {b : Batch}

/-- One call of a replayed stream. -/
structure Replay where
  spec : BatchSpec
  files : Files
  free : Int
  now : Time

def Replay.op (runId : String) (e : Replay) : Op := .enqueueBatch runId e.spec e.files e.free e.now

/-- The artifact lies in the directory of the run, verifies and parses. -/
def Replay.ArtifactValid (runId : String) (e : Replay) : Prop :=
  posixParts e.spec.artifact.relativePath = [runId, e.spec.artifact.sha256 ++ ".jsonl"] ∧
    ∃ rows, readJsonl e.files e.spec.artifact = .ok rows

/-- The batch under the deterministic job id of a spec. -/
def StoredAs (cfg : Config) (s : SQLiteJournal) (run : Run) (spec : BatchSpec) (b : Batch) : Prop :=
  s.getBatch (jobIdOf cfg run spec) = some b ∧ b.runId = run.runId

/-- The call returns the stored batch and leaves the batches, barriers, artifacts and manifests as
they are. -/
structure Deduplicates (cfg : Config) (s : SQLiteJournal) (runId : String) (e : Replay) (b : Batch) :
    Prop where
  reply : (exec cfg s (e.op runId)).1 = .ok (.batch (some b))
  batches : (step cfg s (e.op runId)).batches = s.batches
  barriers : (step cfg s (e.op runId)).barriers = s.barriers
  artifacts : (step cfg s (e.op runId)).artifacts = s.artifacts
  nodes : (step cfg s (e.op runId)).nodeManifest = s.nodeManifest
  edges : (step cfg s (e.op runId)).edgeManifest = s.edgeManifest
  endpoints : (step cfg s (e.op runId)).edgeEndpoints = s.edgeEndpoints

/-- Where the checks before the duplicate check pass, the stored batch is returned. -/
theorem enqueueBatch_stored {e : Replay} (hr : s.getRun run.runId = some run)
    (hb : s.getBatch (jobIdOf cfg run e.spec) = some b) (ha : e.ArtifactValid run.runId)
    (hc : s.productionComplete run.runId = false) :
    exec cfg s (e.op run.runId) = (.ok (.batch (some b)), s) := by
  obtain ⟨hp, rows, hrows⟩ := ha
  simp only [Replay.op, exec, enqueueBatch, hr, hp, ne_eq, not_true_eq_false, if_false, hrows, hc,
    Bool.false_eq_true, hb, enqueueReply]

/-- A call that returns a batch has passed those checks. -/
theorem artifactValid_of_ok {e : Replay} {runId : String} {r : Reply}
    (h : (exec cfg s (e.op runId)).1 = .ok r) :
    e.ArtifactValid runId ∧ s.productionComplete runId = false := by
  simp only [Replay.op, exec] at h
  cases he : enqueueBatch cfg s runId e.spec e.files e.free e.now with
  | error err =>
    rw [he] at h
    cases h
  | ok p =>
    unfold enqueueBatch at he
    split at he
    · cases he
    · split at he
      · cases he
      · rename_i hp
        split at he
        · cases he
        · rename_i rows hrows
          simp only at he
          split at he
          · cases he
          · rename_i hc
            exact ⟨⟨by simpa using hp, rows, hrows⟩, by simpa using hc⟩

/-- A replayed call changes nothing, whether it returns or raises. -/
theorem step_stored {e : Replay} (hk : Keys s) (hr : run ∈ s.runs)
    (hb : s.getBatch (jobIdOf cfg run e.spec) = some b) : step cfg s (e.op run.runId) = s := by
  cases he : enqueueBatch cfg s run.runId e.spec e.files e.free e.now with
  | error err => simp only [Replay.op, step, exec, he, enqueueReply]
  | ok p =>
    obtain ⟨run', hm, hid, -, ⟨b', -, hp, ht⟩ | ⟨hnone, -⟩⟩ := enqueueBatch_inv (r := p.1) he
    · have hp' : p = ((b', []), s) := by rw [← hp, ← ht]
      simp only [Replay.op, step, exec, he, hp', enqueueReply]
    · rw [eq_of_keyed hk.runs hm hr hid, hb] at hnone
      cases hnone

/-- **A stored batch is deduplicated exactly when its artifact passes its checks and the producers of
the run are not complete.** -/
theorem enqueue_stored_iff {e : Replay} (hr : s.getRun run.runId = some run)
    (hb : s.getBatch (jobIdOf cfg run e.spec) = some b) :
    Deduplicates cfg s run.runId e b ↔
      e.ArtifactValid run.runId ∧ s.productionComplete run.runId = false := by
  constructor
  · exact fun h => artifactValid_of_ok h.reply
  · rintro ⟨ha, hc⟩
    have he := enqueueBatch_stored hr hb ha hc
    have hs : step cfg s (e.op run.runId) = s := by rw [step, he]
    exact ⟨by rw [he], by rw [hs], by rw [hs], by rw [hs], by rw [hs], by rw [hs], by rw [hs]⟩

/-- Every call of the stream finds its batch, and changes nothing. -/
def StreamDeduplicates (cfg : Config) (s : SQLiteJournal) (run : Run) (stream : List Replay) : Prop :=
  ∀ pre e post, stream = pre ++ e :: post → ∃ b, StoredAs cfg s run e.spec b ∧
    Deduplicates cfg (runOps cfg s (pre.map (Replay.op run.runId))) run.runId e b

/-- The stream does not change the journal. -/
theorem run_stored (hk : Keys s) (hr : run ∈ s.runs) (stream : List Replay)
    (hstored : ∀ e ∈ stream, ∃ b, StoredAs cfg s run e.spec b) :
    runOps cfg s (stream.map (Replay.op run.runId)) = s := by
  induction stream with
  | nil => rfl
  | cons e stream ih =>
    obtain ⟨b, hb, -⟩ := hstored e List.mem_cons_self
    rw [List.map_cons, runOps, Run.run_cons, step_stored hk hr hb]
    exact ih fun e' he' => hstored e' (List.mem_cons_of_mem _ he')

/-- **Replaying a stream of stored batches deduplicates all of them exactly when every artifact
passes its checks and the producers of the run are not complete.** -/
theorem replay_deduplicates_iff (h : Reachable cfg s) (hr : run ∈ s.runs) (stream : List Replay)
    (hstored : ∀ e ∈ stream, ∃ b, StoredAs cfg s run e.spec b) :
    (∀ e ∈ stream, ∀ b, StoredAs cfg s run e.spec b →
      (Deduplicates cfg s run.runId e b ↔
        e.ArtifactValid run.runId ∧ s.productionComplete run.runId = false)) ∧
    (StreamDeduplicates cfg s run stream ↔
      ∀ e ∈ stream, e.ArtifactValid run.runId ∧ s.productionComplete run.runId = false) := by
  have hk := h.inv.keys
  have hget : s.getRun run.runId = some run := (lookup_eq_some hk.runs).mpr ⟨hr, rfl⟩
  refine ⟨fun e _ b hb => enqueue_stored_iff hget hb.1, fun hd e he => ?_, fun hc => ?_⟩
  · obtain ⟨pre, post, rfl⟩ := List.append_of_mem he
    obtain ⟨b, hb, hded⟩ := hd pre e post rfl
    rw [run_stored hk hr pre fun e' he' => hstored e' (List.mem_append_left _ he')] at hded
    exact (enqueue_stored_iff hget hb.1).mp hded
  · rintro pre e post rfl
    obtain ⟨b, hb⟩ := hstored e (by simp)
    rw [run_stored hk hr pre fun e' he' => hstored e' (List.mem_append_left _ he')]
    exact ⟨b, hb, (enqueue_stored_iff hget hb.1).mpr (hc e (by simp))⟩

/-! ## A crash after completion -/

/-- A run with one batch. -/
def sampleStored : SQLiteJournal :=
  runOps sampleConfig .empty [.openRun (sampleMetadata "g1") 0 0 1000000000 0,
    .enqueueBatch sampleRunId (sampleSpec 0) sampleFiles 1000000000 0]

/-- The batch, once more. -/
def sampleReplayed : Replay := ⟨sampleSpec 0, sampleFiles, 1000000000, 0⟩

/-- The run, its status and the batch, as the replay finds them. -/
def findsBatch (s : SQLiteJournal) (e : Replay) : Bool :=
  (s.getRun sampleRunId).any fun run => run.runId == sampleRunId && run.status == .opened &&
    (s.getBatch (jobIdOf sampleConfig run e.spec)).any fun b => b.runId == run.runId

theorem findsBatch_inv {s : SQLiteJournal} {e : Replay} (h : findsBatch s e = true) :
    ∃ run b, run ∈ s.runs ∧ run.runId = sampleRunId ∧ run.status = .opened ∧
      StoredAs sampleConfig s run e.spec b := by
  unfold findsBatch at h
  rw [Option.any_eq_true] at h
  obtain ⟨run, hr, h⟩ := h
  simp only [Bool.and_eq_true, beq_iff_eq, Option.any_eq_true] at h
  obtain ⟨⟨hid, hs⟩, b, hb, hbr⟩ := h
  exact ⟨run, b, lookup_mem hr, hid, hs, hb, hbr⟩

theorem sampleArtifact_valid : sampleReplayed.ArtifactValid sampleRunId := by
  have hp : posixParts sampleReplayed.spec.artifact.relativePath =
      [sampleRunId, sampleReplayed.spec.artifact.sha256 ++ ".jsonl"] := by decide +kernel
  have hr : (readJsonl sampleReplayed.files sampleReplayed.spec.artifact).isOk = true := by
    decide +kernel
  refine ⟨hp, ?_⟩
  cases he : readJsonl sampleReplayed.files sampleReplayed.spec.artifact with
  | ok rows => exact ⟨rows, rfl⟩
  | error e =>
    rw [he] at hr
    cases hr

theorem replay_deduplicates_sample :
    ∃ run, run ∈ sampleStored.runs ∧ StreamDeduplicates sampleConfig sampleStored run
      [sampleReplayed] := by
  have hf : findsBatch sampleStored sampleReplayed = true ∧
      sampleStored.productionComplete sampleRunId = false := by decide +kernel
  obtain ⟨run, b, hr, hid, -, hb⟩ := findsBatch_inv hf.1
  have h : Reachable sampleConfig sampleStored := ⟨_, rfl⟩
  refine ⟨run, hr, ((replay_deduplicates_iff h hr [sampleReplayed] fun e he => ?_).2).mpr
    fun e he => ?_⟩
  · rw [List.mem_singleton.mp he]
    exact ⟨b, hb⟩
  · rw [List.mem_singleton.mp he, hid]
    exact ⟨sampleArtifact_valid, hf.2⟩

/-- The journal after the producers completed. -/
def sampleCompleted : SQLiteJournal :=
  step sampleConfig sampleStored (.completeProducers sampleRunId 0)

/-- **A completed run cannot be replayed**: an open run, a stored batch and a valid artifact do not
suffice for `enqueue_batch` to return the stored record. -/
theorem completed_replay_raises :
    ¬ ∀ (cfg : Config) (s : SQLiteJournal) (run : Run) (e : Replay) (b : Batch),
      Reachable cfg s → run ∈ s.runs →
      run.status = .opened ∨ run.status = .draining ∨ run.status = .drained →
      StoredAs cfg s run e.spec b → e.ArtifactValid run.runId →
      Deduplicates cfg s run.runId e b := by
  intro hclaim
  have hf : findsBatch sampleCompleted sampleReplayed = true ∧
      sampleCompleted.productionComplete sampleRunId = true := by decide +kernel
  obtain ⟨run, b, hr, hid, hs, hb⟩ := findsBatch_inv hf.1
  have h : Reachable sampleConfig sampleCompleted := Reachable.step _ ⟨_, rfl⟩ _
  have hd := hclaim sampleConfig sampleCompleted run sampleReplayed b h hr (.inl hs) hb
    (hid ▸ sampleArtifact_valid)
  have hc := (artifactValid_of_ok hd.reply).2
  rw [hid, hf.2] at hc
  cases hc

end CortexHarness.Journal
