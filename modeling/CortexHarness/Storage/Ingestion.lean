import CortexHarness.Library.Python
import CortexHarness.Library.Table
import CortexHarness.Storage.Admission
import Mathlib.Data.List.Induction
import Mathlib.Logic.Relation

/-!
# The ledger of ingestion jobs

Model of the job table of `StoreGateway` (`gateway.py:37-78, 646-774, 804-910`): `submit_ingest`,
`update_job`, `cancel_ingest`, `_persist_jobs` and the reload of the jobs file at a restart with its
recovery mapping. A call is one step: it changes the table, then writes the whole table to the file,
which the control lane or the disk can refuse. A restart forgets the table and reads the file; a
start whose own write is refused does not come up, and leaves the file to the next one.

Job ids are drawn by `uuid4` and part of a step, and so are the clock and the active generation.
The times of submission and of the last update are left out, no function reads them.

Results:
* `exec_ledgered`: what a call does to the jobs when the file is replaced;
* `ingest_ledger`: over whole runs of such steps, bindings are unique and kept, states move only
  along the transitions and the recovery mapping, and what a call returned is never lost;
* `unpersisted_submission_lost`: without the write, a job that a later call has returned is gone
  after a restart.
-/

namespace CortexHarness.Storage

open Table

/-! ## Jobs -/

/-- `IngestionJobState`. -/
inductive IngestionJobState where
  | queued | preparing | writing | validating | publishing | completed | failed | cancelled
  | ambiguous | superseded
  deriving Repr, DecidableEq

/-- `terminal`. -/
def IngestionJobState.terminal : IngestionJobState → Bool
  | .completed | .failed | .cancelled | .ambiguous | .superseded => true
  | _ => false

/-- `value`. -/
def IngestionJobState.value : IngestionJobState → String
  | .queued => "queued"
  | .preparing => "preparing"
  | .writing => "writing"
  | .validating => "validating"
  | .publishing => "publishing"
  | .completed => "completed"
  | .failed => "failed"
  | .cancelled => "cancelled"
  | .ambiguous => "ambiguous"
  | .superseded => "superseded"

/-- `_JOB_TRANSITIONS`. -/
def jobTransitions : IngestionJobState → List IngestionJobState
  | .queued => [.preparing, .writing, .cancelled, .failed, .superseded]
  | .preparing => [.writing, .cancelled, .failed, .superseded]
  | .writing => [.validating, .cancelled, .failed, .ambiguous]
  | .validating => [.publishing, .cancelled, .failed, .ambiguous]
  | .publishing => [.completed, .failed, .ambiguous]
  | _ => []

/-- `IngestionJob` of one physical target. -/
structure IngestionJob where
  jobId : String
  idempotencyKey : String
  sourceRevision : String
  state : IngestionJobState := .queued
  queuePosition : Option Int := none
  generationId : Option String := none
  detail : List (String × Json) := []
  cancelRequestedAt : Option String := none

/-- The keyword arguments of `update_job`. -/
structure Changes where
  idempotencyKey : Option String := none
  sourceRevision : Option String := none
  queuePosition : Option (Option Int) := none
  generationId : Option (Option String) := none
  detail : Option (List (String × Json)) := none
  cancelRequestedAt : Option (Option String) := none

/-- `with_state`. -/
def IngestionJob.withState (job : IngestionJob) (state : IngestionJobState) (changes : Changes) :
    IngestionJob :=
  { job with
    state
    idempotencyKey := changes.idempotencyKey.getD job.idempotencyKey
    sourceRevision := changes.sourceRevision.getD job.sourceRevision
    queuePosition := changes.queuePosition.getD job.queuePosition
    generationId := changes.generationId.getD job.generationId
    detail := changes.detail.getD job.detail
    cancelRequestedAt := changes.cancelRequestedAt.getD job.cancelRequestedAt }

/-- `{**job.detail, "recovery": reason}`. -/
def IngestionJob.recovery (job : IngestionJob) (reason : String) : List (String × Json) :=
  job.detail.filter (fun e => e.1 != "recovery") ++ [("recovery", .str reason)]

/-- What the active generation says about a publication. -/
structure ActiveGeneration where
  generationId : String
  sourceRevision : String
  deriving Repr, DecidableEq

/-- The active generation is the one the job was publishing. -/
def IngestionJob.publishedBy (job : IngestionJob) (active : Option ActiveGeneration) : Bool :=
  active.any fun a => job.generationId == some a.generationId && job.sourceRevision == a.sourceRevision

/-- The recovery mapping of `_load_jobs`. -/
def IngestionJob.recovered (job : IngestionJob) (active : Option ActiveGeneration) : IngestionJob :=
  match job.state with
  | .preparing => job.withState .queued
      { detail := some (job.recovery "preparation_requeued_after_restart") }
  | .publishing =>
    if job.publishedBy active then
      job.withState .completed
        { queuePosition := some none, detail := some (job.recovery "publication_reconciled") }
    else job.withState .ambiguous
      { detail := some (job.recovery "publication_not_selected_by_active_manifest") }
  | .writing => job.withState .ambiguous
      { detail := some (job.recovery "owner_restarted_during_store_operation") }
  | .validating => job.withState .ambiguous
      { detail := some (job.recovery "owner_restarted_during_store_operation") }
  | _ => job

/-! ## The gateway -/

/-- `GatewayErrorCode`, as far as the job calls raise it. -/
inductive GatewayErrorCode where
  | overloaded | ingestionAlreadyRunning | storeMaintenance
  deriving Repr, DecidableEq

/-- What a call raises. -/
inductive GatewayError where
  | gateway (code : GatewayErrorCode) (message : String)
  | value (message : String)
  | key (jobId : String)
  /-- the write of the jobs file failed -/
  | persist
  deriving Repr, DecidableEq

/-- The job table of `StoreGateway`, and the jobs file. -/
structure StoreGateway where
  /-- `_jobs` -/
  jobs : List IngestionJob := []
  /-- `_job_keys`: the key and the job id -/
  jobKeys : List (String × String) := []
  file : Option (List IngestionJob) := none
  /-- `_accepting_jobs` -/
  acceptingJobs : Bool := false

/-- How a write of the jobs file ends: `unsynced` is a failure after `os.replace`. -/
inductive WriteOutcome where
  | written | unsynced | refused
  deriving Repr, DecidableEq

/-- A reply of a call, and the gateway after it. -/
abbrev Reply := Except GatewayError (Option IngestionJob) × StoreGateway

namespace StoreGateway

variable (py : Python) (write : LaneLimits) (s : StoreGateway)

/-- `_persist_jobs`, then the return of the call. -/
def persistJobs (outcome : WriteOutcome) (job : IngestionJob) : Reply :=
  match outcome with
  | .written => (.ok (some job), { s with file := some s.jobs })
  | .unsynced => (.error .persist, { s with file := some s.jobs })
  | .refused => (.error .persist, s)

/-- `int(job.detail.get("estimated_bytes", 0))`. -/
def estimatedBytes (job : IngestionJob) : Except String Int :=
  ((Json.find? job.detail "estimated_bytes").map py.int).getD (.ok 0)

/-- The jobs that count against the queue. -/
def activeJobs : List IngestionJob := s.jobs.filter fun job => !job.state.terminal

/-- `sum(...)` over the active jobs, or the exception of `int`. -/
def queuedBytes : Except String Int :=
  s.activeJobs.foldlM (fun total job => (estimatedBytes py job).map (total + ·)) 0

/-- The new job of `submit_ingest`. -/
def newJob (jobId idempotencyKey sourceRevision : String) (estimated : Int) : IngestionJob :=
  { jobId, idempotencyKey, sourceRevision,
    queuePosition := some (s.jobs.countP fun job => job.state == .queued),
    detail := [("estimated_bytes", .int estimated)] }

/-- `submit_ingest`. -/
def submitIngest (idempotencyKey sourceRevision : String) (estimated : Int) (jobId : String)
    (outcome : WriteOutcome) : Reply :=
  if blank idempotencyKey ∨ blank sourceRevision then
    (.error (.value "idempotency_key and source_revision are required"), s)
  else if estimated < 0 then (.error (.value "estimated_bytes cannot be negative"), s)
  else if s.acceptingJobs = false then
    (.error (.gateway .storeMaintenance "store owner is not accepting ingestion"), s)
  else
    match (lookup Prod.fst idempotencyKey s.jobKeys).map Prod.snd with
    | some existingId =>
      match lookup IngestionJob.jobId existingId s.jobs with
      | none => (.error (.key existingId), s)
      | some existing =>
        if existing.sourceRevision ≠ sourceRevision then
          (.error (.gateway .ingestionAlreadyRunning
            "idempotency key is already bound to another source revision"), s)
        else (.ok (some existing), s)
    | none =>
      match s.queuedBytes py with
      | .error text => (.error (.value text), s)
      | .ok queued =>
        if s.activeJobs.length ≥ write.maxQueueItems ∨ queued + estimated > write.maxQueueBytes then
          (.error (.gateway .overloaded "ingestion queue is full"), s)
        else
          let job := s.newJob jobId idempotencyKey sourceRevision estimated
          persistJobs
            { s with jobs := assign IngestionJob.jobId job s.jobs
                     jobKeys := assign Prod.fst (idempotencyKey, jobId) s.jobKeys } outcome job

/-- `update_job`. -/
def updateJob (jobId : String) (state : IngestionJobState) (changes : Changes)
    (outcome : WriteOutcome) : Reply :=
  if s.acceptingJobs = false then
    (.error (.gateway .storeMaintenance "store owner is draining ingestion state"), s)
  else
    match lookup IngestionJob.jobId jobId s.jobs with
    | none => (.error (.key jobId), s)
    | some job =>
      if job.state.terminal ∧ state ≠ job.state then
        (.error (.value "terminal ingestion jobs cannot transition"), s)
      else if state ≠ job.state ∧ state ∉ jobTransitions job.state then
        (.error (.value
          ("invalid ingestion job transition: " ++ job.state.value ++ " -> " ++ state.value)), s)
      else
        let updated := job.withState state changes
        persistJobs { s with jobs := assign IngestionJob.jobId updated s.jobs } outcome updated

/-- `cancel_ingest`. -/
def cancelIngest (jobId now : String) (outcome : WriteOutcome) : Reply :=
  if s.acceptingJobs = false then
    (.error (.gateway .storeMaintenance "store owner is draining ingestion state"), s)
  else
    match lookup IngestionJob.jobId jobId s.jobs with
    | none => (.ok none, s)
    | some job =>
      if job.state.terminal then (.ok (some job), s)
      else
        let requested := some (some (job.cancelRequestedAt.getD now))
        let updated :=
          if job.state = .queued ∨ job.state = .preparing then
            job.withState .cancelled { cancelRequestedAt := requested, queuePosition := some none }
          else job.withState job.state { cancelRequestedAt := requested }
        persistJobs { s with jobs := assign IngestionJob.jobId updated s.jobs } outcome updated

/-- A restart of the owner: `_load_jobs`, with the write at its end. -/
def restart (active : Option ActiveGeneration) : StoreGateway :=
  match s.file with
  | none => { jobs := [], jobKeys := [], file := none, acceptingJobs := true }
  | some jobs =>
    let recovered := jobs.map (IngestionJob.recovered · active)
    let jobs := recovered.foldl (fun t job => assign IngestionJob.jobId job t) []
    { jobs
      jobKeys := recovered.foldl
        (fun t job => assign Prod.fst (job.idempotencyKey, job.jobId) t) []
      file := some jobs
      acceptingJobs := true }

/-! ## Runs -/

/-- One call, or a restart. -/
inductive Action where
  | submit (idempotencyKey sourceRevision : String) (estimated : Int) (jobId : String)
      (outcome : WriteOutcome)
  | update (jobId : String) (state : IngestionJobState) (changes : Changes) (outcome : WriteOutcome)
  | cancel (jobId now : String) (outcome : WriteOutcome)
  | restart (active : Option ActiveGeneration)

/-- Perform one call. -/
def exec : Action → Reply
  | .submit key revision estimated jobId outcome =>
    s.submitIngest py write key revision estimated jobId outcome
  | .update jobId state changes outcome => s.updateJob jobId state changes outcome
  | .cancel jobId now outcome => s.cancelIngest jobId now outcome
  | .restart active => (.ok none, s.restart active)

/-- The gateway after one call. -/
def step (a : Action) : StoreGateway := (s.exec py write a).2

/-- The job id a call draws. -/
def Action.drawn : Action → Option String
  | .submit _ _ _ jobId _ => some jobId
  | _ => none

/-- The jobs file is replaced, and the binding of the job is left alone. -/
def Action.clean : Action → Bool
  | .submit _ _ _ _ outcome => outcome != .refused
  | .update _ _ changes outcome =>
    outcome != .refused && changes.idempotencyKey.isNone && changes.sourceRevision.isNone
  | .cancel _ _ outcome => outcome != .refused
  | .restart _ => true

/-! ## What a step can do -/

variable {py : Python} {write : LaneLimits} {s : StoreGateway} {a : Action}

/-- The index lists the jobs, and the file is the table. -/
structure Inv (s : StoreGateway) : Prop where
  ids : Keyed IngestionJob.jobId s.jobs
  keys : Keyed IngestionJob.idempotencyKey s.jobs
  index : s.jobKeys = s.jobs.map fun job => (job.idempotencyKey, job.jobId)
  file : s.file.getD [] = s.jobs

theorem inv_init : Inv {} := ⟨List.nodup_nil, List.nodup_nil, rfl, rfl⟩

/-- The job keeps its binding. -/
structure SameBinding (job job' : IngestionJob) : Prop where
  jobId : job'.jobId = job.jobId
  idempotencyKey : job'.idempotencyKey = job.idempotencyKey
  sourceRevision : job'.sourceRevision = job.sourceRevision

/-- A state that a call may leave for another. -/
def Moved (state state' : IngestionJobState) : Prop :=
  state' = state ∨ state' ∈ jobTransitions state

/-- What a clean call does to the gateway. -/
inductive Moves (s : StoreGateway) (a : Action) : StoreGateway → Prop where
  | same : Moves s a s
  | insert (job : IngestionJob) (hid : a.drawn = some job.jobId)
      (hkey : ∀ j ∈ s.jobs, j.idempotencyKey ≠ job.idempotencyKey) :
      Moves s a { s with
        jobs := s.jobs ++ [job], jobKeys := s.jobKeys ++ [(job.idempotencyKey, job.jobId)],
        file := some (s.jobs ++ [job]) }
  | update (job updated : IngestionJob) (hjob : job ∈ s.jobs) (hb : SameBinding job updated)
      (hm : Moved job.state updated.state) :
      Moves s a { s with
        jobs := updateWhere (fun j => decide (j.jobId = updated.jobId)) (fun _ => updated) s.jobs,
        file := some
          (updateWhere (fun j => decide (j.jobId = updated.jobId)) (fun _ => updated) s.jobs) }
  | restart (active : Option ActiveGeneration) (ha : a = .restart active)
      (file : Option (List IngestionJob))
      (hf : file.getD [] = s.jobs.map (IngestionJob.recovered · active)) :
      Moves s a { s with
        jobs := s.jobs.map (IngestionJob.recovered · active), file, acceptingJobs := true }

@[simp] theorem persistJobs_state {outcome : WriteOutcome} (h : outcome ≠ .refused)
    (job : IngestionJob) : (s.persistJobs outcome job).2 = { s with file := some s.jobs } := by
  cases outcome with
  | written => rfl
  | unsynced => rfl
  | refused => exact absurd rfl h

theorem persistJobs_reply {outcome : WriteOutcome} {job j : IngestionJob}
    (h : (s.persistJobs outcome job).1 = .ok (some j)) : j = job := by
  cases outcome with
  | written => exact (Option.some.inj (Except.ok.inj h)).symm
  | unsynced => cases h
  | refused => cases h

theorem recovered_binding (job : IngestionJob) (active : Option ActiveGeneration) :
    SameBinding job (job.recovered active) := by
  unfold IngestionJob.recovered
  split
  · exact ⟨rfl, rfl, rfl⟩
  · split <;> exact ⟨rfl, rfl, rfl⟩
  · exact ⟨rfl, rfl, rfl⟩
  · exact ⟨rfl, rfl, rfl⟩
  · exact ⟨rfl, rfl, rfl⟩

theorem withState_binding {job : IngestionJob} {changes : Changes}
    (hk : changes.idempotencyKey = none) (hr : changes.sourceRevision = none)
    (state : IngestionJobState) : SameBinding job (job.withState state changes) := by
  refine ⟨rfl, ?_, ?_⟩
  · simp [IngestionJob.withState, hk]
  · simp [IngestionJob.withState, hr]

/-- A call moves the gateway, and a job it returns is in the table. -/
structure Ledgered (s : StoreGateway) (a : Action) (r : Reply) : Prop where
  moves : Moves s a r.2
  returned : ∀ j, r.1 = .ok (some j) → j ∈ r.2.jobs

theorem Ledgered.failed {e : GatewayError} : Ledgered s a (.error e, s) :=
  ⟨.same, fun _ h => nomatch h⟩

theorem Ledgered.updated {job updated : IngestionJob} {outcome : WriteOutcome}
    (ho : outcome ≠ .refused) (hjob : job ∈ s.jobs) (hb : SameBinding job updated)
    (hm : Moved job.state updated.state) :
    Ledgered s a (persistJobs { s with jobs := assign IngestionJob.jobId updated s.jobs }
      outcome updated) := by
  have hmem : updated ∈
      updateWhere (fun j => decide (j.jobId = updated.jobId)) (fun _ => updated) s.jobs := by
    refine mem_updateWhere.mpr ⟨job, hjob, ?_⟩
    rw [if_pos (by simpa using hb.jobId.symm)]
  rw [assign_old hjob hb.jobId.symm]
  constructor
  · rw [persistJobs_state ho]
    exact .update job updated hjob hb hm
  · intro j hj
    rw [persistJobs_state ho, persistJobs_reply hj]
    exact hmem

theorem update_ledgered (jobId : String) (state : IngestionJobState) (changes : Changes)
    (outcome : WriteOutcome) (ha : (Action.update jobId state changes outcome).clean = true) :
    Ledgered s a (s.updateJob jobId state changes outcome) := by
  simp only [Action.clean, Bool.and_eq_true, bne_iff_ne, ne_eq, Option.isNone_iff_eq_none] at ha
  obtain ⟨⟨ho, hk⟩, hr⟩ := ha
  unfold updateJob
  split
  · exact .failed
  · split
    · exact .failed
    · rename_i job hjob
      split
      · exact .failed
      · split
        · exact .failed
        · rename_i hm
          refine .updated ho (lookup_mem hjob) (withState_binding hk hr state) ?_
          by_cases hs : state = job.state
          · exact .inl hs
          · exact .inr (by_contra fun h => hm ⟨hs, h⟩)

theorem cancel_ledgered (jobId now : String) (outcome : WriteOutcome) (ho : outcome ≠ .refused) :
    Ledgered s a (s.cancelIngest jobId now outcome) := by
  unfold cancelIngest
  split
  · exact .failed
  · split
    · refine ⟨.same, ?_⟩
      intro _ h
      cases h
    · rename_i job hjob
      split
      · refine ⟨.same, fun j hj => ?_⟩
        rw [← Option.some.inj (Except.ok.inj hj)]
        exact lookup_mem hjob
      · refine .updated ho (lookup_mem hjob) ?_ ?_
        · split <;> exact withState_binding rfl rfl _
        · split
          · rename_i hs
            refine .inr ?_
            rcases hs with hs | hs <;> rw [hs] <;> simp [IngestionJob.withState, jobTransitions]
          · exact .inl rfl

theorem Inv.unindexed (hi : Inv s) {key : String}
    (h : (lookup Prod.fst key s.jobKeys).map Prod.snd = none) :
    ∀ job ∈ s.jobs, job.idempotencyKey ≠ key := by
  rw [Option.map_eq_none_iff, lookup_eq_none, hi.index] at h
  intro job hjob
  exact h _ (List.mem_map.mpr ⟨job, hjob, rfl⟩)

theorem submit_ledgered (hi : Inv s) (key revision : String) (estimated : Int) (jobId : String)
    (outcome : WriteOutcome) (ho : outcome ≠ .refused)
    (hfresh : ∀ job ∈ s.jobs, job.jobId ≠ jobId) :
    Ledgered s (.submit key revision estimated jobId outcome)
      (s.submitIngest py write key revision estimated jobId outcome) := by
  unfold submitIngest
  split
  · exact .failed
  split
  · exact .failed
  split
  · exact .failed
  split
  · split
    · exact .failed
    · rename_i hjob
      split
      · exact .failed
      · refine ⟨.same, fun j hj => ?_⟩
        rw [← Option.some.inj (Except.ok.inj hj)]
        exact lookup_mem hjob
  · rename_i hkey
    have hnew := hi.unindexed hkey
    split
    · exact .failed
    · split
      · exact .failed
      · have hjobs : assign IngestionJob.jobId (s.newJob jobId key revision estimated) s.jobs =
            s.jobs ++ [s.newJob jobId key revision estimated] := assign_new hfresh
        have hkeys : assign Prod.fst (key, jobId) s.jobKeys = s.jobKeys ++ [(key, jobId)] := by
          refine assign_new fun e he => ?_
          rw [hi.index] at he
          obtain ⟨job, hjob, rfl⟩ := List.mem_map.mp he
          exact hnew job hjob
        simp only [hjobs, hkeys]
        constructor
        · rw [persistJobs_state ho]
          exact .insert (s.newJob jobId key revision estimated) rfl hnew
        · intro j hj
          rw [persistJobs_state ho, persistJobs_reply hj]
          exact List.mem_append_right _ (List.mem_singleton.mpr rfl)

theorem restart_ledgered (hi : Inv s) (active : Option ActiveGeneration) :
    Ledgered s (.restart active) (.ok none, s.restart active) := by
  have hids : Keyed IngestionJob.jobId (s.jobs.map (IngestionJob.recovered · active)) :=
    hi.ids.map fun job _ => (recovered_binding job active).jobId
  have hkeys : (s.jobs.map (IngestionJob.recovered · active)).map
      (fun job => (job.idempotencyKey, job.jobId)) = s.jobKeys := by
    rw [hi.index, List.map_map]
    refine List.map_congr_left fun job _ => ?_
    have hb := recovered_binding job active
    exact Prod.ext hb.idempotencyKey hb.jobId
  refine ⟨?_, fun _ h => nomatch h⟩
  have hfile := hi.file
  unfold restart
  cases hf : s.file with
  | none =>
    rw [hf] at hfile
    have hnil : s.jobs = [] := hfile.symm
    have hnokeys : s.jobKeys = [] := by rw [hi.index, hnil]; rfl
    have := Moves.restart (s := s) (a := .restart active) active rfl none (by rw [hnil]; rfl)
    rw [hnil, hnokeys] at this
    exact this
  | some jobs =>
    rw [hf] at hfile
    have hjobs : jobs = s.jobs := hfile
    subst hjobs
    have hkeyed : Keyed Prod.fst s.jobKeys := by
      have hk := hi.keys
      unfold Keyed at hk ⊢
      rwa [hi.index, List.map_map]
    have h1 : (s.jobs.map (IngestionJob.recovered · active)).foldl
        (fun t job => assign IngestionJob.jobId job t) [] =
        [] ++ s.jobs.map (IngestionJob.recovered · active) :=
      foldl_assign (by rwa [List.nil_append])
    have h2 := foldl_assign (t := []) (by rwa [List.nil_append])
    rw [← hkeys, List.foldl_map, hkeys] at h2
    simp only [h1, h2, List.nil_append]
    exact .restart active rfl (some (s.jobs.map (IngestionJob.recovered · active))) rfl

/-- **What a step does.** -/
theorem exec_ledgered (hi : Inv s) (ha : a.clean = true)
    (hfresh : ∀ jobId, a.drawn = some jobId → ∀ job ∈ s.jobs, job.jobId ≠ jobId) :
    Ledgered s a (s.exec py write a) := by
  cases a with
  | submit key revision estimated jobId outcome =>
    exact submit_ledgered hi key revision estimated jobId outcome (by simpa [Action.clean] using ha)
      (hfresh jobId rfl)
  | update jobId state changes outcome => exact update_ledgered jobId state changes outcome ha
  | cancel jobId now outcome =>
    exact cancel_ledgered jobId now outcome (by simpa [Action.clean] using ha)
  | restart active => exact restart_ledgered hi active

/-! ## The ledger over runs -/

/-- A job after one more step: it keeps its binding, and its state moves along a transition or by
the recovery of a restart. -/
structure Follows (a : Action) (job job' : IngestionJob) : Prop where
  binding : SameBinding job job'
  state : Moved job.state job'.state ∨ ∃ active, a = .restart active ∧ job' = job.recovered active

theorem SameBinding.refl (job : IngestionJob) : SameBinding job job := ⟨rfl, rfl, rfl⟩

theorem Follows.terminal {job job' : IngestionJob} (h : Follows a job job')
    (ht : job.state.terminal = true) : job'.state = job.state := by
  rcases h.state with (hs | hs) | ⟨active, -, rfl⟩
  · exact hs
  · cases hj : job.state <;> simp [hj, jobTransitions, IngestionJobState.terminal] at hs ht
  · unfold IngestionJob.recovered
    cases hj : job.state <;> simp [hj, IngestionJobState.terminal] at ht ⊢

/-- A step keeps every job. -/
theorem Moves.follows {s' : StoreGateway} (h : Moves s a s') (hi : Inv s) :
    ∀ job ∈ s.jobs, ∃ job' ∈ s'.jobs, Follows a job job' := by
  intro job hjob
  cases h with
  | same => exact ⟨job, hjob, .refl job, .inl (.inl rfl)⟩
  | insert new => exact ⟨job, List.mem_append_left _ hjob, .refl job, .inl (.inl rfl)⟩
  | update old updated hold hb hm =>
    by_cases he : job.jobId = updated.jobId
    · obtain rfl : job = old := eq_of_keyed hi.ids hjob hold (he.trans hb.jobId)
      refine ⟨updated, mem_updateWhere.mpr ⟨job, hjob, ?_⟩, hb, .inl hm⟩
      rw [if_pos (by simpa using he)]
    · refine ⟨job, mem_updateWhere.mpr ⟨job, hjob, ?_⟩, .refl job, .inl (.inl rfl)⟩
      rw [if_neg (by simpa using he)]
  | restart active ha file hf =>
    exact ⟨job.recovered active, List.mem_map.mpr ⟨job, hjob, rfl⟩, recovered_binding job active,
      .inr ⟨active, ha, rfl⟩⟩

theorem Moves.ids {s' : StoreGateway} (h : Moves s a s') :
    ∀ job ∈ s'.jobs, (∃ old ∈ s.jobs, old.jobId = job.jobId) ∨ a.drawn = some job.jobId := by
  intro job hjob
  cases h with
  | same => exact .inl ⟨job, hjob, rfl⟩
  | insert new hid =>
    rcases List.mem_append.mp hjob with hjob | hjob
    · exact .inl ⟨job, hjob, rfl⟩
    · rw [List.mem_singleton.mp hjob]
      exact .inr hid
  | update old updated hold hb hm =>
    obtain ⟨x, hx, rfl⟩ := mem_updateWhere.mp hjob
    refine .inl ⟨x, hx, ?_⟩
    split
    · rename_i he
      simpa using he
    · rfl
  | restart active =>
    obtain ⟨x, hx, rfl⟩ := List.mem_map.mp hjob
    exact .inl ⟨x, hx, (recovered_binding x active).jobId.symm⟩

theorem Inv.rebound (hi : Inv s) {g : IngestionJob → IngestionJob}
    (hg : ∀ job ∈ s.jobs, SameBinding job (g job)) {file : Option (List IngestionJob)}
    (hf : file.getD [] = s.jobs.map g) (accepting : Bool) :
    Inv { s with jobs := s.jobs.map g, file, acceptingJobs := accepting } where
  ids := hi.ids.map fun job hjob => (hg job hjob).jobId
  keys := hi.keys.map fun job hjob => (hg job hjob).idempotencyKey
  index := by
    show s.jobKeys = _
    rw [hi.index, List.map_map]
    refine List.map_congr_left fun job hjob => ?_
    have hb := hg job hjob
    exact (Prod.ext hb.idempotencyKey hb.jobId).symm
  file := hf

theorem Moves.inv {s' : StoreGateway} (h : Moves s a s') (hi : Inv s)
    (hfresh : ∀ jobId, a.drawn = some jobId → ∀ job ∈ s.jobs, job.jobId ≠ jobId) : Inv s' := by
  cases h with
  | same => exact hi
  | insert job hid hkey =>
    refine ⟨?_, ?_, ?_, rfl⟩
    · exact hi.ids.append_singleton (hfresh _ hid)
    · exact hi.keys.append_singleton hkey
    · simp [hi.index]
  | update job updated hjob hb hm =>
    refine hi.rebound (fun x hx => ?_) rfl s.acceptingJobs
    split
    · rename_i he
      obtain rfl : x = job :=
        eq_of_keyed hi.ids hx hjob ((by simpa using he : x.jobId = _).trans hb.jobId)
      exact hb
    · exact .refl x
  | restart active ha file hf =>
    exact hi.rebound (fun job _ => recovered_binding job active) hf true

variable (py : Python) (write : LaneLimits)

/-- Every key names one job, the index is the list of these bindings, and the jobs file is the
table. -/
structure Bound (s : StoreGateway) : Prop where
  unique : ∀ job ∈ s.jobs, ∀ job' ∈ s.jobs, job.idempotencyKey = job'.idempotencyKey → job = job'
  indexed : ∀ job ∈ s.jobs, lookup Prod.fst job.idempotencyKey s.jobKeys =
    some (job.idempotencyKey, job.jobId)
  listed : ∀ e ∈ s.jobKeys, ∃ job ∈ s.jobs, job.idempotencyKey = e.1 ∧ job.jobId = e.2
  durable : s.file.getD [] = s.jobs

theorem Inv.bound (hi : Inv s) : Bound s where
  unique := fun job hjob job' hjob' he => eq_of_keyed hi.keys hjob hjob' he
  indexed := by
    intro job hjob
    have hkeyed : Keyed Prod.fst s.jobKeys := by
      have hk := hi.keys
      unfold Keyed at hk ⊢
      rwa [hi.index, List.map_map]
    refine (lookup_eq_some hkeyed).mpr ⟨?_, rfl⟩
    rw [hi.index]
    exact List.mem_map.mpr ⟨job, hjob, rfl⟩
  listed := by
    intro e he
    rw [hi.index] at he
    obtain ⟨job, hjob, rfl⟩ := List.mem_map.mp he
    exact ⟨job, hjob, rfl, rfl⟩
  durable := hi.file

/-- The ids of the jobs were drawn by `actions`. -/
def Drawn (actions : List Action) (s : StoreGateway) : Prop :=
  ∀ job ∈ s.jobs, job.jobId ∈ actions.filterMap Action.drawn

/-- The gateway after `actions`, from an empty data directory. -/
def after (actions : List Action) : StoreGateway := Run.run (step py write) {} actions

variable {py write}

theorem after_snoc (actions : List Action) (a : Action) :
    after py write (actions ++ [a]) = (after py write actions).step py write a :=
  Run.run_snoc ..

theorem fresh_next {actions : List Action} (hd : Drawn actions s)
    (hn : ((actions ++ [a]).filterMap Action.drawn).Nodup) :
    ∀ jobId, a.drawn = some jobId → ∀ job ∈ s.jobs, job.jobId ≠ jobId := by
  rintro jobId ha job hjob rfl
  rw [List.filterMap_append, List.nodup_append] at hn
  exact hn.2.2 _ (hd job hjob) job.jobId (by simp [ha]) rfl

theorem drawn_extends {actions post : List Action}
    (hn : ((actions ++ post).filterMap Action.drawn).Nodup) :
    (actions.filterMap Action.drawn).Nodup := by
  rw [List.filterMap_append] at hn
  exact (List.nodup_append.mp hn).1

theorem run_inv (actions : List Action) (hc : ∀ a ∈ actions, a.clean = true)
    (hn : (actions.filterMap Action.drawn).Nodup) :
    Inv (after py write actions) ∧ Drawn actions (after py write actions) := by
  induction actions using List.reverseRecOn with
  | nil => exact ⟨inv_init, fun _ h => nomatch h⟩
  | append_singleton actions a ih =>
    obtain ⟨hi, hd⟩ := ih (fun b hb => hc b (List.mem_append_left _ hb)) (drawn_extends hn)
    have hfresh := fresh_next hd hn
    have hm : Moves (after py write actions) a ((after py write actions).step py write a) :=
      (exec_ledgered hi (hc a (by simp)) hfresh).moves
    rw [after_snoc]
    refine ⟨hm.inv hi hfresh, fun job hjob => ?_⟩
    rw [List.filterMap_append, List.mem_append]
    rcases hm.ids job hjob with ⟨old, hold, he⟩ | hdrawn
    · rw [← he]
      exact .inl (hd old hold)
    · exact .inr (by simp [hdrawn])

theorem run_step {actions : List Action} (hc : ∀ b ∈ actions ++ [a], b.clean = true)
    (hn : ((actions ++ [a]).filterMap Action.drawn).Nodup) :
    Ledgered (after py write actions) a ((after py write actions).exec py write a) := by
  have hpre : ∀ b ∈ actions, b.clean = true := fun b hb => hc b (List.mem_append_left _ hb)
  obtain ⟨hi, hd⟩ : Inv (after py write actions) ∧ Drawn actions (after py write actions) :=
    run_inv actions hpre (drawn_extends hn)
  exact exec_ledgered hi (hc a (by simp)) (fresh_next hd hn)

/-- A job at one point of a run, and the same job later. -/
def Later : IngestionJob → IngestionJob → Prop :=
  Relation.ReflTransGen fun job job' => ∃ a, Follows a job job'

theorem run_later {actions : List Action} (post : List Action)
    (hc : ∀ b ∈ actions ++ post, b.clean = true)
    (hn : ((actions ++ post).filterMap Action.drawn).Nodup) {job : IngestionJob}
    (hjob : job ∈ (after py write actions).jobs) :
    ∃ job' ∈ (after py write (actions ++ post)).jobs, Later job job' := by
  induction post using List.reverseRecOn with
  | nil => exact ⟨job, by rwa [List.append_nil], .refl⟩
  | append_singleton post a ih =>
    rw [← List.append_assoc] at hc hn ⊢
    have hpre : ∀ b ∈ actions ++ post, b.clean = true :=
      fun b hb => hc b (List.mem_append_left _ hb)
    obtain ⟨job', hjob', hl⟩ := ih hpre (drawn_extends hn)
    have hi : Inv (after py write (actions ++ post)) := (run_inv _ hpre (drawn_extends hn)).1
    obtain ⟨job'', hjob'', hf⟩ := (run_step hc hn).moves.follows hi job' hjob'
    rw [after_snoc]
    exact ⟨job'', hjob'', hl.tail ⟨a, hf⟩⟩

/-- What the ledger promises of a run: in every state it reaches each key is bound to one job; a step
keeps every job with its binding, moves its state along a transition or by the recovery of a
restart, and leaves no terminal state; and a job that a call returned is there at the end. -/
structure Kept (py : Python) (write : LaneLimits) (actions : List Action) : Prop where
  bound : ∀ pre, pre <+: actions → Bound (after py write pre)
  follows : ∀ pre a, pre ++ [a] <+: actions → ∀ job ∈ (after py write pre).jobs,
    ∃ job' ∈ (after py write (pre ++ [a])).jobs, Follows a job job' ∧
      (job.state.terminal = true → job'.state = job.state)
  returned : ∀ pre a post job, actions = pre ++ a :: post →
    ((after py write pre).exec py write a).1 = .ok (some job) →
    ∃ job' ∈ (after py write actions).jobs, Later job job'

end StoreGateway

open StoreGateway

/-- **The ledger of ingestion jobs**, in every run in which the jobs file is replaced by each call
that changes the table and no update rewrites the binding of its job. -/
theorem ingest_ledger (py : Python) (write : LaneLimits) (actions : List Action)
    (hc : ∀ a ∈ actions, a.clean = true) (hn : (actions.filterMap Action.drawn).Nodup) :
    Kept py write actions := by
  have hpre : ∀ pre, pre <+: actions →
      (∀ a ∈ pre, a.clean = true) ∧ (pre.filterMap Action.drawn).Nodup := by
    rintro pre ⟨post, rfl⟩
    exact ⟨fun a ha => hc a (List.mem_append_left _ ha), drawn_extends hn⟩
  constructor
  · intro pre h
    obtain ⟨hcp, hnp⟩ := hpre pre h
    exact (run_inv pre hcp hnp).1.bound
  · intro pre a h job hjob
    obtain ⟨hcp, hnp⟩ := hpre _ h
    have hi : Inv (after py write pre) :=
      (run_inv pre (fun b hb => hcp b (List.mem_append_left _ hb)) (drawn_extends hnp)).1
    obtain ⟨job', hjob', hf⟩ := (run_step hcp hnp).moves.follows hi job hjob
    rw [after_snoc]
    exact ⟨job', hjob', hf, hf.terminal⟩
  · rintro pre a post job rfl hr
    rw [← List.singleton_append, ← List.append_assoc] at hc hn ⊢
    refine run_later post hc hn ?_
    rw [after_snoc]
    exact (run_step (fun b hb => hc b (List.mem_append_left _ hb)) (drawn_extends hn)).returned job hr

/-- A Python whose `int` refuses every text. -/
def samplePython : Python :=
  { sha256Hex := id, reprContainer := fun _ => "", casefold := id, parseInt := fun _ => .error "" }

/-- A job is submitted, written, and recovered as ambiguous. -/
theorem ingest_ledger_sample :
    Kept samplePython { concurrency_pos := Nat.le_refl _ }
      [.restart none, .submit "key" "r1" 8 "job" .written, .update "job" .writing {} .unsynced,
        .restart none, .cancel "job" "now" .written] :=
  ingest_ledger _ _ _ (by decide) (by decide)

/-- **A refused write loses a job that a later call returned**: the table holds the job that was not
written, a second submission returns it, and a restart reads a file without it. -/
theorem unpersisted_submission_lost :
    ¬ ∀ (py : Python) (write : LaneLimits) (actions : List Action),
      (actions.filterMap Action.drawn).Nodup → Kept py write actions := by
  intro h
  have hk := h samplePython { concurrency_pos := Nat.le_refl _ }
    [.restart none, .submit "key" "r1" 8 "job" .refused, .submit "key" "r1" 8 "other" .written,
      .restart none] (by decide)
  obtain ⟨job, hjob, -⟩ := hk.returned
    [.restart none, .submit "key" "r1" 8 "job" .refused] _ [.restart none] _ rfl rfl
  exact absurd hjob List.not_mem_nil

end CortexHarness.Storage
