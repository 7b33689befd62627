import CortexHarness.Storage.Ingestion

/-!
# Job calls that raise

What a failed `submit_ingest`, `update_job` or `cancel_ingest` (`gateway.py:646-774, 804-822`)
leaves behind in memory. The calls are those of the ledger; the time of the last update, which every
written row carries (`with_state`), is added beside it. A `refused` or `unsynced` write stands for
every way in which `_persist_jobs` raises: the control lane is full, its deadline elapses, the disk
fails. Without executors `_persist_jobs` returns at once, like a write that succeeds.

Results:
* `exec_of_pending`, `exec_of_not_pending`: a call is its checks, one row, and then the write;
* `raising_call_atomic_iff`: a call that raises leaves the tables as they were exactly if it has not
  written a new row before.
-/

namespace CortexHarness.Storage

open Table

namespace StoreGateway

variable (py : Python) (write : LaneLimits) (s : StoreGateway)

/-- How the write of the jobs file ends, for a call that comes to it. -/
def Action.outcome : Action → WriteOutcome
  | .submit _ _ _ _ outcome => outcome
  | .update _ _ _ outcome => outcome
  | .cancel _ _ outcome => outcome
  | .restart _ => .written

/-- The row a call puts into the table before it writes the file, with the index after it; `none`
for a call that raises or returns before. -/
def pending : Action → Option (IngestionJob × List (String × String))
  | .submit key revision estimated jobId _ =>
    if blank key ∨ blank revision ∨ estimated < 0 ∨ s.acceptingJobs = false then none
    else
      match lookup Prod.fst key s.jobKeys, s.queuedBytes py with
      | none, .ok queued =>
        if s.activeJobs.length ≥ write.maxQueueItems ∨ queued + estimated > write.maxQueueBytes then
          none
        else
          some (s.newJob jobId key revision estimated, assign Prod.fst (key, jobId) s.jobKeys)
      | _, _ => none
  | .update jobId state changes _ =>
    if s.acceptingJobs = false then none
    else
      match lookup IngestionJob.jobId jobId s.jobs with
      | none => none
      | some job =>
        if job.state.terminal ∧ state ≠ job.state then none
        else if state ≠ job.state ∧ state ∉ jobTransitions job.state then none
        else some (job.withState state changes, s.jobKeys)
  | .cancel jobId now _ =>
    if s.acceptingJobs = false then none
    else
      match lookup IngestionJob.jobId jobId s.jobs with
      | none => none
      | some job =>
        if job.state.terminal then none
        else
          let requested := some (some (job.cancelRequestedAt.getD now))
          let updated :=
            if job.state = .queued ∨ job.state = .preparing then
              job.withState .cancelled
                { cancelRequestedAt := requested, queuePosition := some none }
            else job.withState job.state { cancelRequestedAt := requested }
          some (updated, s.jobKeys)
  | .restart _ => none

variable {py write s} {a : Action}

/-- A call that writes a row ends with the write of the file. -/
theorem exec_of_pending {job : IngestionJob} {keys : List (String × String)}
    (h : s.pending py write a = some (job, keys)) :
    s.exec py write a =
      persistJobs { s with jobs := assign IngestionJob.jobId job s.jobs, jobKeys := keys }
        a.outcome job := by
  cases a with
  | submit key revision estimated jobId outcome =>
    simp only [pending] at h
    split at h
    · cases h
    · rename_i hchecks
      simp only [not_or] at hchecks
      obtain ⟨hkey, hrevision, hestimated, haccepting⟩ := hchecks
      split at h
      · rename_i queued hindex hqueued
        split at h
        · cases h
        · rename_i hroom
          cases h
          simp only [exec, submitIngest, hkey, hrevision, hestimated, haccepting, hindex, hqueued,
            hroom, or_self, if_false, Option.map_none]
          rfl
      · cases h
  | update jobId state changes outcome =>
    simp only [pending] at h
    split at h
    · cases h
    · rename_i haccepting
      split at h
      · cases h
      · rename_i job' hjob
        split at h
        · cases h
        · rename_i hterminal
          split at h
          · cases h
          · rename_i hmoves
            cases h
            simp only [exec, updateJob, haccepting, hjob, hterminal, hmoves, if_false]
            rfl
  | cancel jobId now outcome =>
    simp only [pending] at h
    split at h
    · cases h
    · rename_i haccepting
      split at h
      · cases h
      · rename_i job' hjob
        split at h
        · cases h
        · rename_i hterminal
          cases h
          simp only [exec, cancelIngest, haccepting, hjob, hterminal]
          rfl
  | restart active => cases h

/-- A call that writes no row leaves the gateway as it was; a restart is no such call. -/
theorem exec_of_not_pending (h : s.pending py write a = none)
    (hcall : ∀ active, a ≠ .restart active) : (s.exec py write a).2 = s := by
  cases a with
  | submit key revision estimated jobId outcome =>
    simp only [exec, submitIngest]
    split
    · rfl
    · rename_i hblank
      split
      · rfl
      · rename_i hestimated
        split
        · rfl
        · rename_i haccepting
          cases hindex : lookup Prod.fst key s.jobKeys with
          | some e =>
            simp only [Option.map_some]
            split
            · rfl
            · split <;> rfl
          | none =>
            simp only [Option.map_none]
            split
            · rfl
            · rename_i queued hqueued
              split
              · rfl
              · rename_i hroom
                simp only [not_or] at hblank
                simp [pending, hblank, hestimated, haccepting, hindex, hqueued, hroom] at h
  | update jobId state changes outcome =>
    simp only [exec, updateJob]
    split
    · rfl
    · rename_i haccepting
      split
      · rfl
      · rename_i job hjob
        split
        · rfl
        · rename_i hterminal
          split
          · rfl
          · rename_i hmoves
            simp only [pending, haccepting, hjob, hterminal, hmoves, if_false] at h
            cases h
  | cancel jobId now outcome =>
    simp only [exec, cancelIngest]
    split
    · rfl
    · rename_i haccepting
      split
      · rfl
      · rename_i job hjob
        split
        · rfl
        · rename_i hterminal
          simp only [pending, haccepting, hjob, hterminal] at h
          cases h
  | restart active => exact absurd rfl (hcall active)

end StoreGateway

/-! ## The tables in memory -/

/-- The gateway, and the `updated_at` of the rows by job id. -/
structure ClockedGateway where
  gateway : StoreGateway
  updatedAt : String → Option String

namespace ClockedGateway

open StoreGateway

variable (py : Python) (write : LaneLimits)

/-- Perform one call, at the time `clock`. -/
def exec (g : ClockedGateway) (a : Action) (clock : String) :
    Except GatewayError (Option IngestionJob) × ClockedGateway :=
  let reply := g.gateway.exec py write a
  (reply.1, { gateway := reply.2
              updatedAt := match g.gateway.pending py write a with
                | some (job, _) => Function.update g.updatedAt job.jobId (some clock)
                | none => g.updatedAt })

/-- The job table and the idempotency keys are the same. -/
structure SameTables (g g' : ClockedGateway) : Prop where
  jobs : g'.gateway.jobs = g.gateway.jobs
  updatedAt : g'.updatedAt = g.updatedAt
  jobKeys : g'.gateway.jobKeys = g.gateway.jobKeys

/-- The row is in the table already, with this time. -/
structure Holds (g : ClockedGateway) (job : IngestionJob) (keys : List (String × String))
    (clock : String) : Prop where
  row : lookup IngestionJob.jobId job.jobId g.gateway.jobs = some job
  updatedAt : g.updatedAt job.jobId = some clock
  jobKeys : keys = g.gateway.jobKeys

/-! ## Which calls leave them alone -/

/-- Writing a row that is in the table changes nothing, and no other row does that. -/
theorem assign_eq_self {jobs : List IngestionJob} (h : Keyed IngestionJob.jobId jobs)
    (job : IngestionJob) :
    assign IngestionJob.jobId job jobs = jobs ↔
      lookup IngestionJob.jobId job.jobId jobs = some job := by
  constructor
  · intro heq
    have hlookup : lookup IngestionJob.jobId job.jobId (assign IngestionJob.jobId job jobs) = _ :=
      lookup_assign job job.jobId
    rwa [heq, if_pos rfl] at hlookup
  · intro hlookup
    have hmem := lookup_mem hlookup
    rw [assign_old hmem rfl, updateWhere]
    conv_rhs => rw [← List.map_id jobs]
    refine List.map_congr_left fun other hother => ?_
    by_cases hid : other.jobId = job.jobId
    · simp [eq_of_keyed h hother hmem hid]
    · simp [hid]

variable {py write} {g : ClockedGateway} {a : Action} {clock : String}

theorem update_eq_self {f : String → Option String} {id : String} :
    Function.update f id (some clock) = f ↔ f id = some clock := by
  rw [Function.update_eq_self_iff, eq_comm]

theorem persistJobs_error {s : StoreGateway} {outcome : WriteOutcome} (h : outcome ≠ .written)
    (job : IngestionJob) : (s.persistJobs outcome job).1 = .error .persist := by
  cases outcome with
  | written => exact absurd rfl h
  | unsynced => rfl
  | refused => rfl

theorem sameTables_failed {job : IngestionJob} {keys : List (String × String)}
    (hkeyed : Keyed IngestionJob.jobId g.gateway.jobs)
    (h : g.gateway.pending py write a = some (job, keys)) :
    SameTables g (g.exec py write a clock).2 ↔ Holds g job keys clock := by
  have hstate : (g.gateway.exec py write a).2.jobs =
      assign IngestionJob.jobId job g.gateway.jobs ∧
      (g.gateway.exec py write a).2.jobKeys = keys := by
    rw [exec_of_pending h]
    cases a.outcome <;> exact ⟨rfl, rfl⟩
  constructor
  · intro hsame
    refine ⟨(assign_eq_self hkeyed job).mp (hstate.1.symm.trans hsame.jobs), ?_,
      hstate.2.symm.trans hsame.jobKeys⟩
    have htime := hsame.updatedAt
    simp only [exec, h] at htime
    exact update_eq_self.mp htime
  · intro hholds
    refine ⟨hstate.1.trans ((assign_eq_self hkeyed job).mpr hholds.row), ?_,
      hstate.2.trans hholds.jobKeys⟩
    simp only [exec, h]
    exact update_eq_self.mpr hholds.updatedAt

/-- **A call that raises leaves the tables as they were exactly if the jobs file was written, or no
row was, or the row was there already.** -/
theorem raising_call_atomic_iff (hkeyed : Keyed IngestionJob.jobId g.gateway.jobs) :
    (∀ e, (g.exec py write a clock).1 = .error e → SameTables g (g.exec py write a clock).2) ↔
      a.outcome = .written ∨ ∀ job keys, g.gateway.pending py write a = some (job, keys) →
        Holds g job keys clock := by
  cases hpending : g.gateway.pending py write a with
  | none =>
    refine iff_of_true (fun e he => ?_) (Or.inr fun _ _ h => nomatch h)
    have hcall : ∀ active, a ≠ .restart active := by
      rintro active rfl
      cases he
    have hsame := exec_of_not_pending hpending hcall
    exact ⟨congrArg StoreGateway.jobs hsame, by simp only [exec, hpending],
      congrArg StoreGateway.jobKeys hsame⟩
  | some row =>
    obtain ⟨job, keys⟩ := row
    have hreply : (g.exec py write a clock).1 = (persistJobs _ a.outcome job).1 :=
      congrArg Prod.fst (exec_of_pending hpending)
    by_cases hwritten : a.outcome = .written
    · refine iff_of_true (fun e he => ?_) (Or.inl hwritten)
      rw [hreply, hwritten] at he
      cases he
    · rw [persistJobs_error hwritten] at hreply
      rw [sameTables_failed hkeyed hpending, or_iff_right hwritten]
      constructor
      · intro h _ _ heq
        cases heq
        exact h _ hreply
      · exact fun h _ _ => h job keys rfl

/-- A queued job. -/
def sampleGateway : ClockedGateway where
  gateway :=
    { jobs := [{ jobId := "job", idempotencyKey := "key", sourceRevision := "r1" }]
      jobKeys := [("key", "job")]
      acceptingJobs := true }
  updatedAt := fun _ => some "10:00"

theorem raising_call_atomic_sample :
    (∀ e, (sampleGateway.exec samplePython { concurrency_pos := Nat.le_refl _ }
        (.update "job" .validating {} .refused) "10:01").1 = .error e →
      SameTables sampleGateway (sampleGateway.exec samplePython
        { concurrency_pos := Nat.le_refl _ } (.update "job" .validating {} .refused) "10:01").2) ↔
      Action.outcome (.update "job" .validating {} .refused) = .written ∨
        ∀ job keys, sampleGateway.gateway.pending samplePython
          { concurrency_pos := Nat.le_refl _ } (.update "job" .validating {} .refused) =
            some (job, keys) → Holds sampleGateway job keys "10:01" :=
  raising_call_atomic_iff (List.nodup_singleton _)

/-- A job is in preparation although the call that said so has raised. -/
theorem raising_call_not_atomic :
    ¬ ∀ (py : Python) (write : LaneLimits) (g : ClockedGateway) (a : Action) (clock : String),
      Keyed IngestionJob.jobId g.gateway.jobs → ∀ e, (g.exec py write a clock).1 = .error e →
        SameTables g (g.exec py write a clock).2 := by
  intro h
  have hsame := h samplePython { concurrency_pos := Nat.le_refl _ } sampleGateway
    (.update "job" .preparing {} .refused) "10:01" (List.nodup_singleton _) .persist rfl
  have hstate := congrArg (List.map IngestionJob.state) hsame.jobs
  exact absurd hstate (by decide)

end ClockedGateway

end CortexHarness.Storage
