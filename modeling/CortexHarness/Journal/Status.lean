import CortexHarness.Journal.Audit

/-!
# Status inspection

`status_summary` (`sqlite_store.py:2801-2899`) and `inspect_journal` (`59-183`) report the same
counters of a run by separate queries; `status_summary` also checks a sealed endpoint audit again.

Results:
* `statusSummary_counters`, `mem_inspectJournal`: the two report the same counters of a stored run;
* `endpointAuditStatus_iff`: in a reachable journal the check fails exactly on a sealed run that was
  quarantined as incompatible afterwards;
* `statusSummary_iff`: **so `status_summary` returns, with the counters of `inspect_journal`, exactly
  on the other runs**; `statusSummary_raises` is such a run.

Model notes: an age is an interval of the clock, not a number of seconds; the sizes of the database
files are a parameter of either call.
-/

namespace CortexHarness.Journal

open Table

variable (cfg : Config) (s : SQLiteJournal)

/-! ## The reports -/

/-- The counters both reports have. -/
structure RunCounters where
  runId : String
  status : RunStatus
  resumed : Bool
  parser : String
  produced : Nat
  acked : Nat
  pending : Nat
  leased : Nat
  retrying : Nat
  reconciling : Nat
  blocked : Nat
  deadLetter : Nat
  rows : Nat
  payloadBytes : Nat
  artifactBytes : Nat
  nextAction : String
  errorCode : Option TerminalErrorCode
  deriving Repr, DecidableEq

/-- One summary of `inspect_journal`. -/
structure Inspection extends RunCounters where
  journalBytes : Nat
  oldestUnfinishedAt : Option Time
  oldestUnfinishedAge : Option Time
  deriving Repr, DecidableEq

/-- What `status_summary` returns. -/
structure StatusSummary extends Inspection where
  endpointAudit : Option String
  conservation : ConservationSummary
  deriving Repr, DecidableEq

/-- `SELECT status, COUNT(*) … GROUP BY status`. -/
def observedCounts (rows : List Batch) : List (BatchStatus × Nat) :=
  (rows.map Batch.status).dedup.map fun status =>
    (status, rows.countP fun b => b.status == status)

/-- `counts = {status: 0 for status in BatchStatus}`, updated with the observed ones. -/
def statusCounts (runId : String) (status : BatchStatus) : Nat :=
  ((lookup Prod.fst status
    (observedCounts (s.batches.filter fun b => b.runId == runId))).map Prod.snd).getD 0

/-- `next_action`, the same chain in both reports (`sqlite_store.py:123-140`, `2853-2870`). -/
def nextAction (purgePending : Bool) (status : RunStatus) (counts : BatchStatus → Nat) : String :=
  if purgePending then "retry_purge"
  else if status = .drained then "none"
  else if status = .blocked ∨ status = .deadLettered then
    "inspect_error_and_acknowledge_or_purge_after_retention"
  else if status = .quarantined then "inspect_incompatible_fingerprint"
  else if counts .reconciling ≠ 0 then "reconcile_ambiguous_batches"
  else if counts .retryWait ≠ 0 then "wait_for_retry"
  else if counts .leased ≠ 0 then "wait_for_active_consumer"
  else if counts .pending ≠ 0 then "resume_consumer"
  else "close_production"

/-- `SELECT 1 FROM events WHERE run_id = ? AND event_type = ? LIMIT 1`. -/
def hasEvent (runId : String) (eventType : EventType) : Bool :=
  s.events.any fun e => e.runId == runId && e.eventType == eventType

/-- `COALESCE(SUM(byte_count), 0)` over the artifacts of a run. -/
def artifactBytes (runId : String) : Nat :=
  ((s.artifacts.filter fun a => a.runId == runId).map Artifact.byteCount).sum

/-- `status_summary`. -/
def statusSummary (runId : String) (now : Time) (journalBytes : Nat) :
    Except Failure StatusSummary :=
  match s.getRun runId with
  | none => .error (.journal .invalidTransition "journal run does not exist" [])
  | some run =>
    let counts := statusCounts s runId
    let batches := s.batches.filter fun b => b.runId == runId
    let oldest := ((s.batches.filter fun b => b.runId == runId && b.status != .done).map
      fun b => b.createdAt).min?
    match endpointAuditStatus cfg s runId with
    | .error e => .error e
    | .ok endpointAudit =>
      .ok
        { runId := run.runId
          status := run.status
          resumed := hasEvent s runId .runResumed
          parser := run.metadata.parser
          produced := batches.length
          acked := counts .done
          pending := counts .pending
          leased := counts .leased
          retrying := counts .retryWait
          reconciling := counts .reconciling
          blocked := counts .blocked
          deadLetter := counts .deadLetter
          rows := (batches.map fun b => b.artifact.rowCount).sum
          payloadBytes := (batches.map fun b => b.artifact.byteCount).sum
          artifactBytes := artifactBytes s runId
          journalBytes
          endpointAudit
          conservation := conservationSummary cfg s runId
          oldestUnfinishedAt := oldest
          oldestUnfinishedAge := oldest.map fun at' => max 0 (now - at')
          nextAction := nextAction (hasEvent s runId .runPurgeStarted) run.status counts
          errorCode := run.errorCode }

/-- The summary `inspect_journal` makes of one row of `runs`. -/
def inspectRun (now : Time) (journalBytes : Nat) (run : Run) : Inspection :=
  let purgePending := hasEvent s run.runId .runPurgeStarted
  let counts := statusCounts s run.runId
  let batches := s.batches.filter fun b => b.runId == run.runId
  -- `MIN(CASE WHEN status != 'DONE' THEN created_at END)`
  let oldest := (batches.filterMap fun b =>
    if b.status = .done then none else some b.createdAt).min?
  { runId := run.runId
    status := run.status
    resumed := hasEvent s run.runId .runResumed
    parser := run.metadata.parser
    produced := batches.length
    acked := counts .done
    pending := counts .pending
    leased := counts .leased
    retrying := counts .retryWait
    reconciling := counts .reconciling
    blocked := counts .blocked
    deadLetter := counts .deadLetter
    rows := (batches.map fun b => b.artifact.rowCount).sum
    payloadBytes := (batches.map fun b => b.artifact.byteCount).sum
    artifactBytes := artifactBytes s run.runId
    journalBytes
    oldestUnfinishedAt := oldest
    oldestUnfinishedAge := oldest.map fun at' => max 0 (now - at')
    nextAction := nextAction purgePending run.status counts
    errorCode := run.errorCode }

/-- `ORDER BY updated_at DESC, run_id`. -/
def inspectOrder (a b : Run) : Bool :=
  decide (a.updatedAt > b.updatedAt) || (a.updatedAt == b.updatedAt && decide (a.runId ≤ b.runId))

/-- `inspect_journal`. -/
def inspectJournal (now : Time) (journalBytes : Nat) : List Inspection :=
  (s.runs.insertionSort fun a b => inspectOrder a b = true).map (inspectRun s now journalBytes)

variable {cfg s} {runId : String}

/-! ## The counters agree -/

/-- The two reports of a run, side by side. -/
theorem statusSummary_ok {now : Time} {bytes : Nat} {summary : StatusSummary}
    (h : statusSummary cfg s runId now bytes = .ok summary) :
    ∃ run, s.getRun runId = some run ∧ summary.toInspection = inspectRun s now bytes run := by
  unfold statusSummary at h
  split at h
  · cases h
  · rename_i run hrun
    simp only at h
    split at h
    · cases h
    · cases h
      refine ⟨run, hrun, ?_⟩
      have hid : run.runId = runId := lookup_key hrun
      have holdest : (s.batches.filter fun b => b.runId == runId && b.status != .done).map
            (fun b => b.createdAt) =
          (s.batches.filter fun b => b.runId == runId).filterMap fun b =>
            if b.status = .done then none else some b.createdAt := by
        rw [← List.filterMap_eq_map, List.filterMap_filter, List.filterMap_filter]
        refine List.filterMap_congr fun b _ => ?_
        by_cases hr : b.runId = runId <;> by_cases hd : b.status = .done <;> simp [hr, hd]
      simp only [inspectRun, hid, holdest]

theorem mem_inspectJournal {now : Time} {bytes : Nat} {i : Inspection} :
    i ∈ inspectJournal s now bytes ↔ ∃ run ∈ s.runs, inspectRun s now bytes run = i := by
  simp only [inspectJournal, List.mem_map]
  exact ⟨fun ⟨r, hr, h⟩ => ⟨r, (List.perm_insertionSort _ _).mem_iff.mp hr, h⟩,
    fun ⟨r, hr, h⟩ => ⟨r, (List.perm_insertionSort _ _).mem_iff.mpr hr, h⟩⟩

/-- The counters of a run, as `inspect_journal` reports them. -/
structure Agrees (summary : StatusSummary) (inspections : List Inspection) : Prop where
  reported : ∃ i ∈ inspections, i.runId = summary.runId
  equal : ∀ i ∈ inspections, i.runId = summary.runId → i.toRunCounters = summary.toRunCounters

/-- What `status_summary` returns has the counters of `inspect_journal`, at any two times. -/
theorem statusSummary_agrees (hk : Keys s) {now now' : Time} {bytes bytes' : Nat}
    {summary : StatusSummary} (h : statusSummary cfg s runId now bytes = .ok summary) :
    Agrees summary (inspectJournal s now' bytes') := by
  obtain ⟨run, hrun, hs⟩ := statusSummary_ok h
  have hmem : run ∈ s.runs := lookup_mem hrun
  have hid : summary.runId = run.runId := by rw [hs]; rfl
  refine ⟨⟨_, mem_inspectJournal.mpr ⟨run, hmem, rfl⟩, hid.symm⟩, fun i hi hri => ?_⟩
  obtain ⟨run', hm', rfl⟩ := mem_inspectJournal.mp hi
  have he : run' = run := eq_of_keyed hk.runs hm' hmem (hri.trans hid)
  rw [he, hs]
  rfl

/-! ## The check of the audit -/

/-- The run has a sealed audit and was quarantined as incompatible. -/
structure SealedSuperseded (s : SQLiteJournal) (runId : String) : Prop where
  audited : s.getAudit runId ≠ none
  superseded : ∃ run, s.getRun runId = some run ∧ run.status = .quarantined ∧
    run.errorCode = some .incompatibleSchema

theorem v3Eligible_iff {run : Run} (h : s.getRun runId = some run) :
    v3Eligible s runId = false ↔
      run.status = .quarantined ∧ run.errorCode = some .incompatibleSchema := by
  simp [v3Eligible, h]

/-- In a reachable journal the check of a stored run fails exactly when the run was sealed and then
superseded: what else it looks at does not change after the seal. -/
theorem endpointAuditStatus_iff (h : Reachable cfg s) {run : Run} (hr : s.getRun runId = some run) :
    (∃ status, endpointAuditStatus cfg s runId = .ok status) ↔ ¬ SealedSuperseded s runId := by
  have hl : LedgerInv s := h.ledgerInv
  unfold endpointAuditStatus
  cases ha : s.getAudit runId with
  | none => exact ⟨fun _ hs => hs.audited ha, fun _ => ⟨none, rfl⟩⟩
  | some audit =>
    have hid : audit.runId = runId := lookup_key ha
    have hb : Boundary cfg s runId audit.manifestDigest audit.receiptCount :=
      hid ▸ h.auditInv audit (lookup_mem ha)
    simp only
    cases hv : v3Eligible s runId with
    | true =>
      have hval := validate_of_boundary (some audit) hl hb hv fun a he => by
        cases he
        exact ⟨rfl, rfl⟩
      rw [hval]
      refine ⟨fun _ hs => ?_, fun _ => ⟨_, rfl⟩⟩
      obtain ⟨run', hr', hq⟩ := hs.superseded
      rw [(v3Eligible_iff hr').mpr hq] at hv
      cases hv
    | false =>
      refine ⟨fun ⟨status, hok⟩ => ?_, fun hs => ?_⟩
      · cases hval : validateAuditBoundary cfg s runId (some audit) with
        | error e =>
          rw [hval] at hok
          cases hok
        | ok summary =>
          obtain ⟨-, hv3, -⟩ := boundary_of_validate hl hval
          rw [hv3] at hv
          cases hv
      · exact absurd ⟨by rw [ha]; simp, run, hr, (v3Eligible_iff hr).mp hv⟩ hs

/-! ## The whole -/

/-- **Status inspection.** In every reachable journal `status_summary` of a stored run returns, with
the counters `inspect_journal` reports for it, exactly when the run was not superseded after its
endpoint audit was sealed. -/
theorem statusSummary_iff (h : Reachable cfg s) (hr : s.getRun runId ≠ none) (now now' : Time)
    (bytes bytes' : Nat) :
    (∃ summary, statusSummary cfg s runId now bytes = .ok summary ∧
      Agrees summary (inspectJournal s now' bytes')) ↔ ¬ SealedSuperseded s runId := by
  obtain ⟨run, hrun⟩ := Option.ne_none_iff_exists'.mp hr
  rw [← endpointAuditStatus_iff h hrun]
  constructor
  · rintro ⟨summary, hs, -⟩
    simp only [statusSummary, hrun] at hs
    cases ha : endpointAuditStatus cfg s runId with
    | error e =>
      rw [ha] at hs
      cases hs
    | ok status => exact ⟨status, rfl⟩
  · rintro ⟨status, ha⟩
    have hs : ∃ summary, statusSummary cfg s runId now bytes = .ok summary := by
      simp only [statusSummary, hrun, ha]
      exact ⟨_, rfl⟩
    obtain ⟨summary, hs⟩ := hs
    exact ⟨summary, hs, statusSummary_agrees h.inv.keys hs⟩

/-- A run whose audit is sealed, and the same run superseded by another generation. -/
def sampleSuperseded : SQLiteJournal :=
  step sampleAuditConfig sampleSealed (.openRun (sampleMetadata "g2") 0 0 1000000000 0)

theorem sampleSealed_reachable : Reachable sampleAuditConfig sampleSealed :=
  Reachable.step _ ⟨sampleComplete, rfl⟩ _

theorem statusSummary_iff_sample :
    ∃ summary, statusSummary sampleAuditConfig sampleSealed sampleRunId 0 0 = .ok summary ∧
      Agrees summary (inspectJournal sampleSealed 1 1) := by
  have hopen : sampleSealed.runStatus sampleRunId = some .opened := by decide +kernel
  have hr : sampleSealed.getRun sampleRunId ≠ none := fun he => by
    simp [SQLiteJournal.runStatus, he] at hopen
  refine (statusSummary_iff sampleSealed_reachable hr 0 1 0 1).mpr fun hs => ?_
  obtain ⟨run, hrun, hq, -⟩ := hs.superseded
  simp [SQLiteJournal.runStatus, hrun, hq] at hopen

/-- `status_summary` raises on a stored run that `inspect_journal` reports. -/
theorem statusSummary_raises :
    ¬ ∀ s, Reachable sampleAuditConfig s → ∀ runId, s.getRun runId ≠ none →
      ∃ summary, statusSummary sampleAuditConfig s runId 0 0 = .ok summary := by
  intro h
  have hs : sampleSuperseded.runStatus sampleRunId = some .quarantined ∧
      (statusSummary sampleAuditConfig sampleSuperseded sampleRunId 0 0).isOk = false := by
    decide +kernel
  have hr : sampleSuperseded.getRun sampleRunId ≠ none := fun he => by
    simp [SQLiteJournal.runStatus, he] at hs
  obtain ⟨summary, hok⟩ := h sampleSuperseded (sampleSealed_reachable.step _ _) sampleRunId hr
  rw [hok] at hs
  cases hs.2

end CortexHarness.Journal
