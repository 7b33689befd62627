import CortexHarness.Journal.Barriers

/-!
# Run lifecycle

A run leaves the active statuses for good, and a drained run is not touched any more.

* `inactive_step`: no call makes an inactive run active;
* `Move.drained_run`: a move leaves a drained run, its batches and its barriers as they are, unless
  it deletes the run;
* `drained_refuses`: a drained run takes no batch and no barrier;
* `run_lifecycle`: the parts together, in every reachable state.
-/

namespace CortexHarness.Journal

open Table

variable {cfg : Config} {op : Op} {s u v : SQLiteJournal}

/-! ## Inactive runs -/

theorem RunStep.inactive {r r' : Run} (h : RunStep op u r r') (hs : r.status.active = false) :
    r'.status.active = false := by
  cases h with
  | keep => exact hs
  | fail _ _ _ _ h => rcases h with h | h <;> rw [h] <;> rfl
  | refuse _ _ h => rw [h]; rfl
  | quarantine _ _ h => rw [h]; rfl
  | closeProduction ho => simp [ho, RunStatus.active] at hs
  | drain _ _ _ _ h => rw [h]; rfl

/-- **No call makes an inactive run active.** -/
theorem inactive_step (hi : Inv s) {r r' : Run} (hr : r ∈ s.runs) (hs : r.status.active = false)
    (hr' : r' ∈ (step cfg s op).runs) (hid : r'.runId = r.runId) : r'.status.active = false := by
  by_cases hop : op = .deleteRun r.runId
  · subst hop
    exact absurd hid (by simpa using (List.mem_filter.mp hr').2)
  · obtain ⟨x, hx, hxid, hxs⟩ := step_of_move
      (I := fun t => ∃ x ∈ t.runs, x.runId = r.runId ∧ x.status.active = false) hi op
      (fun u v hu hm h => by
        obtain ⟨x, hx, hxid, hxs⟩ := h
        rcases hm.run_forward hu.keys hx with ⟨y, hy, hstep⟩ | ⟨hdel, -⟩
        · exact ⟨y, hy, hstep.ids.1.trans hxid, hstep.inactive hxs⟩
        · exact absurd (hxid ▸ hdel) hop)
      ⟨r, hr, rfl, hs⟩
    rwa [eq_of_keyed (step_inv hi op).keys.runs hr' hx (hid.trans hxid.symm)]

/-! ## Drained runs -/

/-- The batches of a run. -/
def SQLiteJournal.batchesOf (s : SQLiteJournal) (runId : String) : List Batch :=
  s.batches.filter fun b => b.runId == runId

/-- The barriers of a run. -/
def SQLiteJournal.barriersOf (s : SQLiteJournal) (runId : String) : List Barrier :=
  s.barriers.filter fun x => x.runId == runId

/-- The run, its batches and its barriers are the same in both states. -/
structure SameDrained (u v : SQLiteJournal) (r : Run) : Prop where
  mem : r ∈ v.runs
  batches : v.batchesOf r.runId = u.batchesOf r.runId
  barriers : v.barriersOf r.runId = u.barriersOf r.runId

/-- A run that is not `DRAINED` is another run. -/
theorem runId_ne {r : Run} (hk : Keys u) (hr : r ∈ u.runs) {runId : String} {status : RunStatus}
    (h : u.runStatus runId = some status) (hs : status ≠ r.status) : r.runId ≠ runId := by
  rintro rfl
  exact hs (status_of_runStatus hk hr h).symm

theorem Move.drained_batches (h : Move cfg op u v) (hi : Inv u) {r : Run} (hr : r ∈ u.runs)
    (hs : r.status = .drained) (hop : op ≠ .deleteRun r.runId) :
    v.batchesOf r.runId = u.batchesOf r.runId := by
  unfold SQLiteJournal.batchesOf
  rcases h.batches hi.keys with ⟨f, hf, hv | ⟨b, ⟨run, spec, jobId, now, ha, hb⟩, hv⟩⟩ |
    ⟨runId, hdel, rfl⟩
  · rw [hv]
    refine filter_map_fixed (fun b hb => by rw [(hf b hb).core]) fun b hb hid => ?_
    have hdone := (hi.runs r hr).drained hs b hb (by simpa using hid)
    exact RowLink.eq_of_final ⟨u, hi, hb, hf b hb⟩ (by rw [hdone]; rfl)
  · rw [hv]
    refine filter_append_none fun x hx => ?_
    have hne : run.runId ≠ r.runId := fun he => by
      rw [eq_of_keyed hi.keys.runs ha.mem hr he] at ha
      have := ha.opened
      rw [hs] at this
      cases this
    rw [List.mem_singleton.mp hx]
    rcases hb with rfl | ⟨d, rfl⟩ <;> exact beq_false_of_ne hne
  · refine filter_filter_keep fun b _ hid => ?_
    rw [bne_iff_ne, eq_of_beq hid]
    exact fun he => hop (he ▸ hdel)

theorem Move.drained_barriers (h : Move cfg op u v) (hi : Inv u) {r : Run} (hr : r ∈ u.runs)
    (hs : r.status = .drained) (hop : op ≠ .deleteRun r.runId) :
    v.barriersOf r.runId = u.barriersOf r.runId := by
  have hk := hi.keys
  unfold SQLiteJournal.barriersOf
  cases h with
  | ack b token ms now barriers hop hm ho hd =>
    obtain ⟨g, rfl, hg, -⟩ := hd
    refine filter_map_fixed (fun x hx => ?_) fun x hx hid => ?_
    · have hgx := hg x hx
      split at hgx
      · rw [(drain_key hgx).1]
      · rw [hgx]
    · have hgx := hg x hx
      split at hgx
      · -- the acknowledged batch is held, and all of the run's are done
        rename_i hsel
        have hdone := (hi.runs r hr).drained hs b hm (hsel.1.symm.trans (eq_of_beq hid))
        exact absurd hdone (not_done_of_held (ownedBy_held ho).1)
      · exact hgx
  | enqueue t run spec jobId rows now artifacts barriers h ht hp =>
    have hne : run.runId ≠ r.runId := fun he => by
      rw [eq_of_keyed hk.runs h.mem hr he] at h
      have := h.opened
      rw [hs] at this
      cases this
    obtain ⟨g, fresh, hbar, -, -, hg⟩ := hp
    subst hbar
    simp only
    rw [filter_append_none]
    · refine filter_map_fixed (fun x hx => ?_) fun x hx hid => ?_
      · have hgx := hg x hx
        split at hgx
        · rw [hgx.2]
          rfl
        · rw [hgx]
      · have hgx := hg x hx
        split at hgx
        · rename_i hsel
          exact absurd (hsel.1.symm.trans (eq_of_beq hid)) hne
        · exact hgx
    · intro x hx
      obtain ⟨n, -, rfl⟩ := List.mem_map.mp hx
      exact beq_false_of_ne hne
  | reject t run spec jobId rows now artifacts failure g h ht hf hg =>
    rw [(stageBatch_frame ht).barriers]
  | openBarrier runId name now hop hst hn =>
    refine filter_append_none fun x hx => ?_
    rw [List.mem_singleton.mp hx]
    exact beq_false_of_ne (runId_ne hk hr hst (by simp [hs])).symm
  | closeBarrier runId name now barrier hop hst hb hne =>
    have hrid := runId_ne hk hr hst (by simp [hs])
    refine filter_map_fixed (fun x _ => by split <;> rfl) fun x _ hid => if_neg ?_
    rw [decide_eq_true_eq, Prod.mk.injEq]
    exact fun hc => hrid ((eq_of_beq hid).symm.trans hc.1)
  | delete runId hdel =>
    refine filter_filter_keep fun x _ hid => ?_
    rw [bne_iff_ne, eq_of_beq hid]
    exact fun he => hop (he ▸ hdel)
  | _ => rfl

/-- A move leaves a drained run as it is, unless it deletes the run. -/
theorem Move.drained_run (h : Move cfg op u v) (hi : Inv u) {r : Run} (hr : r ∈ u.runs)
    (hs : r.status = .drained) (hop : op ≠ .deleteRun r.runId) : SameDrained u v r := by
  refine ⟨?_, h.drained_batches hi hr hs hop, h.drained_barriers hi hr hs hop⟩
  rcases h.run_forward hi.keys hr with ⟨r', hr', hstep⟩ | ⟨hdel, -⟩
  · cases hstep with
    | keep => exact hr'
    | fail hb hid hheld =>
      have hdone := (hi.runs r hr).drained hs _ hb hid
      exact absurd hdone (not_done_of_held hheld)
    | refuse ho => rw [hs] at ho; cases ho
    | quarantine ha => rw [hs] at ha; cases ha
    | closeProduction ho => rw [hs] at ho; cases ho
    | drain ho => rw [hs] at ho; cases ho
  · exact absurd hdel hop

theorem drained_run_persists (cfg : Config) (hi : Inv s) {r : Run} (hr : r ∈ s.runs) (hs : r.status = .drained)
    (ops : List Op) (hops : .deleteRun r.runId ∉ ops) : SameDrained s (runOps cfg s ops) r := by
  refine run_of_move (I := fun t => SameDrained s t r) (A := fun op => op ≠ .deleteRun r.runId) hi
    (fun op u v ha hu hm h => ?_) ⟨hr, rfl, rfl⟩ ops fun op hop he => hops (he ▸ hop)
  have hstep := hm.drained_run hu h.mem hs ha
  exact ⟨hstep.mem, hstep.batches.trans h.batches, hstep.barriers.trans h.barriers⟩

/-- A drained run takes no batch and no barrier: the calls change nothing, and a call that succeeds
returns a batch that is stored. -/
theorem drained_refuses (cfg : Config) (hk : Keys s) {r : Run} (hr : r ∈ s.runs) (hs : r.status = .drained) :
    (∀ spec files free now,
      step cfg s (.enqueueBatch r.runId spec files free now) = s ∧
      ∀ reply, (exec cfg s (.enqueueBatch r.runId spec files free now)).1 = .ok reply →
        ∃ b ∈ s.batches, reply = .batch (some b)) ∧
    ∀ name now, ∃ e, exec cfg s (.openBarrier r.runId name now) = (.error e, s) := by
  constructor
  · intro spec files free now
    cases he : enqueueBatch cfg s r.runId spec files free now with
    | error e =>
      refine ⟨by simp only [step, exec, he, enqueueReply], fun reply h => ?_⟩
      simp only [exec, he, enqueueReply] at h
      cases h
    | ok p =>
      obtain ⟨run, hm, hid, -, ⟨b, hb, hr', ht⟩ | ⟨-, ho, -⟩⟩ := enqueueBatch_inv (r := p.1) he
      · have hp : p = ((b, []), s) := by rw [← hr', ← ht]
        simp only [step, exec, he, hp, enqueueReply]
        refine ⟨trivial, fun reply h => ?_⟩
        cases h
        exact ⟨b, (getBatch_mem hb).1, rfl⟩
      · rw [eq_of_keyed hk.runs hm hr hid, hs] at ho
        cases ho
  · intro name now
    have hst : s.runStatus r.runId ≠ some .opened := by
      intro h
      rw [status_of_runStatus hk hr h] at hs
      cases hs
    by_cases hn : blank name = true
    · exact ⟨_, by simp only [exec, openBarrier, if_pos hn, transaction]; rfl⟩
    · exact ⟨_, by
        simp only [exec, openBarrier, if_neg hn, ne_eq, hst, not_false_iff, if_true, transaction]
        rfl⟩

/-! ## The whole -/

/-- What a drained run guarantees in a later state `t`. -/
structure StaysDrained (cfg : Config) (s t : SQLiteJournal) (r : Run) : Prop where
  /-- it is stored as it was, with the batches and the barriers it had -/
  same : SameDrained s t r
  /-- every batch is done -/
  done : ∀ b ∈ t.batches, b.runId = r.runId → b.status = .done
  /-- every barrier is drained -/
  drained : ∀ x ∈ t.barriers, x.runId = r.runId → x.status = .drained
  /-- a new batch is not accepted -/
  noBatch : ∀ spec files free now, step cfg t (.enqueueBatch r.runId spec files free now) = t ∧
    ∀ reply, (exec cfg t (.enqueueBatch r.runId spec files free now)).1 = .ok reply →
      ∃ b ∈ t.batches, reply = .batch (some b)
  /-- a new barrier is not accepted -/
  noBarrier : ∀ name now, ∃ e, exec cfg t (.openBarrier r.runId name now) = (.error e, t)

/-- **The run lifecycle**: one active run per lane, no way back to the active statuses, and a
drained run stays as it is until it is purged. -/
theorem run_lifecycle (h : Reachable cfg s) :
    (∀ r ∈ s.runs, ∀ r' ∈ s.runs, r.status = .opened ∨ r.status = .draining →
      r'.status = .opened ∨ r'.status = .draining → r.lane = r'.lane → r = r') ∧
    (∀ op, ∀ r ∈ s.runs,
      r.status ∈ [.drained, .blocked, .deadLettered, .quarantined, .failed] →
      ∀ r' ∈ (step cfg s op).runs, r'.runId = r.runId →
        r'.status ≠ .opened ∧ r'.status ≠ .draining) ∧
    ∀ r ∈ s.runs, r.status = .drained → ∀ ops, .deleteRun r.runId ∉ ops →
      StaysDrained cfg s (runOps cfg s ops) r := by
  have hi := h.inv
  have hact : ∀ {r : Run}, r.status = .opened ∨ r.status = .draining → r.status.active = true := by
    rintro r (h | h) <;> rw [h] <;> rfl
  refine ⟨fun r hr r' hr' ha ha' hl => ?_, fun op r hr hs r' hr' hid => ?_,
    fun r hr hs ops hops => ?_⟩
  · exact eq_of_keyed hi.keys.runs hr hr' (hi.lanes r hr r' hr' (hact ha) (hact ha') hl)
  · have hin : r.status.active = false := by
      cases hst : r.status <;> simp_all [RunStatus.active]
    have hin' := inactive_step hi hr hin hr' hid
    constructor <;> intro he <;> simp [he, RunStatus.active] at hin'
  · have hsame := drained_run_persists cfg hi hr hs ops hops
    have hit := run_inv cfg hi ops
    have hok := hit.runs r hsame.mem
    obtain ⟨hb, hx⟩ := drained_refuses cfg hit.keys hsame.mem hs
    exact ⟨hsame, hok.drained hs, hok.barriers hs, hb, hx⟩

/-- A run whose production ends without a batch. -/
def sampleDrained : List Op :=
  [.openRun (sampleMetadata "g1") 0 0 1000000000 0, .closeRunProduction sampleRunId 0]

theorem run_lifecycle_sample :
    Reachable sampleConfig (runOps sampleConfig .empty sampleDrained) ∧
    ∃ r ∈ (runOps sampleConfig .empty sampleDrained).runs, r.status = .drained ∧
      ∀ ops, .deleteRun r.runId ∉ ops →
        StaysDrained sampleConfig (runOps sampleConfig .empty sampleDrained)
          (runOps sampleConfig (runOps sampleConfig .empty sampleDrained) ops) r := by
  have hs : ∃ r ∈ (runOps sampleConfig .empty sampleDrained).runs, r.status = .drained := by
    decide +kernel
  obtain ⟨r, hr, hd⟩ := hs
  exact ⟨⟨_, rfl⟩, r, hr, hd, (run_lifecycle ⟨_, rfl⟩).2.2 r hr hd⟩

end CortexHarness.Journal
