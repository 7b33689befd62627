import CortexHarness.Journal.Calls

/-!
# Batch rows and run rows along a move

`RowStep` is everything that can happen to one stored batch row, and `RunStep` everything that can
happen to one stored run row. A move takes every row of the tables along one of these steps, unless
the row's run is deleted (`Move.batch_forward`, `Move.run_forward`); a row that is there after a
move came along one, or is new (`Move.batch_backward`, `Move.run_backward`).
-/

namespace CortexHarness.Journal

open Table Relation

variable {cfg : Config} {op : Op} {u v : SQLiteJournal}

/-! ## Batches -/

/-- What one move does to a stored batch row. -/
inductive RowStep (op : Op) (u : SQLiteJournal) (b : Batch) : Batch → Prop where
  | move {b' : Batch} (h : RowMove op u b b') : RowStep op u b b'
  | ack {token : String} {ms : Option Int} {now : Time} (hop : op = .ackBatch b.jobId token ms now)
      (ho : b.ownedBy token now = true) : RowStep op u b (doneBatch b)
  | fail {b' : Batch} {token : String} {now : Time}
      (hop : op.fence = some (b.jobId, token) ∧ op.clock = some now)
      (ho : b.ownedBy token now = true) (hf : Terminal b b') : RowStep op u b b'
  | quarantine (ha : u.runActive b.runId = true) (hs : b.status ≠ .done) :
      RowStep op u b (quarantineBatch b)

theorem RowStep.keep {b : Batch} : RowStep op u b b := .move .keep

/-- The columns of a row that identify it are never rewritten. -/
theorem RowStep.core {b b' : Batch} (h : RowStep op u b b') : b'.toBatchCore = b.toBatchCore := by
  cases h with
  | move h => exact h.core
  | ack => rfl
  | fail _ _ hf => exact hf.core
  | quarantine => rfl

/-- The batch that an admitted call inserts. -/
def Inserted (cfg : Config) (op : Op) (u : SQLiteJournal) (b : Batch) : Prop :=
  ∃ run spec jobId now, Admitted cfg u op run spec jobId now ∧
    (b = spec.batch run.runId jobId now ∨
      ∃ detail, b = rejectBatch detail (spec.batch run.runId jobId now))

theorem updateJob_step {b : Batch} {f : Batch → Batch} (hk : Keys u) (hb : b ∈ u.batches)
    (hf : RowStep op u b (f b)) :
    ∀ x ∈ u.batches, RowStep op u x (if decide (x.jobId = b.jobId) then f x else x) := by
  intro x hx
  by_cases hj : x.jobId = b.jobId
  · rw [hk.batch_eq hx hb hj]
    simpa using hf
  · simpa [hj] using RowStep.keep

theorem quarantine_step {runId : String} (ha : u.runActive runId = true) (x : Batch) :
    RowStep op u x (if (x.runId == runId && x.status != .done) = true then quarantineBatch x
      else x) := by
  split
  · rename_i hc
    simp only [Bool.and_eq_true, beq_iff_eq, bne_iff_ne] at hc
    exact .quarantine (hc.1 ▸ ha) hc.2
  · exact .keep

/-- The batch table of a move: the old rows, each one step further, and at most one new row; or the
rows of a deleted run are gone. -/
theorem Move.batches (h : Move cfg op u v) (hk : Keys u) :
    (∃ f : Batch → Batch, (∀ b ∈ u.batches, RowStep op u b (f b)) ∧
      (v.batches = u.batches.map f ∨ ∃ b, Inserted cfg op u b ∧ v.batches = u.batches ++ [b])) ∨
    ∃ runId, op = .deleteRun runId ∧ v = Journal.deleteRun u runId := by
  have hsame : ∀ w : SQLiteJournal, w.batches = u.batches →
      ∃ f : Batch → Batch, (∀ b ∈ u.batches, RowStep op u b (f b)) ∧
        (w.batches = u.batches.map f ∨
          ∃ b, Inserted cfg op u b ∧ w.batches = u.batches ++ [b]) :=
    fun w hw => ⟨id, fun b _ => .keep, .inl (by rw [hw, List.map_id])⟩
  cases h with
  | log => exact .inl (hsame _ rfl)
  | rows f hf => exact .inl ⟨f, fun b hb => .move (hf b hb), .inl rfl⟩
  | ack b token ms now barriers hop hb ho hd =>
    exact .inl ⟨_, updateJob_step hk hb (.ack hop ho), .inl rfl⟩
  | fail b b' token now g hop hb ho hf hg =>
    exact .inl ⟨_, updateJob_step (f := fun _ => b') hk hb (.fail hop ho hf), .inl rfl⟩
  | quarantine runId g ha hg => exact .inl ⟨_, fun b _ => quarantine_step ha b, .inl rfl⟩
  | insertRun => exact .inl (hsame _ rfl)
  | enqueue t run spec jobId rows now artifacts barriers h ht hp =>
    refine .inl ⟨id, fun b _ => .keep, .inr ⟨_, ⟨run, spec, jobId, now, h, .inl rfl⟩, ?_⟩⟩
    exact (stageBatch_frame ht).batches
  | reject t run spec jobId rows now artifacts failure g h ht hf hg =>
    exact .inl ⟨id, fun b _ => .keep, .inr ⟨_, ⟨run, spec, jobId, now, h, .inr ⟨_, rfl⟩⟩, rfl⟩⟩
  | openBarrier => exact .inl (hsame _ rfl)
  | closeBarrier => exact .inl (hsame _ rfl)
  | complete => exact .inl (hsame _ rfl)
  | sealAudit => exact .inl (hsame _ rfl)
  | closeProduction => exact .inl (hsame _ rfl)
  | drain => exact .inl (hsame _ rfl)
  | delete runId hop => exact .inr ⟨runId, hop, rfl⟩

/-- A batch that is there after a move was there before it, or is new. -/
theorem Move.batch_backward (h : Move cfg op u v) (hk : Keys u) {b' : Batch}
    (hb' : b' ∈ v.batches) :
    (∃ b ∈ u.batches, RowStep op u b b') ∨ Inserted cfg op u b' := by
  rcases h.batches hk with ⟨f, hf, hv | ⟨b, hb, hv⟩⟩ | ⟨runId, -, rfl⟩
  · rw [hv] at hb'
    obtain ⟨b, hb, rfl⟩ := List.mem_map.mp hb'
    exact .inl ⟨b, hb, hf b hb⟩
  · rw [hv] at hb'
    rcases List.mem_append.mp hb' with hm | hm
    · exact .inl ⟨b', hm, .keep⟩
    · rw [List.mem_singleton.mp hm]
      exact .inr hb
  · exact .inl ⟨b', List.mem_of_mem_filter hb', .keep⟩

/-- A stored batch is still there after a move, unless its run is deleted. -/
theorem Move.batch_forward (h : Move cfg op u v) (hk : Keys u) {b : Batch} (hb : b ∈ u.batches) :
    (∃ b' ∈ v.batches, RowStep op u b b') ∨
      (op = .deleteRun b.runId ∧ v = Journal.deleteRun u b.runId) := by
  rcases h.batches hk with ⟨f, hf, hv | ⟨x, -, hv⟩⟩ | ⟨runId, hop, rfl⟩
  · rw [hv]
    exact .inl ⟨f b, List.mem_map_of_mem hb, hf b hb⟩
  · rw [hv]
    exact .inl ⟨b, List.mem_append_left _ hb, .keep⟩
  · by_cases hr : b.runId = runId
    · exact .inr ⟨hr ▸ hop, by rw [hr]⟩
    · exact .inl ⟨b, List.mem_filter.mpr ⟨hb, by simpa using hr⟩, .keep⟩

/-! ## Runs -/

/-- What one move does to a stored run row: only its status, errors and times change. -/
inductive RunStep (op : Op) (u : SQLiteJournal) (r : Run) : Run → Prop where
  | keep : RunStep op u r r
  | fail {r' : Run} {b : Batch} (hb : b ∈ u.batches) (hr : b.runId = r.runId)
      (hs : b.status.held = true) (hm : r'.runId = r.runId ∧ r'.metadata = r.metadata)
      (h : r'.status = .blocked ∨ r'.status = .deadLettered) : RunStep op u r r'
  | refuse {r' : Run} (hs : r.status = .opened)
      (hm : r'.runId = r.runId ∧ r'.metadata = r.metadata) (h : r'.status = .blocked) :
      RunStep op u r r'
  | quarantine {r' : Run} (ha : r.status.active = true)
      (hm : r'.runId = r.runId ∧ r'.metadata = r.metadata) (h : r'.status = .quarantined) :
      RunStep op u r r'
  | closeProduction {r' : Run} (hs : r.status = .opened)
      (hm : r'.runId = r.runId ∧ r'.metadata = r.metadata) (h : r'.status = .draining) :
      RunStep op u r r'
  | drain {r' : Run} (hs : r.status = .draining)
      (hp : ∀ b ∈ u.batches, b.runId = r.runId → b.status = .done)
      (hb : ∀ x ∈ u.barriers, x.runId = r.runId → x.status = .drained)
      (hm : r'.runId = r.runId ∧ r'.metadata = r.metadata) (h : r'.status = .drained) :
      RunStep op u r r'

theorem RunStep.ids {r r' : Run} (h : RunStep op u r r') :
    r'.runId = r.runId ∧ r'.metadata = r.metadata := by
  cases h with
  | keep => exact ⟨rfl, rfl⟩
  | fail _ _ _ hm => exact hm
  | refuse _ hm => exact hm
  | quarantine _ hm => exact hm
  | closeProduction _ hm => exact hm
  | drain _ _ _ hm => exact hm

theorem ownedBy_held {b : Batch} {token : String} {now : Time} (h : b.ownedBy token now = true) :
    b.status.held = true ∧ b.fencingToken = some token := by
  simp only [Batch.ownedBy, Bool.and_eq_true, beq_iff_eq] at h
  exact h.1

theorem pending_zero {runId : String} (h : u.pending runId = 0) :
    ∀ b ∈ u.batches, b.runId = runId → b.status = .done := by
  intro b hb hr
  have := List.countP_eq_zero.mp h b hb
  simpa [hr] using this

theorem updateRun_step {runId : String} {g : Run → Run}
    (hg : ∀ r ∈ u.runs, r.runId = runId → RunStep op u r (g r)) :
    ∀ r ∈ u.runs, RunStep op u r (if decide (r.runId = runId) then g r else r) := by
  intro r hr
  by_cases h : r.runId = runId
  · simpa [h] using hg r hr h
  · simpa [h] using RunStep.keep

theorem status_of_runStatus (hk : Keys u) {r : Run} (hr : r ∈ u.runs) {status : RunStatus}
    (h : u.runStatus r.runId = some status) : r.status = status := by
  obtain ⟨r', hr', hid, hs⟩ := (runStatus_eq hk).mp h
  rw [← hs, eq_of_keyed hk.runs hr hr' hid.symm]

theorem active_of_runActive (hk : Keys u) {r : Run} (hr : r ∈ u.runs)
    (h : u.runActive r.runId = true) : r.status.active = true := by
  unfold SQLiteJournal.runActive at h
  split at h
  · rename_i status hs
    rwa [status_of_runStatus hk hr hs]
  · cases h

theorem Move.runs (h : Move cfg op u v) (hk : Keys u) :
    (∃ f : Run → Run, (∀ r ∈ u.runs, RunStep op u r (f r)) ∧ v.runs = u.runs.map f) ∨
    (∃ run, v.runs = u.runs ++ [run] ∧ v.batches = u.batches ∧ v.barriers = u.barriers ∧
      u.getRun run.runId = none ∧ run.status = .opened ∧
      (∀ r ∈ u.runs, r.lane = run.lane → r.status.active = false) ∧
      ∃ items bytes free now, op = .openRun run.metadata items bytes free now) ∨
    ∃ runId, op = .deleteRun runId ∧ v = Journal.deleteRun u runId := by
  have hsame : ∀ w : SQLiteJournal, w.runs = u.runs →
      ∃ f : Run → Run, (∀ r ∈ u.runs, RunStep op u r (f r)) ∧ w.runs = u.runs.map f :=
    fun w hw => ⟨id, fun r _ => .keep, by rw [hw, List.map_id]⟩
  cases h with
  | log => exact .inl (hsame _ rfl)
  | rows => exact .inl (hsame _ rfl)
  | ack => exact .inl (hsame _ rfl)
  | fail b b' token now g hop hb ho hf hg =>
    refine .inl ⟨_, updateRun_step fun r _ hr => ?_, rfl⟩
    exact .fail hb hr.symm (ownedBy_held ho).1 ⟨(hg r).1, (hg r).2.1⟩ (hg r).2.2
  | quarantine runId g ha hg =>
    refine .inl ⟨_, updateRun_step fun r hr hid => ?_, rfl⟩
    exact .quarantine (active_of_runActive hk hr (hid ▸ ha)) ⟨(hg r).1, (hg r).2.1⟩ (hg r).2.2
  | insertRun run items bytes free now hop hid hr hs hl =>
    exact .inr (.inl ⟨run, rfl, rfl, rfl, hr, hs, hl, items, bytes, free, now, hop⟩)
  | enqueue t run spec jobId rows now artifacts barriers h ht hp =>
    exact .inl (hsame _ (stageBatch_frame ht).runs)
  | reject t run spec jobId rows now artifacts failure g h ht hf hg =>
    refine .inl ⟨_, updateRun_step fun r hr hid => ?_, rfl⟩
    have : r = run := eq_of_keyed hk.runs hr h.mem hid
    exact .refuse (this ▸ h.opened) ⟨(hg r).1, (hg r).2.1⟩ (hg r).2.2
  | openBarrier => exact .inl (hsame _ rfl)
  | closeBarrier => exact .inl (hsame _ rfl)
  | complete => exact .inl (hsame _ rfl)
  | sealAudit => exact .inl (hsame _ rfl)
  | closeProduction runId g hr hg =>
    refine .inl ⟨_, updateRun_step fun r hm hid => ?_, rfl⟩
    exact .closeProduction (status_of_runStatus hk hm (hid ▸ hr)) ⟨(hg r).1, (hg r).2.1⟩
      (hg r).2.2
  | drain runId g hr hp hb hg =>
    refine .inl ⟨_, updateRun_step fun r hm hid => ?_, rfl⟩
    exact .drain (status_of_runStatus hk hm (hid ▸ hr)) (hid ▸ pending_zero hp) (hid ▸ hb)
      ⟨(hg r).1, (hg r).2.1⟩ (hg r).2.2
  | delete runId hop => exact .inr (.inr ⟨runId, hop, rfl⟩)

/-- A run that is there after a move was there before it, or has just been opened. -/
theorem Move.run_backward (h : Move cfg op u v) (hk : Keys u) {r' : Run} (hr' : r' ∈ v.runs) :
    (∃ r ∈ u.runs, RunStep op u r r') ∨
      (r'.status = .opened ∧ u.getRun r'.runId = none ∧ v.batches = u.batches ∧
        ∀ r ∈ u.runs, r.lane = r'.lane → r.status.active = false) := by
  rcases h.runs hk with ⟨f, hf, hv⟩ | ⟨run, hv, hb, -, hn, hs, hl, -⟩ | ⟨runId, -, rfl⟩
  · rw [hv] at hr'
    obtain ⟨r, hr, rfl⟩ := List.mem_map.mp hr'
    exact .inl ⟨r, hr, hf r hr⟩
  · rw [hv] at hr'
    rcases List.mem_append.mp hr' with hm | hm
    · exact .inl ⟨r', hm, .keep⟩
    · rw [List.mem_singleton.mp hm]
      exact .inr ⟨hs, hn, hb, hl⟩
  · exact .inl ⟨r', List.mem_of_mem_filter hr', .keep⟩

/-- A stored run is still there after a move, unless it is deleted. -/
theorem Move.run_forward (h : Move cfg op u v) (hk : Keys u) {r : Run} (hr : r ∈ u.runs) :
    (∃ r' ∈ v.runs, RunStep op u r r') ∨
      (op = .deleteRun r.runId ∧ v = Journal.deleteRun u r.runId) := by
  rcases h.runs hk with ⟨f, hf, hv⟩ | ⟨run, hv, -⟩ | ⟨runId, hop, rfl⟩
  · rw [hv]
    exact .inl ⟨f r, List.mem_map_of_mem hr, hf r hr⟩
  · rw [hv]
    exact .inl ⟨r, List.mem_append_left _ hr, .keep⟩
  · by_cases hid : r.runId = runId
    · exact .inr ⟨hid ▸ hop, by rw [hid]⟩
    · exact .inl ⟨r, List.mem_filter.mpr ⟨hr, by simpa using hid⟩, .keep⟩

end CortexHarness.Journal
