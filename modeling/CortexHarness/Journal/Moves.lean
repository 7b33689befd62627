import CortexHarness.Journal.Exec

/-!
# What one call can do

Every call is a sequence of moves (`exec_moves`). A move says everything that happens to the tables
and the guard under which it happens, so an invariant of the journal is one short case per move, and
a fact about what led to a change of a batch is read off `RowMove`.

* `RowMove` is what the calls that touch only batch rows do to one row.
* `Move` is one change of the database; it names the call that makes it where that matters.
* `Keys` are the primary keys, with the barrier names of a batch pairwise distinct; the moves keep
  them, and the calls need them to be sequences of moves.
-/

namespace CortexHarness.Journal

open Table Relation

/-! ## Rows -/

/-- What a call may do to one batch row, in the state `s`. -/
inductive RowMove (op : Op) (s : SQLiteJournal) (b : Batch) : Batch → Prop where
  | keep : RowMove op s b b
  | lease {token : String} {leaseUntil : Time} (hop : op.leaseToken = some token)
      (hs : b.status.executable = true) (ha : s.runActive b.runId = true)
      (hd : s.barriersDrained b = true) : RowMove op s b (leaseBatch token leaseUntil b)
  | readback {token : String} {leaseUntil : Time} (hop : op.readbackToken = some token)
      (hs : b.status = .reconciling) (ht : b.fencingToken = none)
      (ha : s.runActive b.runId = true) : RowMove op s b (leaseReconciliation token leaseUntil b)
  | renew {token : String} {leaseSeconds : Int} {now leaseUntil : Time}
      (hop : op = .renewLease b.jobId token leaseSeconds now) (hs : b.status = .leased)
      (ho : b.ownedBy token now = true) : RowMove op s b { b with leaseUntil := some leaseUntil }
  | recover (hs : b.status = .leased) : RowMove op s b (recoverAmbiguous b)
  | release (hs : b.status = .reconciling) : RowMove op s b (releaseOwner b)
  | mark {token : String} {errorCode : Option TerminalErrorCode} {now : Time}
      (hop : op = .markReconciling b.jobId token errorCode now) (hs : b.status = .leased)
      (ho : b.ownedBy token now = true) :
      RowMove op s b { b with status := .reconciling, retryClass := some .ambiguous, errorCode }
  | retry {token : String} {retryAt now : Time} {retryClass : RetryClass}
      {errorCode : TerminalErrorCode}
      (hop : op = .scheduleRetry b.jobId token retryAt retryClass errorCode now)
      (ho : b.ownedBy token now = true) (ha : b.attempt < b.maxAttempts) :
      RowMove op s b (retryBatch retryAt retryClass errorCode b)
  | backOff {token : String} {retryAt now : Time} {errorCode : TerminalErrorCode}
      (hop : op = .scheduleReconciliationRetry b.jobId token retryAt errorCode now)
      (ho : b.ownedBy token now = true) (hs : b.status = .reconciling)
      (ha : b.attempt + 1 < b.maxAttempts) : RowMove op s b (backOffBatch retryAt errorCode b)

theorem RowMove.core {op : Op} {s : SQLiteJournal} {b b' : Batch} (h : RowMove op s b b') :
    b'.toBatchCore = b.toBatchCore := by
  cases h <;> rfl

/-! ## Tables -/

/-- One more producer on each of the named barriers of a run: `produceBarriers`, as a whole. The
rows that are there change only in their count, and only while open; the others are inserted. -/
def Produced (runId : String) (names : List String) (bs bs' : List Barrier) : Prop :=
  ∃ (g : Barrier → Barrier) (fresh : List String),
    bs' = bs.map g ++ fresh.map (fun n => newBarrier runId n 1) ∧ fresh.Nodup ∧
    (∀ n, n ∈ fresh ↔ n ∈ names ∧ ∀ x ∈ bs, ¬ (x.runId = runId ∧ x.name = n)) ∧
    ∀ x ∈ bs, if x.runId = runId ∧ x.name ∈ names then x.status = .opened ∧ g x = x.produce
      else g x = x

/-- One more acknowledged producer on each of the named barriers: `drainBarriers`, as a whole. -/
def Drained (runId : String) (names : List String) (bs bs' : List Barrier) : Prop :=
  ∃ g : Barrier → Barrier, bs' = bs.map g ∧
    (∀ x ∈ bs, if x.runId = runId ∧ x.name ∈ names then x.drain = some (g x) else g x = x) ∧
    ∀ n ∈ names, ∃ x ∈ bs, x.runId = runId ∧ x.name = n

/-- The row transitions that end a batch unsuccessfully. -/
inductive Terminal (b : Batch) : Batch → Prop where
  | deadLetter {attempt : Nat} {retryClass : RetryClass} (h : b.attempt ≤ attempt) :
      Terminal b (deadLetterBatch attempt retryClass b)
  | block {retryClass : RetryClass} {errorCode : TerminalErrorCode} :
      Terminal b (blockRow retryClass errorCode b)

theorem Terminal.core {b b' : Batch} (h : Terminal b b') : b'.toBatchCore = b.toBatchCore := by
  cases h <;> rfl

variable (cfg : Config)

/-- The guard of an insertion of a new batch. -/
structure Admitted (s : SQLiteJournal) (op : Op) (run : Run) (spec : BatchSpec) (jobId : String)
    (now : Time) : Prop where
  call : ∃ files free, op = .enqueueBatch run.runId spec files free now
  mem : run ∈ s.runs
  opened : run.status = .opened
  incomplete : s.productionComplete run.runId = false
  fresh : s.getBatch jobId = none
  jobId_eq : jobId = jobIdOf cfg run spec

/-- One change of the database by the call `op`. -/
inductive Move (op : Op) : SQLiteJournal → SQLiteJournal → Prop where
  | log (s : SQLiteJournal) (events : List Event) :
      Move op s { s with events := s.events ++ events }
  | rows (s : SQLiteJournal) (f : Batch → Batch) (h : ∀ b ∈ s.batches, RowMove op s b (f b)) :
      Move op s { s with batches := s.batches.map f }
  | ack (s : SQLiteJournal) (b : Batch) (token : String) (ms : Option Int) (now : Time)
      (barriers : List Barrier) (hop : op = .ackBatch b.jobId token ms now) (hb : b ∈ s.batches)
      (ho : b.ownedBy token now = true)
      (hd : Drained b.runId b.producedBarriers s.barriers barriers) :
      Move op s { s with
        batches := updateWhere (fun x => decide (x.jobId = b.jobId)) doneBatch s.batches
        nodeManifest := ackRows b.jobId s.nodeManifest
        edgeManifest := ackRows b.jobId s.edgeManifest
        barriers }
  | fail (s : SQLiteJournal) (b b' : Batch) (token : String) (now : Time) (g : Run → Run)
      (hop : op.fence = some (b.jobId, token) ∧ op.clock = some now) (hb : b ∈ s.batches)
      (ho : b.ownedBy token now = true) (hf : Terminal b b')
      (hg : ∀ r, (g r).runId = r.runId ∧ (g r).metadata = r.metadata ∧
        ((g r).status = .blocked ∨ (g r).status = .deadLettered)) :
      Move op s { s with
        batches := updateWhere (fun x => decide (x.jobId = b.jobId)) (fun _ => b') s.batches
        runs := updateWhere (fun r => decide (r.runId = b.runId)) g s.runs }
  | quarantine (s : SQLiteJournal) (runId : String) (g : Run → Run) (ha : s.runActive runId = true)
      (hg : ∀ r, (g r).runId = r.runId ∧ (g r).metadata = r.metadata ∧
        (g r).status = .quarantined) :
      Move op s { s with
        batches := updateWhere (fun b => b.runId == runId && b.status != .done) quarantineBatch
          s.batches
        runs := updateWhere (fun r => decide (r.runId = runId)) g s.runs }
  | insertRun (s : SQLiteJournal) (run : Run) (items bytes free : Int) (now : Time)
      (hop : op = .openRun run.metadata items bytes free now)
      (hid : run.runId = runIdOf cfg.python run.metadata) (hr : s.getRun run.runId = none)
      (hs : run.status = .opened)
      (hl : ∀ r ∈ s.runs, r.lane = run.lane → r.status.active = false) :
      Move op s { s with runs := s.runs ++ [run] }
  | enqueue (s t : SQLiteJournal) (run : Run) (spec : BatchSpec) (jobId : String)
      (rows : List Json) (now : Time) (artifacts : List Artifact) (barriers : List Barrier)
      (h : Admitted cfg s op run spec jobId now)
      (ht : stageBatch cfg { s with artifacts, batches := s.batches ++ [spec.batch run.runId jobId now] }
        run spec jobId rows = .ok ([], t))
      (hp : Produced run.runId (spec.batch run.runId jobId now).producedBarriers s.barriers
        barriers) :
      Move op s { t with barriers }
  | reject (s t : SQLiteJournal) (run : Run) (spec : BatchSpec) (jobId : String)
      (rows : List Json) (now : Time) (artifacts : List Artifact) (failure : List (String × Nat))
      (g : Run → Run) (h : Admitted cfg s op run spec jobId now)
      (ht : stageBatch cfg { s with artifacts, batches := s.batches ++ [spec.batch run.runId jobId now] }
        run spec jobId rows = .ok (failure, t)) (hf : failure ≠ [])
      (hg : ∀ r, (g r).runId = r.runId ∧ (g r).metadata = r.metadata ∧ (g r).status = .blocked) :
      Move op s { t with
        batches := s.batches ++ [rejectBatch (failureDetail failure) (spec.batch run.runId jobId now)]
        runs := updateWhere (fun r => decide (r.runId = run.runId)) g s.runs }
  | openBarrier (s : SQLiteJournal) (runId name : String) (now : Time)
      (hop : op = .openBarrier runId name now) (hr : s.runStatus runId = some .opened)
      (hn : s.getBarrier runId name = none) :
      Move op s { s with barriers := s.barriers ++ [newBarrier runId name 0] }
  | closeBarrier (s : SQLiteJournal) (runId name : String) (now : Time) (barrier : Barrier)
      (hop : op = .closeBarrier runId name now) (hr : s.runStatus runId = some .opened)
      (hb : s.getBarrier runId name = some barrier) (hs : barrier.status ≠ .drained) :
      Move op s (s.updateBarrier runId name (Barrier.close now))
  | complete (s : SQLiteJournal) (runId : String) (now : Time)
      (hop : op = .completeProducers runId now) (hr : s.runStatus runId = some .opened)
      (hn : invalidRows s.nodeManifest runId = 0) (he : invalidRows s.edgeManifest runId = 0)
      (hm : s.getProducer runId producersCompleteId = none) :
      Move op s { s with producers := closeProducers s.producers runId }
  | sealAudit (s : SQLiteJournal) (runId : String) (summary : ConservationSummary) (now : Time)
      (hop : ∃ digest count rows, op = .sealEndpointAudit runId digest count rows now)
      (hv : validateAuditBoundary cfg s runId none = .ok summary) (ha : s.getAudit runId = none) :
      Move op s { s with endpointAudits := s.endpointAudits ++
        [⟨runId, .sealed, summary.endpointManifestDigest, summary.auditableEdgeRows, now⟩] }
  | closeProduction (s : SQLiteJournal) (runId : String) (g : Run → Run)
      (hr : s.runStatus runId = some .opened)
      (hg : ∀ r, (g r).runId = r.runId ∧ (g r).metadata = r.metadata ∧ (g r).status = .draining) :
      Move op s { s with runs := updateWhere (fun r => decide (r.runId = runId)) g s.runs }
  | drain (s : SQLiteJournal) (runId : String) (g : Run → Run)
      (hr : s.runStatus runId = some .draining) (hp : s.pending runId = 0)
      (hb : ∀ b ∈ s.barriers, b.runId = runId → b.status = .drained)
      (hg : ∀ r, (g r).runId = r.runId ∧ (g r).metadata = r.metadata ∧ (g r).status = .drained) :
      Move op s { s with runs := updateWhere (fun r => decide (r.runId = runId)) g s.runs }
  | delete (s : SQLiteJournal) (runId : String) (hop : op = .deleteRun runId) :
      Move op s (deleteRun s runId)

/-- A sequence of moves of one call. -/
abbrev Moves (op : Op) : SQLiteJournal → SQLiteJournal → Prop := ReflTransGen (Move cfg op)

/-! ## Keys -/

/-- The primary keys of the tables the calls look rows up in. -/
structure Keys (s : SQLiteJournal) : Prop where
  runs : Keyed Run.runId s.runs
  batches : Keyed (fun b : Batch => b.jobId) s.batches
  barriers : Keyed (fun b : Barrier => (b.runId, b.name)) s.barriers
  producers : Keyed (fun p : Producer => (p.runId, p.producerId)) s.producers
  audits : Keyed EndpointAudit.runId s.endpointAudits
  produced : ∀ b ∈ s.batches, b.producedBarriers.Nodup

theorem Keys.empty : Keys .empty :=
  ⟨List.nodup_nil, List.nodup_nil, List.nodup_nil, List.nodup_nil, List.nodup_nil,
    fun _ h => absurd h List.not_mem_nil⟩

theorem Keys.batch_eq {s : SQLiteJournal} (hk : Keys s) {b b' : Batch} (hb : b ∈ s.batches)
    (hb' : b' ∈ s.batches) (h : b.jobId = b'.jobId) : b = b' :=
  eq_of_keyed hk.batches hb hb' h

variable {cfg} {op : Op} {s : SQLiteJournal}

/-! ## Calls are moves -/

theorem Moves.addEvent {t : SQLiteJournal} (h : Moves cfg op s t) (e : Event) :
    Moves cfg op s (t.addEvent e) :=
  h.tail (.log t [_])

theorem Move.updateBatch (hk : Keys s) {b : Batch} (hb : b ∈ s.batches) {f : Batch → Batch}
    (hf : RowMove op s b (f b)) : Move cfg op s (s.updateBatch b.jobId f) := by
  refine .rows s _ fun x hx => ?_
  by_cases h : x.jobId = b.jobId
  · rw [hk.batch_eq hx hb h]
    simpa using hf
  · simpa [h] using RowMove.keep

theorem foldl_addEvent {α : Type} (e : α → Event) (l : List α) (t : SQLiteJournal)
    (h : Moves cfg op s t) : Moves cfg op s (l.foldl (fun t x => t.addEvent (e x)) t) := by
  induction l generalizing t with
  | nil => exact h
  | cons x l ih => exact ih _ (h.addEvent _)

theorem recoverRows_moves {selected : Batch → Bool} {f : Batch → Batch} {eventType : EventType}
    {now : Time} {t : SQLiteJournal} (ht : Moves cfg op s t)
    (hf : ∀ b ∈ t.batches, selected b = true → RowMove op t b (f b)) :
    Moves cfg op s (recoverRows t selected f eventType now) := by
  refine foldl_addEvent _ _ _ (ht.tail (.rows t _ fun b hb => ?_))
  by_cases h : selected b = true
  · simpa [h] using hf b hb h
  · simpa [h] using RowMove.keep

theorem recoverExpiredLocked_moves (s : SQLiteJournal) (now : Time) :
    Moves cfg op s (recoverExpiredLocked s now).2 := by
  refine recoverRows_moves (recoverRows_moves .refl fun b _ h => ?_) fun b _ h => ?_
  · simp only [expiredLease, Bool.and_eq_true, beq_iff_eq] at h
    exact .recover h.1
  · simp only [expiredOwner, Bool.and_eq_true, beq_iff_eq] at h
    exact .release h.1.1

theorem recoverRunLeases_moves (s : SQLiteJournal) (runId : String) (now : Time) :
    Moves cfg op s (recoverRunLeasesAsAmbiguous s runId now).2 := by
  refine recoverRows_moves (recoverRows_moves .refl fun b _ h => ?_) fun b _ h => ?_
  · simp only [Bool.and_eq_true, beq_iff_eq] at h
    exact .recover h.2
  · simp only [Bool.and_eq_true, beq_iff_eq] at h
    exact .release h.1.2

/-! ## The moves keep the keys -/

theorem getBatch_none {jobId : String} :
    s.getBatch jobId = none ↔ ∀ b ∈ s.batches, b.jobId ≠ jobId := lookup_eq_none

theorem getBarrier_none {runId name : String} :
    s.getBarrier runId name = none ↔ ∀ b ∈ s.barriers, ¬ (b.runId = runId ∧ b.name = name) := by
  simp [SQLiteJournal.getBarrier, lookup_eq_none]

theorem getRun_none {runId : String} :
    s.getRun runId = none ↔ ∀ r ∈ s.runs, r.runId ≠ runId := lookup_eq_none

theorem Produced.keyed {runId : String} {names : List String} {bs bs' : List Barrier}
    (h : Produced runId names bs bs')
    (hk : Keyed (fun b : Barrier => (b.runId, b.name)) bs) :
    Keyed (fun b : Barrier => (b.runId, b.name)) bs' := by
  obtain ⟨g, fresh, rfl, hnd, hfresh, hg⟩ := h
  have hkey : ∀ x ∈ bs, ((g x).runId, (g x).name) = (x.runId, x.name) := by
    intro x hx
    have := hg x hx
    split at this
    · rw [this.2]
      rfl
    · rw [this]
  unfold Keyed
  rw [List.map_append, map_key_map hkey, List.map_map]
  refine List.Nodup.append hk (hnd.map fun a b hab => (Prod.mk.inj hab).2) ?_
  intro k hk' hk''
  obtain ⟨x, hx, rfl⟩ := List.mem_map.mp hk'
  obtain ⟨n, hn, he⟩ := List.mem_map.mp hk''
  exact ((hfresh n).mp hn).2 x hx ⟨(Prod.mk.inj he).1.symm, (Prod.mk.inj he).2.symm⟩

theorem drain_key {b b' : Barrier} (h : b.drain = some b') : b'.runId = b.runId ∧ b'.name = b.name := by
  unfold Barrier.drain at h
  split at h
  · cases h
    exact ⟨rfl, rfl⟩
  · cases h

theorem Drained.keyed {runId : String} {names : List String} {bs bs' : List Barrier}
    (h : Drained runId names bs bs')
    (hk : Keyed (fun b : Barrier => (b.runId, b.name)) bs) :
    Keyed (fun b : Barrier => (b.runId, b.name)) bs' := by
  obtain ⟨g, rfl, hg, -⟩ := h
  refine hk.map fun x hx => ?_
  have := hg x hx
  split at this
  · rw [(drain_key this).1, (drain_key this).2]
  · rw [this]

theorem produced_append {bs : List Batch} {spec : BatchSpec} {runId jobId : String} {now : Time}
    {f : Batch → Batch} (h : ∀ b ∈ bs, b.producedBarriers.Nodup)
    (hf : ∀ b, (f b).producedBarriers = b.producedBarriers) :
    ∀ b ∈ bs ++ [f (spec.batch runId jobId now)], b.producedBarriers.Nodup := by
  intro b hb
  rcases List.mem_append.mp hb with hb | hb
  · exact h b hb
  · rw [List.mem_singleton.mp hb, hf]
    exact nodup_sortedSet _

theorem Move.keys {t : SQLiteJournal} (h : Move cfg op s t) (hk : Keys s) : Keys t := by
  cases h with
  | log events => exact ⟨hk.runs, hk.batches, hk.barriers, hk.producers, hk.audits, hk.produced⟩
  | rows f hf =>
    refine ⟨hk.runs, hk.batches.map fun b hb => by rw [(hf b hb).core], hk.barriers, hk.producers,
      hk.audits, fun b hb => ?_⟩
    obtain ⟨x, hx, rfl⟩ := List.mem_map.mp hb
    rw [(hf x hx).core]
    exact hk.produced x hx
  | ack b token ms now barriers hop hb ho hd =>
    refine ⟨hk.runs, hk.batches.updateWhere fun _ => rfl, hd.keyed hk.barriers, hk.producers,
      hk.audits, fun x hx => ?_⟩
    obtain ⟨y, hy, rfl⟩ := mem_updateWhere.mp hx
    split <;> exact hk.produced y hy
  | fail b b' token now g hop hb ho hf hg =>
    refine ⟨hk.runs.updateWhere fun r => (hg r).1, hk.batches.map fun x hx => ?_, hk.barriers,
      hk.producers, hk.audits, fun x hx => ?_⟩
    · split
      · rename_i hx'
        rw [hf.core]
        exact (of_decide_eq_true hx').symm
      · rfl
    · obtain ⟨y, hy, rfl⟩ := mem_updateWhere.mp hx
      split
      · rw [hf.core]
        exact hk.produced b hb
      · exact hk.produced y hy
  | quarantine runId g ha hg =>
    refine ⟨hk.runs.updateWhere fun r => (hg r).1, hk.batches.updateWhere fun _ => rfl,
      hk.barriers, hk.producers, hk.audits, fun x hx => ?_⟩
    obtain ⟨y, hy, rfl⟩ := mem_updateWhere.mp hx
    split <;> exact hk.produced y hy
  | insertRun run items bytes free now hop hid hr hs hl =>
    exact ⟨hk.runs.append_singleton (getRun_none.mp hr), hk.batches, hk.barriers, hk.producers,
      hk.audits, hk.produced⟩
  | enqueue t run spec jobId rows now artifacts barriers h ht hp =>
    have hf := stageBatch_frame ht
    have hpk := stageBatch_producers ht hk.producers
    refine ⟨hf.runs ▸ hk.runs, ?_, hp.keyed hk.barriers, hpk, hf.audits ▸ hk.audits, ?_⟩
    · simp only [hf.batches]
      exact hk.batches.append_singleton (getBatch_none.mp h.fresh)
    · simp only [hf.batches]
      exact produced_append (f := id) hk.produced fun _ => rfl
  | reject t run spec jobId rows now artifacts failure g h ht hf hg =>
    have hfr := stageBatch_frame ht
    have hpk := stageBatch_producers ht hk.producers
    exact ⟨hk.runs.updateWhere fun r => (hg r).1,
      hk.batches.append_singleton (getBatch_none.mp h.fresh), hfr.barriers ▸ hk.barriers, hpk,
      hfr.audits ▸ hk.audits, produced_append hk.produced fun _ => rfl⟩
  | openBarrier runId name now hop hr hn =>
    refine ⟨hk.runs, hk.batches, hk.barriers.append_singleton fun x hx he => ?_, hk.producers,
      hk.audits, hk.produced⟩
    exact getBarrier_none.mp hn x hx (Prod.mk.inj he)
  | closeBarrier runId name now barrier hop hr hb hs =>
    exact ⟨hk.runs, hk.batches, hk.barriers.updateWhere fun _ => rfl, hk.producers, hk.audits,
      hk.produced⟩
  | complete runId now hop hr hn he hm =>
    refine ⟨hk.runs, hk.batches, hk.barriers, ?_, hk.audits, hk.produced⟩
    simp only [closeProducers]
    refine Keyed.append_singleton (Keyed.updateWhere hk.producers fun _ => rfl) fun x hx he => ?_
    obtain ⟨y, hy, rfl⟩ := mem_updateWhere.mp hx
    refine lookup_eq_none.mp hm y hy ?_
    split at he <;> exact he
  | sealAudit runId summary now hop hv ha =>
    exact ⟨hk.runs, hk.batches, hk.barriers, hk.producers,
      hk.audits.append_singleton (lookup_eq_none.mp ha), hk.produced⟩
  | closeProduction runId g hr hg =>
    exact ⟨hk.runs.updateWhere fun r => (hg r).1, hk.batches, hk.barriers, hk.producers, hk.audits,
      hk.produced⟩
  | drain runId g hr hp hb hg =>
    exact ⟨hk.runs.updateWhere fun r => (hg r).1, hk.batches, hk.barriers, hk.producers, hk.audits,
      hk.produced⟩
  | delete runId hop =>
    exact ⟨hk.runs.filter _, hk.batches.filter _, hk.barriers.filter _, hk.producers.filter _,
      hk.audits.filter _, fun b hb => hk.produced b (List.mem_of_mem_filter hb)⟩

theorem Moves.keys {t : SQLiteJournal} (h : Moves cfg op s t) (hk : Keys s) : Keys t := by
  induction h with
  | refl => exact hk
  | tail _ hm ih => exact hm.keys ih

end CortexHarness.Journal
