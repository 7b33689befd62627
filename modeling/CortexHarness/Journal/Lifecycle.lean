import CortexHarness.Journal.Rows

/-!
# Batch and run lifecycles

The invariant `Inv` of every reachable journal:

* `Batch.Valid`: a row has a token exactly when it has a lease, it has both while `LEASED` and
  neither unless `LEASED` or `RECONCILING`; an executable row has an attempt left;
* `RunOK`: an active run has no failed batch, a quarantined run only finished and blocked ones, and
  in a drained run every batch is `DONE` and every barrier `DRAINED`;
* every batch has its run, and a lane has at most one active run.

`RowChain` is what one call does to a stored row, with the invariant at every step of the way, and
`row_chain` and `row_persists` say that this is all that can happen to it.
-/

namespace CortexHarness.Journal

open Table Relation

variable {cfg : Config} {op : Op} {u v s : SQLiteJournal}

/-! ## Rows -/

/-- What every stored batch row satisfies. -/
structure Batch.Valid (b : Batch) : Prop where
  paired : b.fencingToken.isSome = b.leaseUntil.isSome
  leased : b.status = .leased → b.fencingToken.isSome = true
  unfenced : b.status.held = false → b.fencingToken = none
  attempts : b.status.executable = true → b.attempt < b.maxAttempts
  detail : b.errorDetail.isSome = true → b.status = .blocked

theorem Batch.Valid.lease_none {b : Batch} (h : b.Valid) (ht : b.fencingToken = none) :
    b.leaseUntil = none := by
  have := h.paired
  rw [ht] at this
  simpa using this.symm

/-- Only a failed or refused row carries an error text. -/
theorem Batch.Valid.detail_none {b : Batch} (h : b.Valid) (hs : b.status ≠ .blocked) :
    b.errorDetail = none := by
  by_contra hne
  exact hs (h.detail (Option.isSome_iff_ne_none.mpr hne))

theorem RowMove.valid {b b' : Batch} (h : RowMove op u b b') (hv : b.Valid) : b'.Valid := by
  have hdetail : b.status ≠ .blocked → b.errorDetail = none := hv.detail_none
  cases h with
  | keep => exact hv
  | lease hop hs =>
    have hb : b.status ≠ .blocked := fun h => by simp [h, BatchStatus.executable] at hs
    refine ⟨rfl, fun _ => rfl, fun h => by simp [leaseBatch, BatchStatus.held] at h, fun h => ?_,
      fun h => ?_⟩
    · simp [leaseBatch, BatchStatus.executable] at h
    · simp [leaseBatch, hdetail hb] at h
  | readback hop hs ht ha =>
    refine ⟨rfl, fun _ => rfl, fun h => ?_, fun h => ?_, fun h => ?_⟩
    · simp [leaseReconciliation, hs, BatchStatus.held] at h
    · simp [leaseReconciliation, hs, BatchStatus.executable] at h
    · simp [leaseReconciliation, hdetail (by simp [hs])] at h
  | renew hop hs ho =>
    refine ⟨?_, hv.leased, hv.unfenced, hv.attempts, hv.detail⟩
    rw [hv.leased hs]
    rfl
  | recover hs =>
    refine ⟨rfl, fun h => by simp [recoverAmbiguous] at h, fun _ => rfl, fun h => ?_, fun h => ?_⟩
    · simp [recoverAmbiguous, BatchStatus.executable] at h
    · simp [recoverAmbiguous, hdetail (by simp [hs])] at h
  | release hs =>
    refine ⟨rfl, fun h => by simp [releaseOwner, hs] at h, fun _ => rfl, fun h => ?_, fun h => ?_⟩
    · simp [releaseOwner, hs, BatchStatus.executable] at h
    · simp [releaseOwner, hdetail (by simp [hs])] at h
  | mark hop hs ho =>
    refine ⟨hv.paired, fun h => by simp at h, fun h => by simp [BatchStatus.held] at h,
      fun h => by simp [BatchStatus.executable] at h, fun h => ?_⟩
    simp [hdetail (by simp [hs])] at h
  | retry hop ho ha =>
    have hb : b.status ≠ .blocked := fun h => by
      have := (ownedBy_held ho).1
      simp [h, BatchStatus.held] at this
    exact ⟨rfl, fun h => by simp [retryBatch] at h, fun _ => rfl, fun _ => ha,
      fun h => by simp [retryBatch, hdetail hb] at h⟩
  | backOff hop ho hs ha =>
    refine ⟨rfl, fun h => by simp [backOffBatch] at h, fun _ => rfl, fun h => ?_, fun h => ?_⟩
    · simp [backOffBatch, BatchStatus.executable] at h
    · simp [backOffBatch, hdetail (by simp [hs])] at h

theorem RowStep.valid {b b' : Batch} (h : RowStep op u b b') (hv : b.Valid) : b'.Valid := by
  cases h with
  | move h => exact h.valid hv
  | ack =>
    exact ⟨rfl, fun h => by simp [doneBatch] at h, fun _ => rfl,
      fun h => by simp [doneBatch, BatchStatus.executable] at h, fun h => by simp [doneBatch] at h⟩
  | fail hop ho hf =>
    have hb : b.status ≠ .blocked := fun h => by
      have := (ownedBy_held ho).1
      simp [h, BatchStatus.held] at this
    cases hf with
    | deadLetter =>
      exact ⟨rfl, fun h => by simp [deadLetterBatch] at h, fun _ => rfl,
        fun h => by simp [deadLetterBatch, BatchStatus.executable] at h,
        fun h => by simp [deadLetterBatch, hv.detail_none hb] at h⟩
    | block =>
      exact ⟨rfl, fun h => by simp [blockRow] at h, fun _ => rfl,
        fun h => by simp [blockRow, BatchStatus.executable] at h, fun _ => rfl⟩
  | quarantine =>
    exact ⟨rfl, fun h => by simp [quarantineBatch] at h, fun _ => rfl,
      fun h => by simp [quarantineBatch, BatchStatus.executable] at h, fun _ => rfl⟩

theorem Inserted.valid {b : Batch} (h : Inserted cfg op u b) : b.Valid := by
  obtain ⟨run, spec, jobId, now, -, rfl | ⟨detail, rfl⟩⟩ := h
  · exact ⟨rfl, fun h => by simp [BatchSpec.batch] at h, fun _ => rfl,
      fun _ => spec.maxAttempts_pos, fun h => by simp [BatchSpec.batch] at h⟩
  · exact ⟨rfl, fun h => by simp [rejectBatch] at h, fun _ => rfl,
      fun h => by simp [rejectBatch, BatchStatus.executable] at h, fun _ => rfl⟩

theorem RowMove.eq_of_final {b b' : Batch} (h : RowMove op u b b') (hf : b.status.final = true) :
    b' = b := by
  cases h with
  | keep => rfl
  | lease hop hs => cases hb : b.status <;> simp [hb, BatchStatus.executable, BatchStatus.final] at hs hf
  | readback hop hs => simp [hs, BatchStatus.final] at hf
  | renew hop hs => simp [hs, BatchStatus.final] at hf
  | recover hs => simp [hs, BatchStatus.final] at hf
  | release hs => simp [hs, BatchStatus.final] at hf
  | mark hop hs => simp [hs, BatchStatus.final] at hf
  | retry hop ho =>
    have := (ownedBy_held ho).1
    cases hb : b.status <;> simp [hb, BatchStatus.held, BatchStatus.final] at this hf
  | backOff hop ho hs => simp [hs, BatchStatus.final] at hf

/-- The calls that move single rows end none of them. -/
theorem RowMove.not_final {b b' : Batch} (h : RowMove op u b b') (hf : b.status.final = false) :
    b'.status.final = false := by
  cases h with
  | keep => exact hf
  | lease => rfl
  | readback => exact hf
  | renew => exact hf
  | recover => rfl
  | release => exact hf
  | mark => rfl
  | retry => rfl
  | backOff => rfl

theorem not_final_of_held {b : Batch} (h : b.status.held = true) : b.status.final = false := by
  cases hb : b.status <;> simp [hb, BatchStatus.held, BatchStatus.final] at h ⊢

/-! ## Runs -/

/-- What the batches and barriers of a stored run satisfy, by its status. -/
structure RunOK (s : SQLiteJournal) (r : Run) : Prop where
  clean : r.status.active = true → ∀ b ∈ s.batches, b.runId = r.runId →
    b.status.final = true → b.status = .done
  quarantined : r.status = .quarantined → ∀ b ∈ s.batches, b.runId = r.runId →
    b.status = .done ∨ b.status = .blocked
  drained : r.status = .drained → ∀ b ∈ s.batches, b.runId = r.runId → b.status = .done
  barriers : r.status = .drained → ∀ x ∈ s.barriers, x.runId = r.runId → x.status = .drained

/-- The batches of a run before and after a move of its rows. -/
structure SameRun (u v : SQLiteJournal) (r r' : Run) : Prop where
  id_eq : r'.runId = r.runId
  status_eq : r'.status = r.status
  rows : ∀ b' ∈ v.batches, b'.runId = r.runId →
    ∃ b ∈ u.batches, b.runId = r.runId ∧ (b.status.final = true → b' = b) ∧
      (b.status.final = false → b'.status.final = true → b'.status = .done)
  barriers : r.status = .drained → ∀ x' ∈ v.barriers, x'.runId = r.runId → x' ∈ u.barriers

theorem RunOK.same {r r' : Run} (hr : RunOK u r) (h : SameRun u v r r') : RunOK v r' := by
  have hrow : ∀ b' ∈ v.batches, b'.runId = r'.runId → b'.runId = r.runId :=
    fun b' _ hb => hb.trans h.id_eq
  refine ⟨fun ha b' hb' hid hf => ?_, fun hq b' hb' hid => ?_, fun hd b' hb' hid => ?_,
    fun hd x' hx' hid => ?_⟩
  · obtain ⟨b, hb, hbr, h1, h2⟩ := h.rows b' hb' (hrow b' hb' hid)
    cases hbf : b.status.final with
    | true =>
      rw [h1 hbf] at hf ⊢
      exact hr.clean (h.status_eq ▸ ha) b hb hbr hbf
    | false => exact h2 hbf hf
  · obtain ⟨b, hb, hbr, h1, -⟩ := h.rows b' hb' (hrow b' hb' hid)
    have hs := hr.quarantined (h.status_eq ▸ hq) b hb hbr
    have hbf : b.status.final = true := by rcases hs with hs | hs <;> rw [hs] <;> rfl
    rwa [h1 hbf]
  · obtain ⟨b, hb, hbr, h1, -⟩ := h.rows b' hb' (hrow b' hb' hid)
    have hs := hr.drained (h.status_eq ▸ hd) b hb hbr
    have hbf : b.status.final = true := by rw [hs]; rfl
    rwa [h1 hbf]
  · exact hr.barriers (h.status_eq ▸ hd) x'
      (h.barriers (h.status_eq ▸ hd) x' hx' (hid.trans h.id_eq)) (hid.trans h.id_eq)

/-- The invariant of every reachable journal. -/
structure Inv (s : SQLiteJournal) : Prop where
  keys : Keys s
  valid : ∀ b ∈ s.batches, b.Valid
  owner : ∀ b ∈ s.batches, ∃ r ∈ s.runs, r.runId = b.runId
  runs : ∀ r ∈ s.runs, RunOK s r
  lanes : ∀ r ∈ s.runs, ∀ r' ∈ s.runs, r.status.active = true → r'.status.active = true →
    r.lane = r'.lane → r.runId = r'.runId

theorem Inv.empty : Inv .empty :=
  ⟨.empty, fun _ h => absurd h List.not_mem_nil, fun _ h => absurd h List.not_mem_nil,
    fun _ h => absurd h List.not_mem_nil, fun _ h => absurd h List.not_mem_nil⟩

theorem Move.valid (h : Move cfg op u v) (hi : Inv u) : ∀ b ∈ v.batches, b.Valid := by
  intro b' hb'
  rcases h.batch_backward hi.keys hb' with ⟨b, hb, hs⟩ | hn
  · exact hs.valid (hi.valid b hb)
  · exact hn.valid

theorem Move.owner (h : Move cfg op u v) (hi : Inv u) :
    ∀ b ∈ v.batches, ∃ r ∈ v.runs, r.runId = b.runId := by
  intro b' hb'
  have hold : ∃ r ∈ u.runs, r.runId = b'.runId := by
    rcases h.batch_backward hi.keys hb' with ⟨b, hb, hs⟩ | ⟨run, spec, jobId, now, ha, hn⟩
    · rw [hs.core]
      exact hi.owner b hb
    · refine ⟨run, ha.mem, ?_⟩
      rcases hn with rfl | ⟨d, rfl⟩ <;> rfl
  obtain ⟨r, hr, hid⟩ := hold
  rcases h.run_forward hi.keys hr with ⟨r', hr', hs⟩ | ⟨-, rfl⟩
  · exact ⟨r', hr', hs.ids.1.trans hid⟩
  · have := (List.mem_filter.mp hb').2
    simp [hid] at this

theorem Move.lanes (h : Move cfg op u v) (hi : Inv u) :
    ∀ r ∈ v.runs, ∀ r' ∈ v.runs, r.status.active = true → r'.status.active = true →
      r.lane = r'.lane → r.runId = r'.runId := by
  have hactive : ∀ {r r' : Run}, RunStep op u r r' → r'.status.active = true →
      r.status.active = true := by
    intro r r' hs ha
    cases hs with
    | keep => exact ha
    | fail _ _ _ _ h => rcases h with h | h <;> simp [h, RunStatus.active] at ha
    | refuse _ _ h => simp [h, RunStatus.active] at ha
    | quarantine _ _ h => simp [h, RunStatus.active] at ha
    | closeProduction hs => simp [hs, RunStatus.active]
    | drain _ _ _ _ h => simp [h, RunStatus.active] at ha
  have hlane : ∀ {r r' : Run}, RunStep op u r r' → r'.lane = r.lane := by
    intro r r' hs
    rw [Run.lane, hs.ids.2, Run.lane]
  intro r₁ h₁ r₂ h₂ ha₁ ha₂ hl
  rcases h.runs hi.keys with ⟨f, hf, hv⟩ | ⟨run, hv, -, -, -, -, hfree, -⟩ | ⟨runId, -, rfl⟩
  · rw [hv] at h₁ h₂
    obtain ⟨x₁, hx₁, rfl⟩ := List.mem_map.mp h₁
    obtain ⟨x₂, hx₂, rfl⟩ := List.mem_map.mp h₂
    have s₁ := hf x₁ hx₁
    have s₂ := hf x₂ hx₂
    rw [s₁.ids.1, s₂.ids.1]
    exact hi.lanes x₁ hx₁ x₂ hx₂ (hactive s₁ ha₁) (hactive s₂ ha₂)
      ((hlane s₁).symm.trans (hl.trans (hlane s₂)))
  · rw [hv] at h₁ h₂
    rcases List.mem_append.mp h₁ with m₁ | m₁ <;> rcases List.mem_append.mp h₂ with m₂ | m₂
    · exact hi.lanes r₁ m₁ r₂ m₂ ha₁ ha₂ hl
    · rw [List.mem_singleton.mp m₂] at hl
      rw [hfree r₁ m₁ hl] at ha₁
      cases ha₁
    · rw [List.mem_singleton.mp m₁] at hl
      rw [hfree r₂ m₂ hl.symm] at ha₂
      cases ha₂
    · rw [List.mem_singleton.mp m₁, List.mem_singleton.mp m₂]
  · exact hi.lanes r₁ (List.mem_of_mem_filter h₁) r₂ (List.mem_of_mem_filter h₂) ha₁ ha₂ hl

/-! ### The runs of a move -/

theorem RunOK.of_failed {r : Run} (h : r.status = .blocked ∨ r.status = .deadLettered) :
    RunOK s r := by
  refine ⟨fun ha => ?_, fun hq => ?_, fun hd => ?_, fun hd => ?_⟩
  · rcases h with h | h <;> simp [h, RunStatus.active] at ha
  · rcases h with h | h <;> simp [h] at hq
  · rcases h with h | h <;> simp [h] at hd
  · rcases h with h | h <;> simp [h] at hd

/-- A run whose own batches and barriers a move does not change keeps its property. -/
theorem RunOK.frame {r : Run} (h : RunOK u r)
    (hb : ∀ b ∈ v.batches, b.runId = r.runId → b ∈ u.batches)
    (hx : ∀ x ∈ v.barriers, x.runId = r.runId → x ∈ u.barriers) : RunOK v r :=
  ⟨fun ha b hm hid => h.clean ha b (hb b hm hid) hid,
    fun hq b hm hid => h.quarantined hq b (hb b hm hid) hid,
    fun hd b hm hid => h.drained hd b (hb b hm hid) hid,
    fun hd x hm hid => h.barriers hd x (hx x hm hid) hid⟩

theorem mem_updateJob_other {b : Batch} {f : Batch → Batch} (hk : Keys u) (hb : b ∈ u.batches)
    (hf : (f b).runId = b.runId) {runId : String} (hne : b.runId ≠ runId) {x : Batch}
    (hx : x ∈ updateWhere (fun y => decide (y.jobId = b.jobId)) f u.batches)
    (hid : x.runId = runId) : x ∈ u.batches := by
  obtain ⟨y, hy, rfl⟩ := mem_updateWhere.mp hx
  by_cases hj : y.jobId = b.jobId
  · rw [hk.batch_eq hy hb hj] at hid
    rw [if_pos (by simp)] at hid
    exact absurd (hf.symm.trans hid) hne
  · rwa [if_neg (by simpa using hj)]

theorem mem_updateRun {runId : String} {g : Run → Run} {r' : Run}
    (h : r' ∈ updateWhere (fun r => decide (r.runId = runId)) g u.runs) :
    (∃ r ∈ u.runs, r.runId = runId ∧ r' = g r) ∨ (r' ∈ u.runs ∧ r'.runId ≠ runId) := by
  obtain ⟨r, hr, rfl⟩ := mem_updateWhere.mp h
  by_cases hid : r.runId = runId
  · exact .inl ⟨r, hr, hid, by simp [hid]⟩
  · rw [if_neg (by simpa using hid)]
    exact .inr ⟨hr, hid⟩

theorem Produced.mem_other {runId runId' : String} {names : List String} {bs bs' : List Barrier}
    (h : Produced runId names bs bs') (hne : runId ≠ runId') {x : Barrier} (hx : x ∈ bs')
    (hid : x.runId = runId') : x ∈ bs := by
  obtain ⟨g, fresh, rfl, -, -, hg⟩ := h
  rcases List.mem_append.mp hx with hx | hx
  · obtain ⟨y, hy, rfl⟩ := List.mem_map.mp hx
    have hgy := hg y hy
    split at hgy
    · rename_i hc
      rw [hgy.2] at hid
      exact absurd (hc.1.symm.trans hid) hne
    · rwa [hgy]
  · obtain ⟨n, -, rfl⟩ := List.mem_map.mp hx
    exact absurd hid hne

theorem Move.runOK (h : Move cfg op u v) (hi : Inv u) : ∀ r ∈ v.runs, RunOK v r := by
  have hk := hi.keys
  cases h with
  | log => exact fun r hr => (hi.runs r hr).frame (fun _ h _ => h) fun _ h _ => h
  | rows f hf =>
    refine fun r hr => (hi.runs r hr).same
      ⟨rfl, rfl, fun b' hb' hid => ?_, fun _ x hx _ => hx⟩
    obtain ⟨b, hb, rfl⟩ := List.mem_map.mp hb'
    refine ⟨b, hb, ?_, (hf b hb).eq_of_final, fun h1 h2 => ?_⟩
    · rw [← hid, (hf b hb).core]
    · rw [(hf b hb).not_final h1] at h2
      cases h2
  | ack b token ms now barriers hop hb ho hd =>
    have hheld := not_final_of_held (ownedBy_held ho).1
    refine fun r hr => (hi.runs r hr).same
      ⟨rfl, rfl, fun b' hb' hid => ?_, fun hdr x hx hid => ?_⟩
    · obtain ⟨y, hy, rfl⟩ := mem_updateWhere.mp hb'
      by_cases hj : y.jobId = b.jobId
      · have hyb := hk.batch_eq hy hb hj
        subst hyb
        rw [if_pos (by simp)] at hid ⊢
        exact ⟨y, hy, hid, fun hf => (by rw [hheld] at hf; cases hf), fun _ _ => rfl⟩
      · rw [if_neg (by simpa using hj)] at hid ⊢
        exact ⟨y, hy, hid, fun _ => rfl, fun h1 h2 => (by rw [h1] at h2; cases h2)⟩
    · -- a drained run has no held batch, so this acknowledgement is of another run
      have hne : b.runId ≠ r.runId := by
        intro he
        rw [(hi.runs r hr).drained hdr b hb he] at hheld
        cases hheld
      obtain ⟨g, rfl, hg, -⟩ := hd
      obtain ⟨y, hy, rfl⟩ := List.mem_map.mp hx
      have hgy := hg y hy
      split at hgy
      · rename_i hc
        exact absurd (hc.1.symm.trans ((drain_key hgy).1.symm.trans hid)) hne
      · rwa [hgy]
  | fail b b' token now g hop hb ho hf hg =>
    intro r' hr'
    rcases mem_updateRun hr' with ⟨r, -, -, rfl⟩ | ⟨hr, hne⟩
    · exact .of_failed (hg r).2.2
    · refine (hi.runs r' hr).frame (fun x hx hid => ?_) fun _ h _ => h
      exact mem_updateJob_other (f := fun _ => b') hk hb (by rw [hf.core]) (Ne.symm hne) hx hid
  | quarantine runId g ha hg =>
    intro r' hr'
    rcases mem_updateRun hr' with ⟨r, -, hid, rfl⟩ | ⟨hr, hne⟩
    · have hq := (hg r).2.2
      refine ⟨fun ha => by simp [hq, RunStatus.active] at ha, fun _ x hx hxr => ?_,
        fun hd => by simp [hq] at hd, fun hd => by simp [hq] at hd⟩
      obtain ⟨y, hy, rfl⟩ := mem_updateWhere.mp hx
      split
      · exact .inr rfl
      · rename_i hc
        rw [if_neg hc, (hg r).1, hid] at hxr
        simp only [hxr, beq_self_eq_true, Bool.true_and, bne_iff_ne, not_not] at hc
        exact .inl hc
    · refine (hi.runs r' hr).frame (fun x hx hid => ?_) fun _ h _ => h
      obtain ⟨y, hy, rfl⟩ := mem_updateWhere.mp hx
      split at hid
      · rename_i hc
        simp only [Bool.and_eq_true, beq_iff_eq] at hc
        exact absurd (hid.symm.trans hc.1) hne
      · rename_i hc
        rwa [if_neg hc]
  | insertRun run items bytes free now hop hid hr hs hl =>
    intro r' hr'
    rcases List.mem_append.mp hr' with hm | hm
    · exact (hi.runs r' hm).frame (fun _ h _ => h) fun _ h _ => h
    · rw [List.mem_singleton.mp hm]
      refine ⟨fun _ b hb hbr => ?_, fun hq => by simp [hs] at hq, fun hd => by simp [hs] at hd,
        fun hd => by simp [hs] at hd⟩
      obtain ⟨r, hr₀, hid₀⟩ := hi.owner b hb
      exact absurd (hid₀.trans hbr) (getRun_none.mp hr r hr₀)
  | enqueue t run spec jobId rows now artifacts barriers h ht hp =>
    have hf := stageBatch_frame ht
    intro r hr
    have hr : r ∈ u.runs := hf.runs ▸ hr
    by_cases hid : r.runId = run.runId
    · have hopen : r.status = .opened := eq_of_keyed hk.runs hr h.mem hid ▸ h.opened
      refine ⟨fun ha b hb hbr hbf => ?_, fun hq => by simp [hopen] at hq,
        fun hd => by simp [hopen] at hd, fun hd => by simp [hopen] at hd⟩
      rcases List.mem_append.mp (hf.batches ▸ hb) with hb | hb
      · exact (hi.runs r hr).clean ha b hb hbr hbf
      · rw [List.mem_singleton.mp hb] at hbf
        cases hbf
    · refine (hi.runs r hr).frame (fun b hb hbr => ?_) fun x hx hxr => ?_
      · rcases List.mem_append.mp (hf.batches ▸ hb) with hb | hb
        · exact hb
        · rw [List.mem_singleton.mp hb] at hbr
          exact absurd hbr.symm hid
      · exact hp.mem_other (Ne.symm hid) hx hxr
  | reject t run spec jobId rows now artifacts failure g h ht hf hg =>
    have hfr := stageBatch_frame ht
    intro r' hr'
    rcases mem_updateRun hr' with ⟨r, -, -, rfl⟩ | ⟨hr, hne⟩
    · exact .of_failed (.inl (hg r).2.2)
    · refine (hi.runs r' hr).frame (fun b hb hbr => ?_) fun x hx _ => hfr.barriers ▸ hx
      rcases List.mem_append.mp hb with hb | hb
      · exact hb
      · rw [List.mem_singleton.mp hb] at hbr
        exact absurd hbr.symm hne
  | openBarrier runId name now hop hr hn =>
    refine fun r hm => (hi.runs r hm).same
      ⟨rfl, rfl, fun b hb hid => ⟨b, hb, hid, fun _ => rfl, fun h1 h2 => ?_⟩, fun hd x hx hid => ?_⟩
    · rw [h1] at h2
      cases h2
    · rcases List.mem_append.mp hx with hx | hx
      · exact hx
      · rw [List.mem_singleton.mp hx] at hid
        have hopen := status_of_runStatus hk hm (hid ▸ hr : u.runStatus r.runId = some .opened)
        rw [hopen] at hd
        cases hd
  | closeBarrier runId name now barrier hop hr hb hs =>
    refine fun r hm => (hi.runs r hm).same
      ⟨rfl, rfl, fun b hb hid => ⟨b, hb, hid, fun _ => rfl, fun h1 h2 => ?_⟩, fun hd x hx hid => ?_⟩
    · rw [h1] at h2
      cases h2
    · obtain ⟨y, hy, rfl⟩ := mem_updateWhere.mp hx
      by_cases hc : (y.runId, y.name) = (runId, name)
      · rw [if_pos (by simpa using hc)] at hid
        have hyr : r.runId = runId := hid.symm.trans (Prod.mk.inj hc).1
        rw [status_of_runStatus hk hm (hyr ▸ hr)] at hd
        cases hd
      · rwa [if_neg (by simpa using hc)]
  | complete => exact fun r hr => (hi.runs r hr).frame (fun _ h _ => h) fun _ h _ => h
  | sealAudit => exact fun r hr => (hi.runs r hr).frame (fun _ h _ => h) fun _ h _ => h
  | closeProduction runId g hr hg =>
    intro r' hr'
    rcases mem_updateRun hr' with ⟨r, hm, hid, rfl⟩ | ⟨hm, -⟩
    · have hs := (hg r).2.2
      have hopen := status_of_runStatus hk hm (hid ▸ hr)
      refine ⟨fun _ b hb hbr => ?_, fun hq => by simp [hs] at hq, fun hd => by simp [hs] at hd,
        fun hd => by simp [hs] at hd⟩
      exact (hi.runs r hm).clean (by rw [hopen]; rfl) b hb (hbr.trans (hg r).1)
    · exact (hi.runs r' hm).frame (fun _ h _ => h) fun _ h _ => h
  | drain runId g hr hp hb hg =>
    intro r' hr'
    rcases mem_updateRun hr' with ⟨r, hm, hid, rfl⟩ | ⟨hm, -⟩
    · have hs := (hg r).2.2
      have hid' : (g r).runId = runId := (hg r).1.trans hid
      exact ⟨fun ha => by simp [hs, RunStatus.active] at ha, fun hq => by simp [hs] at hq,
        fun _ b hbm hbr => pending_zero hp b hbm (hbr.trans hid'),
        fun _ x hxm hxr => hb x hxm (hxr.trans hid')⟩
    · exact (hi.runs r' hm).frame (fun _ h _ => h) fun _ h _ => h
  | delete runId hop =>
    intro r hr
    exact (hi.runs r (List.mem_of_mem_filter hr)).frame
      (fun b hb _ => List.mem_of_mem_filter hb) fun x hx _ => List.mem_of_mem_filter hx

theorem Move.inv (h : Move cfg op u v) (hi : Inv u) : Inv v :=
  ⟨h.keys hi.keys, h.valid hi, h.owner hi, h.runOK hi, h.lanes hi⟩

theorem Moves.inv (h : Moves cfg op u v) (hi : Inv u) : Inv v := by
  induction h with
  | refl => exact hi
  | tail _ hm ih => exact hm.inv ih

theorem step_inv (hi : Inv s) (op : Op) : Inv (step cfg s op) :=
  Moves.inv (exec_moves hi.keys op) hi

theorem run_inv (cfg : Config) (hi : Inv s) (ops : List Op) : Inv (runOps cfg s ops) :=
  Run.run_invariant (I := Inv) (A := fun _ => True) (fun _ op _ h => step_inv h op) hi ops
    fun _ _ => trivial

/-- **The lifecycle invariant holds in every reachable journal.** -/
theorem Reachable.inv (h : Reachable cfg s) : Inv s :=
  h.invariant cfg (I := Inv) .empty fun _ op hi => step_inv hi op

/-! ## Further invariants -/

/-- What every move of a call preserves where the lifecycle invariant holds, the call preserves. -/
theorem step_of_move {I : SQLiteJournal → Prop} (hi : Inv s) (op : Op)
    (hm : ∀ u v, Inv u → Move cfg op u v → I u → I v) (hI : I s) : I (step cfg s op) := by
  have h : Moves cfg op s (step cfg s op) := exec_moves hi.keys op
  suffices ∀ t, Moves cfg op s t → Inv t ∧ I t from (this _ h).2
  intro t ht
  induction ht with
  | refl => exact ⟨hi, hI⟩
  | tail _ hmv ih => exact ⟨hmv.inv ih.1, hm _ _ ih.1 hmv ih.2⟩

/-- What every move of the allowed calls preserves, a run of such calls preserves. -/
theorem run_of_move {I : SQLiteJournal → Prop} {A : Op → Prop} (hi : Inv s)
    (hm : ∀ op u v, A op → Inv u → Move cfg op u v → I u → I v) (hI : I s) (ops : List Op)
    (hops : ∀ op ∈ ops, A op) : I (runOps cfg s ops) := by
  refine (Run.run_invariant (I := fun s => Inv s ∧ I s) (A := A) (fun t op ha h => ?_) ⟨hi, hI⟩ ops
    hops).2
  exact ⟨step_inv h.1 op, step_of_move h.1 op (fun u v => hm op u v ha) h.2⟩

theorem Reachable.of_move {I : SQLiteJournal → Prop} (h0 : I .empty)
    (hm : ∀ op u v, Inv u → Move cfg op u v → I u → I v) (h : Reachable cfg s) : I s := by
  obtain ⟨ops, rfl⟩ := h
  exact run_of_move (A := fun _ => True) .empty (fun op u v _ => hm op u v) h0 ops
    fun _ _ => trivial

end CortexHarness.Journal
