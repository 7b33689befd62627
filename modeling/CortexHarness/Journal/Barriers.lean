import CortexHarness.Journal.Attempts

/-!
# The barrier gate

`Counted` ties a stored barrier to the batches of its run: `produced_count` counts the batches that
list it and were not rejected at enqueue, `drained_count` those of them that are `DONE`, and the
barrier is `DRAINED` exactly when it is closed and the two agree.

* `Move.barrierInv`: every move of a call keeps the counts;
* `drained_persists`: a drained barrier is not changed any more;
* `barrier_gate`: what follows for the batch that a claim leases.
-/

namespace CortexHarness.Journal

open Table Relation

variable {cfg : Config} {op : Op} {s u v : SQLiteJournal}

/-! ## The counts -/

/-- Refused for its manifest at enqueue; nothing else writes `error_detail`. -/
def Batch.rejected (b : Batch) : Bool := b.errorDetail.isSome

/-- The batch counts as a producer of the barrier. -/
def produces (runId name : String) (b : Batch) : Bool :=
  b.runId == runId && b.producedBarriers.contains name && !b.rejected

/-- What a stored barrier says about the batches of its run. -/
structure Counted (batches : List Batch) (x : Barrier) : Prop where
  produced : x.producedCount = batches.countP (produces x.runId x.name)
  drained : x.drainedCount =
    batches.countP fun b => produces x.runId x.name b && b.status == .done
  open_iff : x.status = .opened ↔ x.closedAt = none
  drained_iff : x.status = .drained ↔ x.closedAt.isSome ∧ x.drainedCount = x.producedCount

/-- The invariant: every barrier is counted, and every producer has its barriers. -/
structure BarrierInv (s : SQLiteJournal) : Prop where
  counted : ∀ x ∈ s.barriers, Counted s.batches x
  present : ∀ b ∈ s.batches, b.rejected = false → ∀ n ∈ b.producedBarriers,
    ∃ x ∈ s.barriers, x.runId = b.runId ∧ x.name = n

theorem BarrierInv.empty : BarrierInv .empty :=
  ⟨fun _ h => absurd h List.not_mem_nil, fun _ h => absurd h List.not_mem_nil⟩

/-- A row whose counted columns are the same before and after. -/
structure SameCount (b b' : Batch) : Prop where
  core : b'.toBatchCore = b.toBatchCore
  rejected : b'.rejected = b.rejected
  done : b'.status = .done ↔ b.status = .done

theorem SameCount.produces {b b' : Batch} (h : SameCount b b') (runId name : String) :
    produces runId name b' = produces runId name b := by
  simp only [Journal.produces, h.core, h.rejected]

theorem Counted.map {batches : List Batch} {x : Barrier} {f : Batch → Batch}
    (h : Counted batches x) (hf : ∀ b ∈ batches, SameCount b (f b)) :
    Counted (batches.map f) x := by
  refine ⟨?_, ?_, h.open_iff, h.drained_iff⟩
  · rw [h.produced, List.countP_map]
    refine List.countP_congr fun b hb => ?_
    simp only [Function.comp, (hf b hb).produces]
  · rw [h.drained, List.countP_map]
    refine List.countP_congr fun b hb => ?_
    simp only [Function.comp, (hf b hb).produces, Bool.and_eq_true, beq_iff_eq, (hf b hb).done]

theorem not_done_of_held {b : Batch} (h : b.status.held = true) : b.status ≠ .done := by
  intro hs
  simp [hs, BatchStatus.held] at h

theorem RowMove.sameCount {b b' : Batch} (h : RowMove op u b b') : SameCount b b' := by
  refine ⟨h.core, ?_, ?_⟩
  · cases h <;> rfl
  · cases h with
    | keep => exact Iff.rfl
    | lease _ hs =>
      refine ⟨fun h => by simp [leaseBatch] at h, fun h => ?_⟩
      simp [h, BatchStatus.executable] at hs
    | readback => exact Iff.rfl
    | renew => exact Iff.rfl
    | recover hs => simp [recoverAmbiguous, hs]
    | release => exact Iff.rfl
    | mark _ hs => simp [hs]
    | retry _ ho => simp [retryBatch, not_done_of_held (ownedBy_held ho).1]
    | backOff _ _ hs => simp [backOffBatch, hs]

theorem Terminal.sameCount {b b' : Batch} (h : Terminal b b') (hs : b.status.held = true) :
    SameCount b b' := by
  have hb := not_done_of_held hs
  refine ⟨h.core, ?_, ?_⟩
  · cases h <;> rfl
  · cases h <;> simp [deadLetterBatch, blockRow, hb]

theorem SameCount.refl (b : Batch) : SameCount b b := ⟨rfl, rfl, Iff.rfl⟩

theorem fail_sameCount (hk : Keys u) {b b' : Batch} {token : String} {now : Time}
    (hb : b ∈ u.batches) (ho : b.ownedBy token now = true) (hf : Terminal b b') :
    ∀ c ∈ u.batches, SameCount c (if decide (c.jobId = b.jobId) then b' else c) := by
  intro c hc
  by_cases hj : c.jobId = b.jobId
  · rw [hk.batch_eq hc hb hj]
    simpa using hf.sameCount (ownedBy_held ho).1
  · simpa [hj] using SameCount.refl c

/-- The rows a quarantine leaves. -/
theorem quarantine_sameCount (runId : String) (c : Batch) :
    SameCount c (if (c.runId == runId && c.status != .done) = true then quarantineBatch c
      else c) := by
  split
  · rename_i hsel
    simp only [Bool.and_eq_true, bne_iff_ne] at hsel
    exact ⟨rfl, rfl, by simp [quarantineBatch, hsel.2]⟩
  · exact .refl c

/-- A table whose rows keep their counted columns, and whose barriers are the same. -/
theorem BarrierInv.map (h : BarrierInv u) {f : Batch → Batch}
    (hf : ∀ b ∈ u.batches, SameCount b (f b)) (hb : v.batches = u.batches.map f)
    (hx : v.barriers = u.barriers) : BarrierInv v := by
  refine ⟨fun x hm => ?_, fun b hm hr n hn => ?_⟩
  · rw [hx] at hm
    rw [hb]
    exact (h.counted x hm).map hf
  · rw [hb] at hm
    obtain ⟨c, hc, rfl⟩ := List.mem_map.mp hm
    rw [(hf c hc).core] at hn ⊢
    rw [hx]
    exact h.present c hc ((hf c hc).rejected ▸ hr) n hn

theorem BarrierInv.same (h : BarrierInv u) (hb : v.batches = u.batches)
    (hx : v.barriers = u.barriers) : BarrierInv v :=
  h.map (f := id) (fun b _ => .refl b) (by rw [hb, List.map_id]) hx

theorem not_rejected_of_held {b : Batch} (hv : b.Valid) (hs : b.status.held = true) :
    b.rejected = false := by
  have hne : b.status ≠ .blocked := fun h => by simp [h, BatchStatus.held] at hs
  rw [Batch.rejected, hv.detail_none hne]
  rfl

theorem countP_ack (hk : Keys u) {b : Batch} (hb : b ∈ u.batches) (hv : b.Valid)
    (hs : b.status.held = true) (runId name : String) :
    (updateWhere (fun y => decide (y.jobId = b.jobId)) doneBatch u.batches).countP
        (produces runId name) = u.batches.countP (produces runId name) ∧
      (updateWhere (fun y => decide (y.jobId = b.jobId)) doneBatch u.batches).countP
        (fun c => produces runId name c && c.status == .done) =
      u.batches.countP (fun c => produces runId name c && c.status == .done) +
        if produces runId name b then 1 else 0 := by
  have hp := countP_updateKey hk.batches hb doneBatch (produces runId name)
  have hd := countP_updateKey hk.batches hb doneBatch
    fun c => produces runId name c && c.status == .done
  have hpb : produces runId name (doneBatch b) = produces runId name b := by
    have hrej := not_rejected_of_held hv hs
    simp only [produces, Batch.rejected] at hrej ⊢
    rw [hrej]
    rfl
  have hdone : (doneBatch b).status = .done := rfl
  simp only [hpb, hdone, not_done_of_held hs, beq_self_eq_true, Bool.and_true, beq_iff_eq,
    Bool.and_eq_true, and_false, if_false] at hp hd
  exact ⟨by omega, by omega⟩

theorem produces_iff {b : Batch} (hr : b.rejected = false) (runId name : String) :
    produces runId name b = true ↔ b.runId = runId ∧ name ∈ b.producedBarriers := by
  simp [produces, hr]

/-- An acknowledged producer counts as `DONE` from now on. -/
theorem Counted.ack (hk : Keys u) {b : Batch} (hb : b ∈ u.batches) (hv : b.Valid)
    (hs : b.status.held = true) {x x' : Barrier} (hc : Counted u.batches x)
    (hx' : if x.runId = b.runId ∧ x.name ∈ b.producedBarriers then x.drain = some x'
      else x' = x) :
    Counted (updateWhere (fun y => decide (y.jobId = b.jobId)) doneBatch u.batches) x' := by
  obtain ⟨hp, hd⟩ := countP_ack hk hb hv hs x.runId x.name
  have hiff := produces_iff (not_rejected_of_held hv hs) x.runId x.name
  split at hx'
  · rename_i hsel
    rw [if_pos (hiff.mpr ⟨hsel.1.symm, hsel.2⟩)] at hd
    unfold Barrier.drain at hx'
    split at hx'
    · rename_i hle
      cases hx'
      refine ⟨hc.produced.trans hp.symm, by simp only [hd, hc.drained], ?_, ?_⟩
      · have hopen := hc.open_iff
        simp only
        split
        · rename_i hcl
          simp [Option.isSome_iff_ne_none.mp hcl.1]
        · exact hopen
      · have hdr := hc.drained_iff
        simp only
        split
        · rename_i hcl
          simpa using hcl
        · rename_i hcl
          have : x.status ≠ .drained := fun h => by
            have := (hdr.mp h).2
            omega
          exact ⟨fun h => absurd h this, fun h => absurd h hcl⟩
    · cases hx'
  · rename_i hsel
    subst hx'
    rw [if_neg fun h => hsel ⟨(hiff.mp h).1.symm, (hiff.mp h).2⟩, Nat.add_zero] at hd
    exact ⟨hc.produced.trans hp.symm, hc.drained.trans hd.symm, hc.open_iff, hc.drained_iff⟩

/-- A new row that does not count changes no count. -/
theorem Counted.append {batches : List Batch} {x : Barrier} {b : Batch} (h : Counted batches x)
    (hb : produces x.runId x.name b = false) : Counted (batches ++ [b]) x := by
  refine ⟨?_, ?_, h.open_iff, h.drained_iff⟩
  · rw [h.produced, List.countP_append]
    simp [hb]
  · rw [h.drained, List.countP_append]
    simp [hb]

theorem Counted.produce {batches : List Batch} {x : Barrier} {b : Batch} (h : Counted batches x)
    (hb : produces x.runId x.name b = true) (hs : b.status ≠ .done) (hx : x.status = .opened) :
    Counted (batches ++ [b]) x.produce := by
  refine ⟨?_, ?_, h.open_iff, ?_⟩
  · simp only [Barrier.produce, List.countP_append, ← h.produced]
    simp [hb]
  · simp only [Barrier.produce, List.countP_append, ← h.drained]
    simp [hs]
  · have hcl := h.open_iff.mp hx
    simp [Barrier.produce, hx, hcl]

theorem Counted.fresh {batches : List Batch} {runId name : String}
    (h : ∀ b ∈ batches, produces runId name b = false) : Counted batches (newBarrier runId name 0) := by
  refine ⟨?_, ?_, by simp [newBarrier], by simp [newBarrier]⟩
  · refine (List.countP_eq_zero.mpr fun b hb => ?_).symm
    simp [newBarrier, h b hb]
  · refine (List.countP_eq_zero.mpr fun b hb => ?_).symm
    simp [newBarrier, h b hb]

theorem BarrierInv.not_produces (h : BarrierInv u) {runId name : String}
    (hx : ∀ x ∈ u.barriers, ¬ (x.runId = runId ∧ x.name = name)) :
    ∀ b ∈ u.batches, produces runId name b = false := by
  intro b hb
  by_contra hne
  simp only [produces, Bool.not_eq_false, Bool.and_eq_true, beq_iff_eq, List.contains_iff_mem,
    Bool.not_eq_true'] at hne
  obtain ⟨x, hm, hr, hn⟩ := h.present b hb hne.2 name hne.1.2
  exact hx x hm ⟨hr.trans hne.1.1, hn⟩

theorem BarrierInv.enqueue (h : BarrierInv u) {b : Batch} (hr : b.rejected = false)
    (hs : b.status ≠ .done) (hb : v.batches = u.batches ++ [b])
    (hx : Produced b.runId b.producedBarriers u.barriers v.barriers) : BarrierInv v := by
  obtain ⟨g, fresh, hbar, -, hfresh, hg⟩ := hx
  have hiff := fun n => produces_iff hr b.runId n
  refine ⟨fun x hm => ?_, fun c hc hcr n hn => ?_⟩
  · rw [hbar] at hm
    rw [hb]
    rcases List.mem_append.mp hm with hm | hm
    · obtain ⟨y, hy, rfl⟩ := List.mem_map.mp hm
      have hgy := hg y hy
      split at hgy
      · rename_i hsel
        rw [hgy.2]
        refine (h.counted y hy).produce ?_ hs hgy.1
        rw [hsel.1]
        exact (hiff y.name).mpr ⟨rfl, hsel.2⟩
      · rename_i hsel
        rw [hgy]
        refine (h.counted y hy).append ?_
        by_contra hne
        have := (produces_iff hr y.runId y.name).mp (by simpa using hne)
        exact hsel ⟨this.1.symm, this.2⟩
    · -- a barrier that its first producer creates
      obtain ⟨n, hn, rfl⟩ := List.mem_map.mp hm
      obtain ⟨hn', hno⟩ := (hfresh n).mp hn
      exact (Counted.fresh (h.not_produces hno)).produce ((hiff n).mpr ⟨rfl, hn'⟩) hs rfl
  · have hold : ∀ y ∈ u.barriers, ∃ x ∈ v.barriers, x.runId = y.runId ∧ x.name = y.name := by
      intro y hy
      refine ⟨g y, by rw [hbar]; exact List.mem_append_left _ (List.mem_map_of_mem hy), ?_⟩
      have hgy := hg y hy
      split at hgy
      · rw [hgy.2]
        exact ⟨rfl, rfl⟩
      · rw [hgy]
        exact ⟨rfl, rfl⟩
    rw [hb] at hc
    rcases List.mem_append.mp hc with hc | hc
    · obtain ⟨y, hy, hyr, hyn⟩ := h.present c hc hcr n hn
      obtain ⟨x, hx, hxr, hxn⟩ := hold y hy
      exact ⟨x, hx, hxr.trans hyr, hxn.trans hyn⟩
    · rw [List.mem_singleton.mp hc] at hn ⊢
      by_cases hex : ∃ y ∈ u.barriers, y.runId = b.runId ∧ y.name = n
      · obtain ⟨y, hy, hyr, hyn⟩ := hex
        obtain ⟨x, hx, hxr, hxn⟩ := hold y hy
        exact ⟨x, hx, hxr.trans hyr, hxn.trans hyn⟩
      · refine ⟨newBarrier b.runId n 1, ?_, rfl, rfl⟩
        rw [hbar]
        refine List.mem_append_right _ (List.mem_map_of_mem ((hfresh n).mpr ⟨hn, ?_⟩))
        exact fun y hy hc => hex ⟨y, hy, hc⟩

/-- A batch refused at enqueue. -/
theorem BarrierInv.reject (h : BarrierInv u) {b : Batch} (hr : b.rejected = true)
    (hb : v.batches = u.batches ++ [b]) (hx : v.barriers = u.barriers) : BarrierInv v := by
  have hno : ∀ runId name, produces runId name b = false := by simp [produces, hr]
  refine ⟨fun x hm => ?_, fun c hc hcr n hn => ?_⟩
  · rw [hx] at hm
    rw [hb]
    exact (h.counted x hm).append (hno _ _)
  · rw [hb] at hc
    rw [hx]
    rcases List.mem_append.mp hc with hc | hc
    · exact h.present c hc hcr n hn
    · rw [List.mem_singleton.mp hc, hr] at hcr
      cases hcr

theorem Counted.close {batches : List Batch} {x : Barrier} (h : Counted batches x) (now : Time) :
    Counted batches (x.close now) := by
  refine ⟨h.produced, h.drained, ?_, ?_⟩
  · simp only [Barrier.close]
    split <;> simp
  · simp only [Barrier.close]
    split <;> simp_all

theorem Counted.filter {batches : List Batch} {x : Barrier} {runId : String}
    (h : Counted batches x) (hne : x.runId ≠ runId) :
    Counted (batches.filter fun b => b.runId != runId) x := by
  have hp : ∀ b, produces x.runId x.name b = true → b.runId ≠ runId := by
    intro b hb
    simp only [produces, Bool.and_eq_true, beq_iff_eq] at hb
    rw [hb.1.1]
    exact hne
  refine ⟨?_, ?_, h.open_iff, h.drained_iff⟩
  · rw [h.produced, List.countP_filter]
    refine List.countP_congr fun b _ => ?_
    simpa using hp b
  · rw [h.drained, List.countP_filter]
    refine List.countP_congr fun b _ => ?_
    simp only [Bool.and_eq_true, bne_iff_ne]
    exact ⟨fun hb => ⟨hb, hp b hb.1⟩, fun hb => hb.1⟩

/-- **Every move of a call keeps the counts.** -/
theorem Move.barrierInv (h : Move cfg op u v) (hi : Inv u) (hb : BarrierInv u) : BarrierInv v := by
  have hk := hi.keys
  cases h with
  | log => exact hb.same rfl rfl
  | rows f hf => exact hb.map (fun b hm => (hf b hm).sameCount) rfl rfl
  | ack b token ms now barriers hop hm ho hd =>
    obtain ⟨g, rfl, hg, -⟩ := hd
    have hheld := (ownedBy_held ho).1
    refine ⟨fun x hx => ?_, fun c hc hcr n hn => ?_⟩
    · obtain ⟨y, hy, rfl⟩ := List.mem_map.mp hx
      exact (hb.counted y hy).ack hk hm (hi.valid b hm) hheld (hg y hy)
    · obtain ⟨d, hd, hdr, hcore⟩ : ∃ d ∈ u.batches, d.rejected = false ∧
          c.toBatchCore = d.toBatchCore := by
        obtain ⟨d, hd, rfl⟩ := mem_updateWhere.mp hc
        split at hcr
        · rename_i hj
          have hdb : d = b := hk.batch_eq hd hm (by simpa using hj)
          exact ⟨d, hd, hdb ▸ not_rejected_of_held (hi.valid b hm) hheld, by rw [if_pos hj]; rfl⟩
        · exact ⟨d, hd, hcr, by rw [if_neg ‹_›]⟩
      rw [hcore] at hn ⊢
      obtain ⟨y, hy, hyr, hyn⟩ := hb.present d hd hdr n hn
      refine ⟨g y, List.mem_map_of_mem hy, ?_⟩
      have hgy := hg y hy
      split at hgy
      · rw [(drain_key hgy).1, (drain_key hgy).2]
        exact ⟨hyr, hyn⟩
      · rw [hgy]
        exact ⟨hyr, hyn⟩
  | fail b b' token now g hop hm ho hf hg =>
    exact hb.map (fail_sameCount hk hm ho hf) rfl rfl
  | quarantine runId g ha hg =>
    exact hb.map (fun c _ => quarantine_sameCount runId c) rfl rfl
  | insertRun => exact hb.same rfl rfl
  | enqueue t run spec jobId rows now artifacts barriers h ht hp =>
    exact hb.enqueue (b := spec.batch run.runId jobId now) rfl (by simp [BatchSpec.batch])
      (stageBatch_frame ht).batches hp
  | reject t run spec jobId rows now artifacts failure g h ht hf hg =>
    exact hb.reject rfl rfl (stageBatch_frame ht).barriers
  | openBarrier runId name now hop hr hn =>
    have hno := getBarrier_none.mp hn
    refine ⟨fun x hx => ?_, fun c hc hcr n hn => ?_⟩
    · rcases List.mem_append.mp hx with hx | hx
      · exact hb.counted x hx
      · rw [List.mem_singleton.mp hx]
        exact .fresh (hb.not_produces hno)
    · obtain ⟨x, hx, h⟩ := hb.present c hc hcr n hn
      exact ⟨x, List.mem_append_left _ hx, h⟩
  | closeBarrier runId name now barrier hop hr hx hs =>
    refine ⟨fun x hm => ?_, fun c hc hcr n hn => ?_⟩
    · obtain ⟨y, hy, rfl⟩ := mem_updateWhere.mp hm
      split
      · exact (hb.counted y hy).close now
      · exact hb.counted y hy
    · obtain ⟨y, hy, hyr, hyn⟩ := hb.present c hc hcr n hn
      refine ⟨_, mem_updateWhere.mpr ⟨y, hy, rfl⟩, ?_⟩
      split <;> exact ⟨hyr, hyn⟩
  | complete => exact hb.same rfl rfl
  | sealAudit => exact hb.same rfl rfl
  | closeProduction => exact hb.same rfl rfl
  | drain => exact hb.same rfl rfl
  | delete runId hop =>
    refine ⟨fun x hm => ?_, fun c hc hcr n hn => ?_⟩
    · obtain ⟨hx, hne⟩ := List.mem_filter.mp hm
      exact (hb.counted x hx).filter (by simpa using hne)
    · obtain ⟨hc, hne⟩ := List.mem_filter.mp hc
      obtain ⟨y, hy, hyr, hyn⟩ := hb.present c hc hcr n hn
      exact ⟨y, List.mem_filter.mpr ⟨hy, by rw [hyr]; exact hne⟩, hyr, hyn⟩

theorem Reachable.barrierInv (h : Reachable cfg s) : BarrierInv s :=
  h.of_move .empty fun _ _ _ hi hm hb => hm.barrierInv hi hb

/-! ## Drained barriers -/

theorem Counted.drain_none {batches : List Batch} {x : Barrier} (h : Counted batches x)
    (hs : x.status = .drained) : x.drain = none := by
  have := (h.drained_iff.mp hs).2
  unfold Barrier.drain
  rw [dif_neg (by omega)]

theorem Move.drained_barrier (h : Move cfg op u v) (hk : Keys u) (hb : BarrierInv u) {x : Barrier}
    (hx : x ∈ u.barriers) (hs : x.status = .drained) (hop : op ≠ .deleteRun x.runId) :
    x ∈ v.barriers := by
  cases h with
  | ack b token ms now barriers hop hm ho hd =>
    obtain ⟨g, rfl, hg, -⟩ := hd
    have hgx := hg x hx
    split at hgx
    · rw [(hb.counted x hx).drain_none hs] at hgx
      cases hgx
    · rw [← hgx]
      exact List.mem_map_of_mem hx
  | enqueue t run spec jobId rows now artifacts barriers h ht hp =>
    obtain ⟨g, fresh, hbar, -, -, hg⟩ := hp
    have hgx := hg x hx
    split at hgx
    · rw [hs] at hgx
      cases hgx.1
    · subst hbar
      exact List.mem_append_left _ (List.mem_map.mpr ⟨x, hx, hgx⟩)
  | reject t run spec jobId rows now artifacts failure g h ht hf hg =>
    exact (stageBatch_frame ht).barriers ▸ hx
  | openBarrier => exact List.mem_append_left _ hx
  | closeBarrier runId name now barrier hop hr hbar hne =>
    refine mem_updateWhere.mpr ⟨x, hx, if_neg ?_⟩
    rw [decide_eq_true_eq, Prod.mk.injEq]
    rintro hid
    have hget := (getBarrier_some hk.barriers).mpr ⟨hx, hid⟩
    rw [hbar] at hget
    cases hget
    exact hne hs
  | delete runId hdel =>
    refine List.mem_filter.mpr ⟨hx, ?_⟩
    rw [bne_iff_ne]
    exact fun hid => hop (hid ▸ hdel)
  | _ => exact hx

/-- **A drained barrier is the same row until its run is deleted.** -/
theorem drained_persists (hi : Inv s) (hb : BarrierInv s) {x : Barrier} (hx : x ∈ s.barriers)
    (hs : x.status = .drained) (ops : List Op) (hops : .deleteRun x.runId ∉ ops) :
    x ∈ (runOps cfg s ops).barriers := by
  refine (run_of_move (I := fun s => BarrierInv s ∧ x ∈ s.barriers)
    (A := fun op => op ≠ .deleteRun x.runId) hi (fun op u v ha hu hm h => ?_) ⟨hb, hx⟩ ops
    fun op hop he => hops (he ▸ hop)).2
  exact ⟨hm.barrierInv hu h.1, hm.drained_barrier hu.keys h.1 h.2 hs ha⟩

/-- No new producer of a drained barrier is accepted: a call that succeeds returns a stored batch
and changes nothing. -/
theorem enqueue_drained (hk : Keys s) {x : Barrier} (hx : x ∈ s.barriers)
    (hs : x.status = .drained) {spec : BatchSpec} (hn : x.name ∈ spec.producedBarriers)
    {files : Files} {free : Int} {now : Time} {r : Reply}
    (h : (exec cfg s (.enqueueBatch x.runId spec files free now)).1 = .ok r) :
    ∃ b ∈ s.batches, r = .batch (some b) ∧
      step cfg s (.enqueueBatch x.runId spec files free now) = s := by
  cases he : enqueueBatch cfg s x.runId spec files free now with
  | error e =>
    simp only [exec, he, enqueueReply] at h
    cases h
  | ok p =>
    obtain ⟨⟨b, failure⟩, t⟩ := p
    simp only [step, exec, he] at h ⊢
    obtain ⟨run, hmem, hid, -, ⟨b', hb', hr, rfl⟩ | ⟨-, -, rows, -, hins⟩⟩ := enqueueBatch_inv he
    · cases hr
      simp only [enqueueReply] at h
      cases h
      exact ⟨_, (getBatch_mem hb').1, rfl, rfl⟩
    · cases failure with
      | cons e es =>
        simp only [enqueueReply] at h
        cases h
      | nil =>
        -- an accepted producer needs the barrier open
        obtain ⟨g, fresh, -, -, -, hg⟩ := insertBatch_accepted hk hins
        have hgx := hg x hx
        rw [if_pos ⟨hid.symm, mem_sortedSet.mpr hn⟩, hs] at hgx
        cases hgx.1

/-! ## The gate -/

/-- What holds of a barrier that the batch leased by `op` requires. -/
structure Gate (cfg : Config) (s : SQLiteJournal) (op : Op) (runId name : String) : Prop where
  /-- it is drained, when the call selects the batch and when it returns -/
  drained : ∃ x ∈ s.barriers, x.runId = runId ∧ x.name = name ∧ x.status = .drained ∧
    x ∈ (step cfg s op).barriers
  /-- every producer is done by then -/
  done : ∀ c ∈ s.batches ++ (step cfg s op).batches, c.runId = runId → name ∈ c.producedBarriers →
    c.status = .done
  /-- afterwards and until the run is purged, no new producer is accepted -/
  closed : ∀ ops, .deleteRun runId ∉ ops → ∀ spec files free now r, name ∈ spec.producedBarriers →
    (exec cfg (runOps cfg s (op :: ops)) (.enqueueBatch runId spec files free now)).1 = .ok r →
    ∃ b ∈ (runOps cfg s (op :: ops)).batches, r = .batch (some b) ∧
      step cfg (runOps cfg s (op :: ops)) (.enqueueBatch runId spec files free now) =
        runOps cfg s (op :: ops)

theorem done_of_drained (hi : Inv s) (hb : BarrierInv s) {x : Barrier} (hx : x ∈ s.barriers)
    (hs : x.status = .drained) (ha : s.runActive x.runId = true) :
    ∀ c ∈ s.batches, c.runId = x.runId → x.name ∈ c.producedBarriers → c.status = .done := by
  intro c hc hid hn
  have hcount := hb.counted x hx
  have heq := (hcount.drained_iff.mp hs).2
  rw [hcount.produced, hcount.drained] at heq
  obtain ⟨r, hr, hrid⟩ := hi.owner c hc
  have hclean := (hi.runs r hr).clean (active_of_runActive hi.keys hr (by rw [hrid, hid]; exact ha))
    c hc hrid.symm
  have hrej : c.rejected = false := by
    -- a rejected batch is blocked, and an active run has none
    by_contra hne
    have hbl := (hi.valid c hc).detail ((Bool.not_eq_false _).mp hne)
    simp [hbl, BatchStatus.final] at hclean
  have hall := all_of_countP_eq (p := produces x.runId x.name)
    (q := fun c => produces x.runId x.name c && c.status == .done)
    (fun b h => (Bool.and_eq_true _ _ ▸ h).1) heq.symm c hc ((produces_iff hrej _ _).mpr ⟨hid, hn⟩)
  simp only [Bool.and_eq_true, beq_iff_eq] at hall
  exact hall.2

/-- **The barrier gate**: in every reachable state the barriers count the producers of their run,
and a batch is leased for execution only behind drained barriers whose producers are done and stay
the only ones. -/
theorem barrier_gate (h : Reachable cfg s) :
    (∀ x ∈ s.barriers, Counted s.batches x) ∧
    ∀ op jobId, leasedJob cfg s op = some jobId →
      ∃ b ∈ s.batches, b.jobId = jobId ∧ ∀ n ∈ b.requiredBarriers, Gate cfg s op b.runId n := by
  have hi := h.inv
  have hb := h.barrierInv
  refine ⟨hb.counted, fun op jobId hl => ?_⟩
  obtain ⟨b, b', hlease, hj⟩ := leasedJob_inv hl
  refine ⟨b, hlease.mem, hj, fun n hn => ?_⟩
  have hdr := hlease.drained
  simp only [SQLiteJournal.barriersDrained, List.all_eq_true] at hdr
  have hdn := hdr n hn
  split at hdn
  · rename_i x hget
    obtain ⟨hx, hxr, hxn⟩ := (getBarrier_some hi.keys.barriers).mp hget
    have hs : x.status = .drained := by simpa using hdn
    have hdone := done_of_drained hi hb hx hs (hxr ▸ hlease.active)
    rw [hxr, hxn] at hdone
    refine ⟨⟨x, hx, hxr, hxn, hs, hlease.barriers ▸ hx⟩, fun c hc hid hnc => ?_,
      fun ops hops spec files free now r hspec hr => ?_⟩
    · rcases List.mem_append.mp hc with hc | hc
      · exact hdone c hc hid hnc
      · -- the claim inserts nothing, and leaves the done rows alone
        obtain ⟨token, leaseUntil, hop, -⟩ := hlease.lease
        rcases row_backward hi op hc with ⟨d, hd, hchain⟩ | ⟨-, -, -, _, _, _, _, henq⟩
        · have hcore := RowChain.core hchain
          rw [hcore] at hid hnc
          have hdd := hdone d hd hid hnc
          rw [RowChain.eq_of_final hchain (by rw [hdd]; rfl)]
          exact hdd
        · rw [henq] at hop
          cases hop
    · have hxl : x ∈ (runOps cfg s (op :: ops)).barriers := by
        refine drained_persists (step_inv hi op) ?_ (hlease.barriers ▸ hx) hs ops (hxr ▸ hops)
        exact step_of_move hi op (fun u v hu hm => hm.barrierInv hu) hb
      rw [← hxr] at hr ⊢
      exact enqueue_drained (run_inv cfg hi (op :: ops)).keys hxl hs (hxn ▸ hspec) hr
  · cases hdn

/-- A batch that produces a barrier, and one that waits for it. -/
def sampleGate : List Op :=
  [.openRun (sampleMetadata "g1") 0 0 1000000000 0,
    .enqueueBatch sampleRunId
      { sampleSpec 0 with
        producedBarriers := ["nodes"], barriers_named := by decide, barriers_disjoint := by decide }
      sampleFiles 1000000000 0,
    .enqueueBatch sampleRunId
      { sampleSpec 1 with
        requiredBarriers := ["nodes"], barriers_named := by decide, barriers_disjoint := by decide }
      sampleFiles 1000000000 0,
    .claimJob (sampleJobId 0) 60 "a1" 0,
    .closeBarrier sampleRunId "nodes" 0,
    .ackBatch (sampleJobId 0) "a1" none 0]

theorem barrier_gate_sample :
    leasedJob sampleConfig (runOps sampleConfig .empty sampleGate)
        (.claimBatch none 60 "b2" 0) = some (sampleJobId 1) ∧
      ∃ b ∈ (runOps sampleConfig .empty sampleGate).batches, b.jobId = sampleJobId 1 ∧
        ∀ n ∈ b.requiredBarriers,
          Gate sampleConfig (runOps sampleConfig .empty sampleGate) (.claimBatch none 60 "b2" 0)
            b.runId n := by
  have h : leasedJob sampleConfig (runOps sampleConfig .empty sampleGate)
      (.claimBatch none 60 "b2" 0) = some (sampleJobId 1) := by decide +kernel
  exact ⟨h, (barrier_gate ⟨_, rfl⟩).2 _ _ h⟩

end CortexHarness.Journal
