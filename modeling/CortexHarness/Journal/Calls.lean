import CortexHarness.Journal.Moves

/-!
# Every call is a sequence of moves

One lemma per method, and `exec_moves` over all of them. The two barrier loops are inverted as a
whole: under distinct names each of them changes every named barrier once.
-/

namespace CortexHarness.Journal

open Table Relation

variable {cfg : Config} {op : Op} {s t : SQLiteJournal}

/-! ## The barrier loops -/

theorem getBarrier_some (hk : Keyed (fun b : Barrier => (b.runId, b.name)) s.barriers)
    {runId name : String} {x : Barrier} :
    s.getBarrier runId name = some x ↔ x ∈ s.barriers ∧ x.runId = runId ∧ x.name = name := by
  unfold SQLiteJournal.getBarrier
  rw [lookup_eq_some hk, Prod.mk.injEq]

section Loops

variable {runId name : String} {names : List String} {bs bs' : List Barrier}

/-- The row a barrier loop selects. -/
theorem mem_cons_iff_of_ne {x : Barrier} (hx : ¬ (x.runId = runId ∧ x.name = name)) :
    x.runId = runId ∧ x.name ∈ name :: names ↔ x.runId = runId ∧ x.name ∈ names := by
  rw [List.mem_cons]
  constructor
  · rintro ⟨hr, he | hm⟩
    · exact absurd ⟨hr, he⟩ hx
    · exact ⟨hr, hm⟩
  · exact fun h => ⟨h.1, .inr h.2⟩

/-- A first producer inserts its barrier; the rest of the loop does not touch it. -/
theorem Produced.insert (hname : name ∉ names)
    (hno : ∀ x ∈ bs, ¬ (x.runId = runId ∧ x.name = name))
    (h : Produced runId names (bs ++ [newBarrier runId name 1]) bs') :
    Produced runId (name :: names) bs bs' := by
  obtain ⟨g, fresh, rfl, hnd, hfresh, hg⟩ := h
  have hnew := hg (newBarrier runId name 1) (List.mem_append_right _ List.mem_cons_self)
  rw [if_neg fun hc => hname hc.2] at hnew
  refine ⟨g, name :: fresh, by simp [hnew], ?_, fun n => ?_, fun x hx => ?_⟩
  · exact List.nodup_cons.mpr ⟨fun hc => hname ((hfresh name).mp hc).1, hnd⟩
  · rw [List.mem_cons, List.mem_cons, hfresh n]
    constructor
    · rintro (rfl | ⟨h1, h2⟩)
      · exact ⟨.inl rfl, hno⟩
      · exact ⟨.inr h1, fun x hx => h2 x (List.mem_append_left _ hx)⟩
    · rintro ⟨rfl | h1, h2⟩
      · exact .inl rfl
      · refine .inr ⟨h1, fun x hx hc => ?_⟩
        rcases List.mem_append.mp hx with hx | hx
        · exact h2 x hx hc
        · rw [List.mem_singleton.mp hx] at hc
          have he : name = n := hc.2
          exact hname (he ▸ h1)
  · have hgx := hg x (List.mem_append_left _ hx)
    rw [if_congr (mem_cons_iff_of_ne (hno x hx)) rfl rfl]
    exact hgx

theorem Produced.update (hk : Keyed (fun b : Barrier => (b.runId, b.name)) bs)
    (hname : name ∉ names) {barrier : Barrier} (hb : barrier ∈ bs) (hr : barrier.runId = runId)
    (hn : barrier.name = name) (hopen : barrier.status = .opened)
    (h : Produced runId names (updateWhere
      (fun x => decide ((x.runId, x.name) = (runId, name))) Barrier.produce bs) bs') :
    Produced runId (name :: names) bs bs' := by
  obtain ⟨g, fresh, rfl, hnd, hfresh, hg⟩ := h
  let f : Barrier → Barrier := fun x =>
    if decide ((x.runId, x.name) = (runId, name)) then x.produce else x
  have hf : ∀ x, (f x).runId = x.runId ∧ (f x).name = x.name := by
    intro x
    simp only [f]
    split <;> exact ⟨rfl, rfl⟩
  refine ⟨g ∘ f, fresh, by simp [updateWhere, f], hnd, fun n => ?_, fun x hx => ?_⟩
  · rw [hfresh n, List.mem_cons]
    constructor
    · rintro ⟨h1, h2⟩
      refine ⟨.inr h1, fun x hx hc => h2 (f x) (List.mem_map_of_mem hx) ?_⟩
      rwa [(hf x).1, (hf x).2]
    · rintro ⟨rfl | h1, h2⟩
      · exact absurd ⟨hr, hn⟩ (h2 barrier hb)
      · refine ⟨h1, fun x hx hc => ?_⟩
        obtain ⟨y, hy, rfl⟩ := List.mem_map.mp hx
        exact h2 y hy ⟨(hf y).1 ▸ hc.1, (hf y).2 ▸ hc.2⟩
  · have hgx := hg (f x) (List.mem_map_of_mem hx)
    rw [(hf x).1, (hf x).2] at hgx
    by_cases hx' : x.runId = runId ∧ x.name = name
    · have hxb : x = barrier := eq_of_keyed hk hx hb (by rw [hx'.1, hx'.2, hr, hn])
      rw [if_neg fun hc => hname (hx'.2 ▸ hc.2)] at hgx
      rw [if_pos ⟨hx'.1, by rw [hx'.2]; exact List.mem_cons_self⟩]
      refine ⟨hxb ▸ hopen, ?_⟩
      rw [Function.comp, hgx]
      simp [f, hx'.1, hx'.2]
    · have hfx : f x = x := by
        simp only [f, Prod.mk.injEq, decide_eq_true_eq]
        rw [if_neg hx']
      rw [if_congr (mem_cons_iff_of_ne hx') rfl rfl, Function.comp]
      rwa [hfx] at hgx ⊢

/-- An acknowledgement is counted on the row of its barrier. -/
theorem Drained.update (hk : Keyed (fun b : Barrier => (b.runId, b.name)) bs)
    (hname : name ∉ names) {barrier drained : Barrier} (hb : barrier ∈ bs)
    (hr : barrier.runId = runId) (hn : barrier.name = name) (hd : barrier.drain = some drained)
    (h : Drained runId names (updateWhere
      (fun x => decide ((x.runId, x.name) = (runId, name))) (fun _ => drained) bs) bs') :
    Drained runId (name :: names) bs bs' := by
  obtain ⟨g, rfl, hg, hpresent⟩ := h
  obtain ⟨hdr, hdn⟩ := drain_key hd
  let f : Barrier → Barrier := fun x =>
    if decide ((x.runId, x.name) = (runId, name)) then drained else x
  have hf : ∀ x, (f x).runId = x.runId ∧ (f x).name = x.name := by
    intro x
    simp only [f, Prod.mk.injEq, decide_eq_true_eq]
    split
    · rename_i hx
      rw [hdr, hdn, hr, hn, hx.1, hx.2]
      exact ⟨rfl, rfl⟩
    · exact ⟨rfl, rfl⟩
  refine ⟨g ∘ f, by simp [updateWhere, f], fun x hx => ?_, fun n hmem => ?_⟩
  · have hgx := hg (f x) (List.mem_map_of_mem hx)
    rw [(hf x).1, (hf x).2] at hgx
    by_cases hx' : x.runId = runId ∧ x.name = name
    · have hxb : x = barrier := eq_of_keyed hk hx hb (by rw [hx'.1, hx'.2, hr, hn])
      rw [if_neg fun hc => hname (hx'.2 ▸ hc.2)] at hgx
      rw [if_pos ⟨hx'.1, by rw [hx'.2]; exact List.mem_cons_self⟩, Function.comp, hgx, hxb, hd]
      simp [f, hr, hn]
    · have hfx : f x = x := by
        simp only [f, Prod.mk.injEq, decide_eq_true_eq]
        rw [if_neg hx']
      rw [if_congr (mem_cons_iff_of_ne hx') rfl rfl, Function.comp]
      rwa [hfx] at hgx ⊢
  · rcases List.mem_cons.mp hmem with rfl | hmem
    · exact ⟨barrier, hb, hr, hn⟩
    · obtain ⟨x, hx, hxr, hxn⟩ := hpresent n hmem
      obtain ⟨y, hy, rfl⟩ := List.mem_map.mp hx
      exact ⟨y, hy, (hf y).1 ▸ hxr, (hf y).2 ▸ hxn⟩

end Loops

/-- The loop of `enqueue_batch` over distinct names. -/
theorem produceBarriers_inv {runId : String} {names : List String} (hn : names.Nodup)
    (hk : Keyed (fun b : Barrier => (b.runId, b.name)) s.barriers)
    (h : produceBarriers runId s names = .ok t) :
    ∃ bs, t = { s with barriers := bs } ∧ Produced runId names s.barriers bs := by
  induction names generalizing s with
  | nil =>
    simp only [produceBarriers, Except.ok.injEq] at h
    exact ⟨s.barriers, h.symm, id, [], by simp, List.nodup_nil, by simp, by simp⟩
  | cons name names ih =>
    obtain ⟨hname, hn⟩ := List.nodup_cons.mp hn
    simp only [produceBarriers] at h
    split at h
    · rename_i hb
      have hno := getBarrier_none.mp hb
      obtain ⟨bs, rfl, hp⟩ := ih hn
        (hk.append_singleton fun x hx he => hno x hx (Prod.mk.inj he)) h
      exact ⟨bs, rfl, hp.insert hname hno⟩
    · rename_i barrier hb
      obtain ⟨hbm, hbr, hbn⟩ := (getBarrier_some hk).mp hb
      split at h
      · rename_i hopen
        obtain ⟨bs, rfl, hp⟩ := ih hn (Keyed.updateWhere (f := Barrier.produce) hk fun _ => rfl) h
        exact ⟨bs, rfl, hp.update hk hname hbm hbr hbn hopen⟩
      · cases h

/-- The loop of `ack_batch` over distinct names. -/
theorem drainBarriers_inv {runId : String} {now : Time} {names : List String} (hn : names.Nodup)
    (hk : Keyed (fun b : Barrier => (b.runId, b.name)) s.barriers)
    (h : drainBarriers runId now s names = .ok t) :
    ∃ bs es, t = { s with barriers := bs, events := s.events ++ es } ∧
      Drained runId names s.barriers bs := by
  induction names generalizing s with
  | nil =>
    simp only [drainBarriers, Except.ok.injEq] at h
    exact ⟨s.barriers, [], by simp [h], id, by simp, by simp, by simp⟩
  | cons name names ih =>
    obtain ⟨hname, hn⟩ := List.nodup_cons.mp hn
    simp only [drainBarriers] at h
    split at h
    · cases h
    · rename_i barrier hb
      obtain ⟨hbm, hbr, hbn⟩ := (getBarrier_some hk).mp hb
      split at h
      · cases h
      · rename_i drained hd
        have hk' : Keyed (fun b : Barrier => (b.runId, b.name)) (updateWhere
            (fun x => decide ((x.runId, x.name) = (runId, name))) (fun _ => drained)
            s.barriers) := by
          refine hk.map fun x _ => ?_
          split
          · rename_i hx
            rw [(drain_key hd).1, (drain_key hd).2, hbr, hbn]
            exact (of_decide_eq_true hx).symm
          · rfl
        split at h
        · obtain ⟨bs, es, rfl, hp⟩ := ih hn hk' h
          exact ⟨bs, _, by simp [SQLiteJournal.addEvent, SQLiteJournal.updateBarrier]; rfl,
            hp.update hk hname hbm hbr hbn hd⟩
        · obtain ⟨bs, es, rfl, hp⟩ := ih hn hk' h
          exact ⟨bs, es, rfl, hp.update hk hname hbm hbr hbn hd⟩

/-! ## Claims -/

theorem firstInOrder_mem {selected : Batch → Bool} {b : Batch}
    (h : firstInOrder s selected = some b) : b ∈ s.batches ∧ selected b = true := by
  unfold firstInOrder at h
  have hm := List.mem_of_mem_head? h
  rw [(List.perm_insertionSort _ _).mem_iff] at hm
  exact List.mem_filter.mp hm

theorem getBatch_mem {jobId : String} {b : Batch} (h : s.getBatch jobId = some b) :
    b ∈ s.batches ∧ b.jobId = jobId := by
  have h' : lookup (fun b : Batch => b.jobId) jobId s.batches = some b := h
  have hj := lookup_key h'
  exact ⟨lookup_mem h', hj⟩

theorem getBatch_filter {jobId : String} {selected : Batch → Bool} {b : Batch}
    (h : (s.getBatch jobId).filter selected = some b) : b ∈ s.batches ∧ selected b = true := by
  rw [Option.filter_eq_some_iff] at h
  exact ⟨(getBatch_mem h.1).1, h.2⟩

theorem claim_moves {select : SQLiteJournal → Option Batch} {f : String → Time → Batch → Batch}
    {eventType : EventType} {leaseSeconds : Int} {token : String} {now : Time} {r : Option Batch}
    (hk : Keys s)
    (hf : ∀ u b leaseUntil, select u = some b →
      b ∈ u.batches ∧ RowMove op u b (f token leaseUntil b))
    (h : claim s select f eventType leaseSeconds token now = .ok (r, t)) : Moves cfg op s t := by
  unfold claim at h
  split at h
  · cases h
  · have hrec : Moves cfg op s (recoverExpiredLocked s now).2 := recoverExpiredLocked_moves s now
    simp only at h
    split at h
    · cases h
      exact hrec
    · rename_i row hrow
      cases h
      obtain ⟨hmem, hmove⟩ := hf _ row _ hrow
      exact Moves.addEvent (hrec.tail (.updateBatch (Moves.keys hrec hk) hmem hmove)) _

section Fenced

variable {jobId token : String} {now : Time} {b : Batch}

/-- `_owned_transition`, inverted. -/
theorem ownedTransition_inv (h : ownedTransition s jobId token now = .ok b) :
    b ∈ s.batches ∧ b.jobId = jobId ∧ b.ownedBy token now = true := by
  unfold ownedTransition at h
  split at h
  · rename_i x hx
    split at h
    · cases h
      exact ⟨(getBatch_mem hx).1, (getBatch_mem hx).2, ‹_›⟩
    · cases h
  · cases h

/-- `_owned_lease`, inverted. -/
theorem ownedLease_inv (h : ownedLease s jobId token now = .ok b) :
    b ∈ s.batches ∧ b.jobId = jobId ∧ b.status = .leased ∧ b.ownedBy token now = true := by
  unfold ownedLease at h
  split at h
  · rename_i x hx
    split at h
    · rename_i hc
      cases h
      exact ⟨(getBatch_mem hx).1, (getBatch_mem hx).2, hc.1, hc.2⟩
    · cases h
  · cases h

theorem fail_moves (hk : Keys s) (hb : b ∈ s.batches)
    (hop : op.fence = some (b.jobId, token) ∧ op.clock = some now)
    (ho : b.ownedBy token now = true) {f : Batch → Batch} (hf : Terminal b (f b)) (e : Event)
    {status : RunStatus} (hs : status = .blocked ∨ status = .deadLettered)
    (code : TerminalErrorCode) :
    Moves cfg op s
      (setRunError cfg ((s.updateBatch b.jobId f).addEvent e) b.runId status code now) := by
  have hrow : updateWhere (fun x => decide (x.jobId = b.jobId)) f s.batches =
      updateWhere (fun x => decide (x.jobId = b.jobId)) (fun _ => f b) s.batches := by
    refine List.map_congr_left fun x hx => ?_
    by_cases hj : x.jobId = b.jobId
    · rw [hk.batch_eq hx hb hj]
    · simp [hj]
  have hm : Move cfg op s _ := .fail s b (f b) token now
    (errorRow cfg status code now) hop hb ho hf fun r => ⟨rfl, rfl, hs⟩
  refine ReflTransGen.tail (.single hm) ?_
  rw [← hrow]
  exact .log _ [_]

end Fenced

theorem claimable_row {u : SQLiteJournal} {b : Batch} {now leaseUntil : Time} {token : String}
    (hop : op.leaseToken = some token) (h : claimable u now b = true) :
    RowMove op u b (leaseBatch token leaseUntil b) := by
  simp only [claimable, Bool.and_eq_true] at h
  exact .lease hop h.1.1.1 h.1.2 h.2

theorem reconcilable_row {u : SQLiteJournal} {b : Batch} {now leaseUntil : Time} {token : String}
    (hop : op.readbackToken = some token) (h : reconcilable u now b = true) :
    RowMove op u b (leaseReconciliation token leaseUntil b) := by
  simp only [reconcilable, Bool.and_eq_true, beq_iff_eq, Option.isNone_iff_eq_none] at h
  exact .readback hop h.1.1.1 h.1.1.2 h.2

/-! ## Run transitions -/

theorem runStatus_eq {runId : String} {status : RunStatus} (hk : Keys s) :
    s.runStatus runId = some status ↔ ∃ r ∈ s.runs, r.runId = runId ∧ r.status = status := by
  simp only [SQLiteJournal.runStatus, SQLiteJournal.getRun, Option.map_eq_some_iff,
    lookup_eq_some hk.runs, and_assoc]

theorem refreshRunStatus_moves {runId : String} {now : Time} (h : Moves cfg op s t) :
    Moves cfg op s (refreshRunStatus cfg t runId now) := by
  unfold refreshRunStatus
  split
  · rename_i hc
    obtain ⟨hr, hp, hb⟩ := hc
    refine Moves.addEvent (h.tail (.drain t runId (drainedRow cfg now) hr hp
      (fun b hbm hbr => ?_) fun r => ⟨rfl, rfl, rfl⟩)) _
    have := List.countP_eq_zero.mp hb b hbm
    simpa [hbr] using this
  · exact h

theorem quarantineRun_moves {runId detail : String} {now : Time} (h : Moves cfg op s t)
    (ha : t.runActive runId = true) : Moves cfg op s (quarantineRun cfg t runId detail now) := by
  have hm : Move cfg op t _ :=
    .quarantine t runId (quarantinedRow cfg detail now) ha fun r => ⟨rfl, rfl, rfl⟩
  exact (h.tail hm).tail (.log _ [_])

theorem quarantineRun_active {runId runId' detail : String} {now : Time} (hne : runId' ≠ runId) :
    (quarantineRun cfg s runId detail now).runActive runId' = s.runActive runId' := by
  have hget : (quarantineRun cfg s runId detail now).getRun runId' = s.getRun runId' := by
    simp only [SQLiteJournal.getRun, quarantineRun, SQLiteJournal.addEvent,
      SQLiteJournal.updateRun]
    rw [lookup_updateWhere (f := quarantinedRow cfg detail now) fun _ => rfl]
    cases hl : lookup Run.runId runId' s.runs with
    | none => rfl
    | some r => simp [lookup_key hl, hne]
  simp only [SQLiteJournal.runActive, SQLiteJournal.runStatus, hget]

theorem quarantineRuns_moves {ids : List String} {detail : String} {now : Time}
    (hn : ids.Nodup) (ha : ∀ id ∈ ids, t.runActive id = true) (h : Moves cfg op s t) :
    Moves cfg op s (ids.foldl (fun u r => quarantineRun cfg u r detail now) t) := by
  induction ids generalizing t with
  | nil => exact h
  | cons id ids ih =>
    obtain ⟨hid, hn⟩ := List.nodup_cons.mp hn
    refine ih hn (fun id' hid' => ?_) (quarantineRun_moves h (ha id List.mem_cons_self))
    have hne : id' ≠ id := fun he => hid (he ▸ hid')
    rw [quarantineRun_active hne]
    exact ha id' (List.mem_cons_of_mem _ hid')

theorem quarantineRuns_runs (ids : List String) (detail : String) (now : Time)
    (s : SQLiteJournal) :
    (ids.foldl (fun u r => quarantineRun cfg u r detail now) s).runs =
      s.runs.map fun r => if r.runId ∈ ids then quarantinedRow cfg detail now r else r := by
  induction ids generalizing s with
  | nil => simp
  | cons id ids ih =>
    rw [List.foldl_cons, ih]
    simp only [quarantineRun, SQLiteJournal.addEvent, SQLiteJournal.updateRun, updateWhere,
      List.map_map]
    refine List.map_congr_left fun r _ => ?_
    by_cases hr : r.runId = id
    · simp [hr, quarantinedRow]
    · simp [hr]

theorem active_ids (hk : Keys s) (p : Run → Bool) (hp : ∀ r, p r = true → r.status.active = true) :
    ((s.runs.filter p).map Run.runId).Nodup ∧
      ∀ id ∈ (s.runs.filter p).map Run.runId, s.runActive id = true := by
  refine ⟨hk.runs.filter p, fun id hid => ?_⟩
  obtain ⟨r, hr, rfl⟩ := List.mem_map.mp hid
  obtain ⟨hr, hpr⟩ := List.mem_filter.mp hr
  have : s.getRun r.runId = some r := (lookup_eq_some hk.runs).mpr ⟨hr, rfl⟩
  simp [SQLiteJournal.runActive, SQLiteJournal.runStatus, this, hp r hpr]

theorem openRun_moves {metadata : RunMetadata} {items bytes free : Int} {now : Time} {r : Run}
    (hop : op = .openRun metadata items bytes free now) (hk : Keys s)
    (h : openRun cfg s metadata items bytes free now = .ok (r, t)) : Moves cfg op s t := by
  unfold openRun at h
  split at h
  · cases h
  · simp only at h
    split at h
    · split at h
      · cases h
      · split at h
        · cases h
        · cases h
          exact Moves.addEvent .refl _
    · rename_i hnone
      cases h
      obtain ⟨hn, ha⟩ := active_ids hk (fun r => r.lane == metadata.lane && r.status.active)
        fun r hr => (Bool.and_eq_true _ _ ▸ hr).2
      refine Moves.addEvent (ReflTransGen.tail (quarantineRuns_moves hn ha .refl)
        (.insertRun _ _ items bytes free now hop rfl ?_ rfl ?_)) _
      · refine getRun_none.mpr fun r hr => ?_
        rw [quarantineRuns_runs] at hr
        obtain ⟨r₀, hr₀, rfl⟩ := List.mem_map.mp hr
        have := getRun_none.mp hnone r₀ hr₀
        split <;> exact this
      · intro r hr hl
        rw [quarantineRuns_runs] at hr
        obtain ⟨r₀, hr₀, rfl⟩ := List.mem_map.mp hr
        split
        · rfl
        · rename_i hid
          by_contra hact
          rw [if_neg hid] at hl
          refine hid (List.mem_map.mpr ⟨r₀, List.mem_filter.mpr ⟨hr₀, ?_⟩, rfl⟩)
          have hl' : r₀.lane = metadata.lane := hl
          simp [hl', hact]

theorem quarantineLegacyTargets_moves (metadata : RunMetadata) (targets : List String) (now : Time)
    (hk : Keys s) : Moves cfg op s (quarantineLegacyTargets cfg s metadata targets now).2 := by
  obtain ⟨hn, ha⟩ := active_ids hk (fun r =>
    r.metadata.projectId == metadata.projectId && r.metadata.scopeId == metadata.scopeId &&
      r.metadata.parser == metadata.parser &&
      (legacyTargets metadata targets).contains r.metadata.physicalTarget && r.status.active)
    fun r hr => (Bool.and_eq_true _ _ ▸ hr).2
  exact quarantineRuns_moves hn ha .refl

theorem closeRunProduction_moves {runId : String} {now : Time} {r : Option Run}
    (h : closeRunProduction cfg s runId now = .ok (r, t)) : Moves cfg op s t := by
  unfold closeRunProduction at h
  simp only at h
  split at h
  · rename_i hr
    cases h
    exact refreshRunStatus_moves
      (.single (.closeProduction s runId (drainingRow now) hr fun _ => ⟨rfl, rfl, rfl⟩))
  · cases h
    exact refreshRunStatus_moves .refl
  · cases h
    exact refreshRunStatus_moves .refl
  · cases h

/-! ## Batches and barriers -/

theorem referenceArtifact_inv {runId : String} {ref : ArtifactRef}
    (h : referenceArtifact s runId ref = .ok t) : ∃ as, t = { s with artifacts := as } := by
  unfold referenceArtifact at h
  split at h
  · cases h
    exact ⟨_, rfl⟩
  · split at h
    · cases h
    · cases h
      exact ⟨_, rfl⟩

/-- A new batch is accepted or refused for its manifest. -/
theorem insertBatch_moves {run : Run} {spec : BatchSpec} {jobId : String} {rows : List Json}
    {now : Time} {r : Batch × List (String × Nat)} (hk : Keys s)
    (ha : Admitted cfg s op run spec jobId now)
    (h : insertBatch cfg s run spec jobId rows now = .ok (r, t)) : Moves cfg op s t := by
  unfold insertBatch at h
  split at h
  · cases h
  · rename_i u hu
    obtain ⟨artifacts, rfl⟩ := referenceArtifact_inv hu
    simp only at h
    split at h
    · cases h
    · rename_i failure v hv
      have hf := stageBatch_frame hv
      split at h
      · rename_i hnil
        subst hnil
        split at h
        · cases h
        · rename_i w hw
          cases h
          have hkv : Keyed (fun b : Barrier => (b.runId, b.name)) v.barriers :=
            hf.barriers ▸ hk.barriers
          obtain ⟨bs, rfl, hp⟩ := produceBarriers_inv (nodup_sortedSet _) hkv hw
          rw [hf.barriers] at hp
          exact Moves.addEvent (.single (.enqueue s v run spec jobId rows now artifacts bs ha hv hp)) _
      · rename_i hne
        cases h
        have hrow : updateWhere (fun b => decide (b.jobId = jobId))
            (rejectBatch (failureDetail failure)) v.batches =
            s.batches ++ [rejectBatch (failureDetail failure) (spec.batch run.runId jobId now)] := by
          rw [hf.batches]
          simp only [updateWhere, List.map_append, List.map_singleton]
          congr 1
          · refine (List.map_congr_left fun b hb => ?_).trans (List.map_id _)
            simp [getBatch_none.mp ha.fresh b hb]
          · simp [BatchSpec.batch]
        have hm : Move cfg op s _ := .reject s v run spec jobId rows now artifacts failure
          (errorRow cfg .blocked .invalidContract now) ha hv hne fun _ => ⟨rfl, rfl, rfl⟩
        rw [← hrow] at hm
        have hruns : v.runs = s.runs := hf.runs
        rw [← hruns] at hm
        exact Moves.addEvent (.single hm) _

theorem insertBatch_accepted {run : Run} {spec : BatchSpec} {jobId : String} {rows : List Json}
    {now : Time} {b : Batch} (hk : Keys s)
    (h : insertBatch cfg s run spec jobId rows now = .ok ((b, []), t)) :
    Produced run.runId (sortedSet spec.producedBarriers) s.barriers t.barriers := by
  unfold insertBatch at h
  split at h
  · cases h
  · rename_i u hu
    obtain ⟨artifacts, rfl⟩ := referenceArtifact_inv hu
    simp only at h
    split at h
    · cases h
    · rename_i failure v hv
      have hf := stageBatch_frame hv
      split at h
      · split at h
        · cases h
        · rename_i w hw
          cases h
          have hkv : Keyed (fun b : Barrier => (b.runId, b.name)) v.barriers :=
            hf.barriers ▸ hk.barriers
          obtain ⟨bs, rfl, hp⟩ := produceBarriers_inv (nodup_sortedSet _) hkv hw
          rwa [hf.barriers] at hp
      · rename_i hne
        cases h
        exact absurd rfl hne

/-- `enqueue_batch`, inverted: a stored batch is returned as it is, or a new one is inserted. -/
theorem enqueueBatch_inv {runId : String} {spec : BatchSpec} {files : Files} {free : Int}
    {now : Time} {r : Batch × List (String × Nat)}
    (h : enqueueBatch cfg s runId spec files free now = .ok (r, t)) :
    ∃ run ∈ s.runs, run.runId = runId ∧ s.productionComplete runId = false ∧
      ((∃ b, s.getBatch (jobIdOf cfg run spec) = some b ∧ r = (b, []) ∧ t = s) ∨
        (s.getBatch (jobIdOf cfg run spec) = none ∧ run.status = .opened ∧
          ∃ rows, readJsonl files spec.artifact = .ok rows ∧
            insertBatch cfg s run spec (jobIdOf cfg run spec) rows now = .ok (r, t))) := by
  unfold enqueueBatch at h
  split at h
  · cases h
  · rename_i run hrun
    refine ⟨run, lookup_mem hrun, lookup_key hrun, ?_⟩
    split at h
    · cases h
    · split at h
      · cases h
      · rename_i rows hrows
        simp only at h
        split at h
        · cases h
        · rename_i hcomplete
          refine ⟨by simpa using hcomplete, ?_⟩
          split at h
          · rename_i b hb
            cases h
            exact .inl ⟨b, hb, rfl, rfl⟩
          · rename_i hfresh
            split at h
            · cases h
            · rename_i hopen
              split at h
              · cases h
              · exact .inr ⟨hfresh, by simpa using hopen, rows, hrows, h⟩

theorem enqueueBatch_moves {runId : String} {spec : BatchSpec} {files : Files} {free : Int}
    {now : Time} {r : Batch × List (String × Nat)}
    (hop : op = .enqueueBatch runId spec files free now) (hk : Keys s)
    (h : enqueueBatch cfg s runId spec files free now = .ok (r, t)) : Moves cfg op s t := by
  obtain ⟨run, hmem, rfl, hcomplete, ⟨b, -, -, rfl⟩ | ⟨hfresh, hopen, rows, -, hins⟩⟩ :=
    enqueueBatch_inv h
  · exact .refl
  · exact insertBatch_moves hk ⟨⟨files, free, hop⟩, hmem, hopen, hcomplete, hfresh, rfl⟩ hins

theorem openBarrier_moves {runId name : String} {now : Time} {r : Barrier}
    (hop : op = .openBarrier runId name now) (h : openBarrier s runId name = .ok (r, t)) :
    Moves cfg op s t := by
  unfold openBarrier at h
  split at h
  · cases h
  · split at h
    · cases h
    · rename_i hr
      split at h
      · cases h
        exact .refl
      · rename_i hn
        cases h
        exact .single (.openBarrier s runId name now hop (by simpa using hr) hn)

theorem closeBarrier_moves {runId name : String} {now : Time} {r : Barrier}
    (hop : op = .closeBarrier runId name now) (h : closeBarrier s runId name now = .ok (r, t)) :
    Moves cfg op s t := by
  unfold closeBarrier at h
  split at h
  · cases h
  · rename_i barrier hb
    split at h
    · cases h
      exact .refl
    · rename_i hs
      split at h
      · cases h
      · rename_i hr
        cases h
        have hm : Moves cfg op s _ :=
          .single (.closeBarrier s runId name now barrier hop (by simpa using hr) hb hs)
        split
        · exact Moves.addEvent hm _
        · exact hm

theorem completeProducers_moves {runId : String} {now : Time} {r : Nat}
    (hop : op = .completeProducers runId now) (h : completeProducers s runId now = .ok (r, t)) :
    Moves cfg op s t := by
  unfold completeProducers at h
  simp only at h
  split at h
  · cases h
  · rename_i hr
    split at h
    · cases h
    · rename_i hc
      split at h
      · cases h
        exact .refl
      · split at h
        · cases h
        · rename_i hm
          cases h
          refine Moves.addEvent (.single (.complete s runId now hop (by simpa using hr) ?_ ?_ ?_)) _
          · omega
          · omega
          · simpa using hm

theorem sealEndpointAudit_moves {runId : String} {digest : Option String} {count rows : Option Int}
    {now : Time} {r : String} (hop : op = .sealEndpointAudit runId digest count rows now)
    (h : sealEndpointAudit cfg s runId digest count rows now = .ok (r, t)) : Moves cfg op s t := by
  unfold sealEndpointAudit at h
  split at h
  · cases h
  · split at h
    · cases h
    · split at h
      · cases h
      · rename_i summary hv
        simp only at h
        split at h
        · split at h
          · cases h
          · cases h
            exact .refl
        · rename_i hnone
          rw [hnone] at hv
          split at h
          · cases h
          · rename_i hd
            split at h
            · cases h
            · cases h
              rw [not_not.mp hd]
              exact .single (.sealAudit s runId summary now ⟨digest, count, rows, hop⟩ hv hnone)

theorem purgeRun_moves {runId : String} {confirmed : Bool} {now : Time} {r : List Artifact}
    (h : purgeRun s runId confirmed now = .ok (r, t)) : Moves cfg op s t := by
  unfold purgeRun at h
  split at h
  · cases h
  · split at h
    · cases h
      exact .refl
    · split at h
      · cases h
      · split at h
        · cases h
        · split at h
          · cases h
          · simp only at h
            split at h
            · cases h
              exact .refl
            · cases h
              exact Moves.addEvent .refl _

/-! ## Fenced transitions -/

section FencedCalls

variable {jobId token : String} {now : Time} {r : Batch}

theorem renewLease_moves {leaseSeconds : Int}
    (hop : op = .renewLease jobId token leaseSeconds now) (hk : Keys s)
    (h : renewLease s jobId token leaseSeconds now = .ok (r, t)) : Moves cfg op s t := by
  unfold renewLease at h
  split at h
  · cases h
  · split at h
    · cases h
    · rename_i row hrow
      obtain ⟨hmem, rfl, hs, ho⟩ := ownedLease_inv hrow
      cases h
      exact .single (.updateBatch hk hmem (.renew hop hs ho))

theorem ackBatch_moves {ms : Option Int} (hop : op = .ackBatch jobId token ms now) (hk : Keys s)
    (h : ackBatch cfg s jobId token ms now = .ok (r, t)) : Moves cfg op s t := by
  unfold ackBatch at h
  split at h
  · cases h
  · rename_i row hrow
    obtain ⟨hmem, rfl, ho⟩ := ownedTransition_inv hrow
    simp only at h
    split at h
    · cases h
    · rename_i u hu
      cases h
      have hkb := hk.barriers
      obtain ⟨bs, es, rfl, hd⟩ := drainBarriers_inv (hk.produced row hmem) (by exact hkb) hu
      have hm : Move cfg op s _ := .ack s row token ms now bs hop hmem ho hd
      exact refreshRunStatus_moves (Moves.addEvent ((ReflTransGen.single hm).tail (.log _ es)) _)

theorem markReconciling_moves {errorCode : Option TerminalErrorCode}
    (hop : op = .markReconciling jobId token errorCode now) (hk : Keys s)
    (h : markReconciling s jobId token errorCode now = .ok (r, t)) : Moves cfg op s t := by
  unfold markReconciling at h
  split at h
  · cases h
  · rename_i row hrow
    obtain ⟨hmem, rfl, hs, ho⟩ := ownedLease_inv hrow
    cases h
    exact Moves.addEvent (.single (.updateBatch hk hmem (.mark hop hs ho))) _

theorem scheduleRetry_moves {retryAt : Time} {retryClass : RetryClass}
    {errorCode : TerminalErrorCode}
    (hop : op = .scheduleRetry jobId token retryAt retryClass errorCode now) (hk : Keys s)
    (h : scheduleRetry cfg s jobId token retryAt retryClass errorCode now = .ok (r, t)) :
    Moves cfg op s t := by
  unfold scheduleRetry at h
  split at h
  · cases h
  · rename_i row hrow
    obtain ⟨hmem, rfl, ho⟩ := ownedTransition_inv hrow
    split at h
    · cases h
      exact fail_moves hk hmem (by rw [hop]; exact ⟨rfl, rfl⟩) ho (.deadLetter le_rfl) _ (.inr rfl) _
    · rename_i ha
      cases h
      exact Moves.addEvent (.single (.updateBatch hk hmem (.retry hop ho (by omega)))) _

theorem scheduleReconciliationRetry_moves {retryAt : Time} {errorCode : TerminalErrorCode}
    (hop : op = .scheduleReconciliationRetry jobId token retryAt errorCode now) (hk : Keys s)
    (h : scheduleReconciliationRetry cfg s jobId token retryAt errorCode now = .ok (r, t)) :
    Moves cfg op s t := by
  unfold scheduleReconciliationRetry at h
  split at h
  · cases h
  · rename_i row hrow
    obtain ⟨hmem, rfl, ho⟩ := ownedTransition_inv hrow
    split at h
    · cases h
    · rename_i hs
      split at h
      · cases h
        exact fail_moves hk hmem (by rw [hop]; exact ⟨rfl, rfl⟩) ho (.deadLetter (Nat.le_succ _)) _ (.inr rfl) _
      · rename_i ha
        cases h
        exact Moves.addEvent (.single (.updateBatch hk hmem
          (.backOff hop ho (not_not.mp hs) (by omega)))) _

theorem blockBatch_moves {retryClass : RetryClass} {errorCode : TerminalErrorCode}
    (hop : op = .blockBatch jobId token retryClass errorCode now) (hk : Keys s)
    (h : blockBatch cfg s jobId token retryClass errorCode now = .ok (r, t)) :
    Moves cfg op s t := by
  unfold blockBatch at h
  split at h
  · cases h
  · rename_i row hrow
    obtain ⟨hmem, rfl, ho⟩ := ownedTransition_inv hrow
    cases h
    exact fail_moves hk hmem (by rw [hop]; exact ⟨rfl, rfl⟩) ho .block _ (.inl rfl) _

end FencedCalls

/-! ## Every call -/

theorem transaction_moves {α : Type} {reply : α → Reply}
    {body : Except Failure (α × SQLiteJournal)}
    (h : ∀ a t, body = .ok (a, t) → Moves cfg op s t) :
    Moves cfg op s (transaction s reply body).2 := by
  unfold transaction
  split
  · exact h _ _ rfl
  · exact .refl

theorem enqueueReply_moves {body : Except Failure ((Batch × List (String × Nat)) × SQLiteJournal)}
    (h : ∀ r t, body = .ok (r, t) → Moves cfg op s t) :
    Moves cfg op s (enqueueReply body s).2 := by
  unfold enqueueReply
  split
  · exact h _ _ rfl
  · exact h _ _ rfl
  · exact .refl

/-- **Every call is a sequence of moves.** -/
theorem exec_moves (hk : Keys s) (op : Op) : Moves cfg op s (step cfg s op) := by
  cases hop : op with
  | openRun metadata items bytes free now =>
    exact transaction_moves fun _ _ h => openRun_moves rfl hk h
  | quarantineLegacyTargets metadata targets now =>
    exact quarantineLegacyTargets_moves metadata targets now hk
  | enqueueBatch runId spec files free now =>
    exact enqueueReply_moves fun _ _ h => enqueueBatch_moves rfl hk h
  | openBarrier runId name now => exact transaction_moves fun _ _ h => openBarrier_moves rfl h
  | closeBarrier runId name now => exact transaction_moves fun _ _ h => closeBarrier_moves rfl h
  | claimBatch runId leaseSeconds token now =>
    refine transaction_moves fun _ _ h => claim_moves hk (fun u b l hb => ?_) h
    obtain ⟨hmem, hc⟩ := firstInOrder_mem hb
    exact ⟨hmem, claimable_row rfl (Bool.and_eq_true _ _ ▸ hc).1⟩
  | claimJob jobId leaseSeconds token now =>
    refine transaction_moves fun _ _ h => claim_moves hk (fun u b l hb => ?_) h
    obtain ⟨hmem, hc⟩ := getBatch_filter hb
    exact ⟨hmem, claimable_row rfl hc⟩
  | claimReconciling runId leaseSeconds token now =>
    refine transaction_moves fun _ _ h => claim_moves hk (fun u b l hb => ?_) h
    obtain ⟨hmem, hc⟩ := firstInOrder_mem hb
    exact ⟨hmem, reconcilable_row rfl (Bool.and_eq_true _ _ ▸ hc).1⟩
  | claimReconcilingJob jobId leaseSeconds token now =>
    refine transaction_moves fun _ _ h => claim_moves hk (fun u b l hb => ?_) h
    obtain ⟨hmem, hc⟩ := getBatch_filter hb
    exact ⟨hmem, reconcilable_row rfl hc⟩
  | renewLease jobId token leaseSeconds now =>
    exact transaction_moves fun _ _ h => renewLease_moves rfl hk h
  | ackBatch jobId token ms now => exact transaction_moves fun _ _ h => ackBatch_moves rfl hk h
  | markReconciling jobId token errorCode now =>
    exact transaction_moves fun _ _ h => markReconciling_moves rfl hk h
  | scheduleRetry jobId token retryAt retryClass errorCode now =>
    exact transaction_moves fun _ _ h => scheduleRetry_moves rfl hk h
  | scheduleReconciliationRetry jobId token retryAt errorCode now =>
    exact transaction_moves fun _ _ h => scheduleReconciliationRetry_moves rfl hk h
  | blockBatch jobId token retryClass errorCode now =>
    exact transaction_moves fun _ _ h => blockBatch_moves rfl hk h
  | completeProducers runId now =>
    exact transaction_moves fun _ _ h => completeProducers_moves rfl h
  | sealEndpointAudit runId digest count rows now =>
    exact transaction_moves fun _ _ h => sealEndpointAudit_moves rfl h
  | closeRunProduction runId now =>
    exact transaction_moves fun _ _ h => closeRunProduction_moves h
  | recoverExpiredLeases now => exact recoverExpiredLocked_moves s now
  | recoverRunLeasesAsAmbiguous runId now => exact recoverRunLeases_moves s runId now
  | purgeRun runId confirmed now => exact transaction_moves fun _ _ h => purgeRun_moves h
  | deleteRun runId => exact .single (.delete s runId rfl)

end CortexHarness.Journal
