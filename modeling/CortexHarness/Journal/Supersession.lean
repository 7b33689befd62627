import CortexHarness.Journal.Replay

/-!
# Superseded runs

Opening a new run in a lane quarantines the active run of that lane, and with it every lease that
is out on it (`open_run`, `sqlite_store.py:920-997`). The loop selects `OPEN` and `DRAINING` runs
only, so a run that one of its batches has already made `BLOCKED` or `DEAD_LETTERED` keeps the
leases of the other batches.

Results:

* `openRun_unfenced`: after `open_run` created a run, no batch of a run it quarantined has a token;
* `holds_run`: a token that no call of a sequence hands out is held after the sequence only by a
  batch that held it before, in the same run;
* `superseded_fenced`: a token handed out before works on another run of the lane only where that
  run had failed before, with the token out;
* `failed_run_keeps_leases`: and there it does.
-/

namespace CortexHarness.Journal

open Table Relation

variable {cfg : Config} {op : Op} {s u v : SQLiteJournal}

/-! ## No run fails -/

theorem RunStep.not_failed {r r' : Run} (h : RunStep op u r r') (hs : r.status ≠ .failed) :
    r'.status ≠ .failed := by
  cases h with
  | keep => exact hs
  | fail _ _ _ _ h => rcases h with h | h <;> rw [h] <;> decide
  | refuse _ _ h => rw [h]; decide
  | quarantine _ _ h => rw [h]; decide
  | closeProduction _ _ h => rw [h]; decide
  | drain _ _ _ _ h => rw [h]; decide

/-- No call writes the status `FAILED`. -/
theorem Reachable.not_failed (h : Reachable cfg s) : ∀ r ∈ s.runs, r.status ≠ .failed := by
  refine h.of_move (I := fun s => ∀ r ∈ s.runs, r.status ≠ .failed) (fun _ h => absurd h
    List.not_mem_nil) fun op u v hu hm ih r' hr' => ?_
  rcases hm.run_backward hu.keys hr' with ⟨r, hr, hs⟩ | ⟨hs, -⟩
  · exact hs.not_failed (ih r hr)
  · rw [hs]
    decide

/-! ## What a new run quarantines -/

/-- The batches of a run are done or have no token. -/
def Unfenced (s : SQLiteJournal) (runId : String) : Prop :=
  ∀ b ∈ s.batches, b.runId = runId → b.status = .done ∨ b.fencingToken = none

theorem quarantineRun_unfenced (s : SQLiteJournal) (runId detail : String) (now : Time) :
    Unfenced (quarantineRun cfg s runId detail now) runId := by
  intro b hb hid
  obtain ⟨x, -, rfl⟩ := mem_updateWhere.mp hb
  split
  · exact .inr rfl
  · rename_i hc
    rw [if_neg hc] at hid
    simp only [hid, beq_self_eq_true, Bool.true_and, bne_iff_ne, not_not] at hc
    exact .inl hc

theorem Unfenced.quarantineRun {runId : String} (h : Unfenced s runId) (id detail : String)
    (now : Time) : Unfenced (quarantineRun cfg s id detail now) runId := by
  intro b hb hid
  obtain ⟨x, hx, rfl⟩ := mem_updateWhere.mp hb
  split
  · exact .inr rfl
  · rename_i hc
    rw [if_neg hc] at hid
    exact h x hx hid

/-- Every run the loop names is without a fenced batch when it ends. -/
theorem quarantineRuns_unfenced {ids : List String} {detail : String} {now : Time} {id : String}
    (h : id ∈ ids ∨ Unfenced s id) :
    Unfenced (ids.foldl (fun u r => quarantineRun cfg u r detail now) s) id := by
  induction ids generalizing s with
  | nil => exact h.resolve_left List.not_mem_nil
  | cons x ids ih =>
    refine ih ?_
    rcases h with h | h
    · rcases List.mem_cons.mp h with rfl | h
      · exact .inr (quarantineRun_unfenced s _ detail now)
      · exact .inl h
    · exact .inr (h.quarantineRun x detail now)

/-- The call `op` is an `open_run` that creates `run`. -/
structure Creates (cfg : Config) (s : SQLiteJournal) (op : Op) (run : Run) : Prop where
  call : ∃ items bytes free now, op = .openRun run.metadata items bytes free now
  fresh : s.getRun run.runId = none
  reply : (exec cfg s op).1 = .ok (.run (some run))

/-- A created run, inverted: it is stored, and no batch of another active run of its lane has a
token any more. -/
theorem openRun_unfenced {run : Run} (h : Creates cfg s op run) {r : Run} (hr : r ∈ s.runs)
    (hl : r.lane = run.lane) (ha : r.status.active = true) :
    Unfenced (step cfg s op) r.runId := by
  obtain ⟨⟨items, bytes, free, now, rfl⟩, hfresh, hreply⟩ := h
  simp only [step, exec] at hreply ⊢
  cases ho : openRun cfg s run.metadata items bytes free now with
  | error e =>
    rw [ho] at hreply
    cases hreply
  | ok p =>
    obtain ⟨run', t⟩ := p
    rw [ho] at hreply
    obtain rfl : run' = run := Option.some.inj (Reply.run.inj (Except.ok.inj hreply))
    simp only [transaction]
    unfold openRun at ho
    split at ho
    · cases ho
    · simp only at ho
      split at ho
      · -- the run was there already
        rename_i existing hex
        split at ho
        · cases ho
        · split at ho
          · cases ho
          · cases ho
            rw [← lookup_key hex, hfresh] at hex
            cases hex
      · obtain ⟨-, rfl⟩ := Prod.mk.inj (Except.ok.inj ho)
        refine quarantineRuns_unfenced (.inl (List.mem_map.mpr ⟨r, List.mem_filter.mpr
          ⟨hr, ?_⟩, rfl⟩))
        simp only [Bool.and_eq_true, beq_iff_eq]
        exact ⟨hl, ha⟩

/-! ## Who holds a token -/

/-- The batch `c` of the run with these metadata holds the token. -/
def Holds (s : SQLiteJournal) (c : BatchCore) (m : RunMetadata) (token : String) : Prop :=
  ∃ b ∈ s.batches, ∃ r ∈ s.runs, b.toBatchCore = c ∧ r.runId = b.runId ∧ r.metadata = m ∧
    b.fencingToken = some token

theorem Move.holds (h : Move cfg op u v) (hi : Inv u) {c : BatchCore} {m : RunMetadata}
    {token : String} (hv : Holds v c m token) : Holds u c m token ∨ op.claimToken = some token := by
  obtain ⟨b', hb', r', hr', rfl, hid, rfl, ht⟩ := hv
  rcases h.batch_backward hi.keys hb' with ⟨b, hb, hs⟩ | ⟨run, spec, jobId, now, -, hn⟩
  · rcases hs.token ht with htok | hclaim
    · refine .inl ?_
      obtain ⟨r₀, hr₀, hid₀⟩ := hi.owner b hb
      have hrun : b'.runId = b.runId := by rw [hs.core]
      rcases h.run_backward hi.keys hr' with ⟨r, hr, hstep⟩ | ⟨-, hnone, -⟩
      · exact ⟨b, hb, r, hr, hs.core.symm, by rw [← hstep.ids.1, hid, hrun], hstep.ids.2.symm,
          htok⟩
      · exact absurd (hid₀.trans (hrun.symm.trans hid.symm)) (getRun_none.mp hnone r₀ hr₀)
    · exact .inr hclaim
  · rcases hn with rfl | ⟨detail, rfl⟩ <;> cases ht

/-- A call that does not hand the token out gives it to nobody. -/
theorem holds_step (hi : Inv s) {c : BatchCore} {m : RunMetadata} {token : String}
    (hop : op.claimToken ≠ some token) (h : Holds (step cfg s op) c m token) :
    Holds s c m token := by
  by_contra hn
  have hn' : ¬ Holds (step cfg s op) c m token := by
    refine step_of_move (I := fun t => ¬ Holds t c m token) hi op (fun u v hu hm hnu hv => ?_) hn
    rcases hm.holds hu hv with hu' | hclaim
    · exact hnu hu'
    · exact hop hclaim
  exact hn' h

/-- **A token that is not handed out on the way is held only by who held it before.** -/
theorem holds_run (hi : Inv s) {c : BatchCore} {m : RunMetadata} {token : String} (ops : List Op)
    (hops : token ∉ ops.filterMap Op.claimToken) (h : Holds (runOps cfg s ops) c m token) :
    Holds s c m token := by
  by_contra hn
  refine (Run.run_invariant (I := fun t => Inv t ∧ ¬ Holds t c m token)
    (A := fun op => op.claimToken ≠ some token) (fun t op ha ht => ?_) ⟨hi, hn⟩ ops
    fun op hop he => ?_).2 h
  · exact ⟨step_inv ht.1 op, fun ho => ht.2 (holds_step ht.1 ha ho)⟩
  · exact hops (List.mem_filterMap.mpr ⟨op, hop, he⟩)

/-! ## The whole -/

theorem held_of_token {b : Batch} {token : String} (hv : b.Valid)
    (ht : b.fencingToken = some token) : b.status.held = true := by
  by_contra hne
  rw [hv.unfenced (by simpa using hne)] at ht
  cases ht

/-- A run that is not active and has a held batch is `BLOCKED` or `DEAD_LETTERED`. -/
theorem failed_of_held (h : Reachable cfg s) {r : Run} (hr : r ∈ s.runs)
    (ha : r.status.active = false) {b : Batch} (hb : b ∈ s.batches) (hid : b.runId = r.runId)
    (hs : b.status.held = true) : r.status = .blocked ∨ r.status = .deadLettered := by
  have hok := h.inv.runs r hr
  cases hst : r.status with
  | blocked => exact .inl rfl
  | deadLettered => exact .inr rfl
  | opened | draining => simp [hst, RunStatus.active] at ha
  | drained =>
    rw [hok.drained hst b hb hid] at hs
    cases hs
  | quarantined =>
    rcases hok.quarantined hst b hb hid with hq | hq <;> rw [hq] at hs <;> cases hs
  | failed => exact absurd hst (h.not_failed r hr)

/-- **A superseded run is fenced.** After `open_run` created a run, a call with a token handed out
before on a batch of another run of the lane raises and changes nothing, unless that run had
already failed and the batch held the token then. -/
theorem superseded_fenced (cfg : Config) (pre post : List Op) {opening : Op} {run : Run}
    (htokens : ((pre ++ opening :: post).filterMap Op.claimToken).Nodup)
    (hnew : Creates cfg (runOps cfg .empty pre) opening run) {r : Run} {b : Batch}
    (hr : r ∈ (runOps cfg .empty (pre ++ opening :: post)).runs) (hlane : r.lane = run.lane)
    (hb : b ∈ (runOps cfg .empty (pre ++ opening :: post)).batches) (hbr : b.runId = r.runId)
    {token : String} (hissued : token ∈ pre.filterMap Op.claimToken) {op : Op}
    (hop : op.fence = some (b.jobId, token)) :
    (∃ e, exec cfg (runOps cfg .empty (pre ++ opening :: post)) op =
        (.error e, runOps cfg .empty (pre ++ opening :: post)) ∧
      (op.argumentsValid = true → e = staleFence b.jobId)) ∨
    ∃ r₀ ∈ (runOps cfg .empty pre).runs, r₀.runId = r.runId ∧ r₀.lane = run.lane ∧
      (r₀.status = .blocked ∨ r₀.status = .deadLettered) ∧
      Stores (runOps cfg .empty pre) b.jobId token := by
  by_cases hst : Stores (runOps cfg .empty (pre ++ opening :: post)) b.jobId token
  · refine .inr ?_
    have h : Reachable cfg (runOps cfg .empty pre) := ⟨pre, rfl⟩
    have hi := h.inv
    have hi' : Inv (runOps cfg .empty (pre ++ opening :: post)) := run_inv cfg .empty _
    rw [List.filterMap_append] at htokens
    have hlater := List.disjoint_of_nodup_append htokens hissued
    have hclaim : opening.claimToken ≠ some token := fun he =>
      hlater (List.mem_filterMap.mpr ⟨opening, List.mem_cons_self, he⟩)
    have hpost : token ∉ post.filterMap Op.claimToken := fun hm =>
      hlater ((List.sublist_cons_self opening post).filterMap _ |>.subset hm)
    -- the batch has held the token since before the new run
    obtain ⟨x, hx, hxj, hxt⟩ := hst
    obtain rfl : x = b := hi'.keys.batch_eq hx hb hxj
    have hold : Holds (runOps cfg .empty (pre ++ opening :: post)) x.toBatchCore r.metadata token :=
      ⟨x, hx, r, hr, rfl, hbr.symm, rfl, hxt⟩
    rw [runOps, Run.run_append, Run.run_cons] at hold
    have hopened := holds_run (step_inv hi opening) post hpost hold
    obtain ⟨b₀, hb₀, r₀, hr₀, hcore, hid, hmeta, ht₀⟩ := holds_step hi hclaim hopened
    have hrun : r₀.runId = r.runId := by
      rw [hid, ← hbr]
      exact congrArg BatchCore.runId hcore
    have hl₀ : r₀.lane = run.lane := by
      rw [Run.lane, hmeta]
      exact hlane
    refine ⟨r₀, hr₀, hrun, hl₀, ?_, b₀, hb₀, congrArg BatchCore.jobId hcore, ht₀⟩
    refine failed_of_held h hr₀ ?_ hb₀ hid.symm (held_of_token (hi.valid b₀ hb₀) ht₀)
    -- an active run would have lost the token to the quarantine
    by_contra ha
    obtain ⟨b₁, hb₁, -, -, hcore₁, -, -, ht₁⟩ := hopened
    have hheld := held_of_token ((step_inv hi opening).valid b₁ hb₁) ht₁
    have hrun₁ : b₁.runId = r₀.runId := by
      rw [hrun, ← hbr]
      exact congrArg BatchCore.runId hcore₁
    rcases openRun_unfenced hnew hr₀ hl₀ (by simpa using ha) b₁ hb₁ hrun₁ with hd | hn
    · exact not_done_of_held hheld hd
    · rw [hn] at ht₁
      cases ht₁
  · exact .inl (fenced_rejected hop hst)

/-! ## A failed run -/

/-- The second generation is opened while the first is there. -/
def sampleOpening : Op := .openRun (sampleMetadata "g2") 0 0 1000000000 0

/-- Open the second generation and find a batch of another run of its lane for which `ok` holds. -/
def findsOther (s : SQLiteJournal) (ok : SQLiteJournal → Batch → Bool) : Bool :=
  match openRun sampleConfig s (sampleMetadata "g2") 0 0 1000000000 0 with
  | .ok (run, t) =>
    run.metadata == sampleMetadata "g2" && (s.getRun run.runId).isNone &&
      t.runs.any fun r => r.lane == run.lane && r.runId != run.runId &&
        t.batches.any fun b => b.runId == r.runId && ok t b
  | .error _ => false

theorem findsOther_inv {ops : List Op} {ok : SQLiteJournal → Batch → Bool}
    (h : findsOther (runOps sampleConfig .empty ops) ok = true) :
    ∃ run, Creates sampleConfig (runOps sampleConfig .empty ops) sampleOpening run ∧
      ∃ r ∈ (runOps sampleConfig .empty (ops ++ [sampleOpening])).runs,
        r.lane = run.lane ∧ r.runId ≠ run.runId ∧
        ∃ b ∈ (runOps sampleConfig .empty (ops ++ [sampleOpening])).batches, b.runId = r.runId ∧
          ok (runOps sampleConfig .empty (ops ++ [sampleOpening])) b = true := by
  unfold findsOther at h
  split at h
  · rename_i run t ho
    have hexec : exec sampleConfig (runOps sampleConfig .empty ops) sampleOpening =
        (.ok (.run (some run)), t) := by
      simp only [exec, sampleOpening, ho, transaction, Function.comp_apply]
    simp only [Bool.and_eq_true, beq_iff_eq, bne_iff_ne, List.any_eq_true,
      Option.isNone_iff_eq_none] at h
    obtain ⟨⟨hm, hn⟩, r, hr, ⟨hl, hne⟩, b, hb, hbr, hok⟩ := h
    have ht : runOps sampleConfig .empty (ops ++ [sampleOpening]) = t := by
      rw [runOps, Run.run_snoc, step, hexec]
    rw [ht]
    exact ⟨run, ⟨⟨0, 0, 1000000000, 0, by rw [hm]; rfl⟩, hn, by rw [hexec]⟩, r, hr, hl, hne, b, hb,
      hbr, hok⟩
  · cases h

/-- A lease on the batch of an open run. -/
def sampleLeased : List Op :=
  [.openRun (sampleMetadata "g1") 0 0 1000000000 0,
    .enqueueBatch sampleRunId (sampleSpec 0) sampleFiles 1000000000 0, .claimBatch none 60 "a1" 0]

theorem superseded_fenced_sample :
    ∃ run r b, Creates sampleConfig (runOps sampleConfig .empty sampleLeased) sampleOpening run ∧
      r ∈ (runOps sampleConfig .empty (sampleLeased ++ [sampleOpening])).runs ∧
      r.lane = run.lane ∧ r.runId ≠ run.runId ∧
      b ∈ (runOps sampleConfig .empty (sampleLeased ++ [sampleOpening])).batches ∧
      b.runId = r.runId ∧
      ((∃ e, exec sampleConfig (runOps sampleConfig .empty (sampleLeased ++ [sampleOpening]))
          (.ackBatch b.jobId "a1" none 0) =
            (.error e, runOps sampleConfig .empty (sampleLeased ++ [sampleOpening])) ∧
          ((Op.ackBatch b.jobId "a1" none 0).argumentsValid = true → e = staleFence b.jobId)) ∨
        ∃ r₀ ∈ (runOps sampleConfig .empty sampleLeased).runs, r₀.runId = r.runId ∧
          r₀.lane = run.lane ∧ (r₀.status = .blocked ∨ r₀.status = .deadLettered) ∧
          Stores (runOps sampleConfig .empty sampleLeased) b.jobId "a1") := by
  have hf : findsOther (runOps sampleConfig .empty sampleLeased) (fun _ _ => true) = true := by
    decide +kernel
  obtain ⟨run, hnew, r, hr, hl, hne, b, hb, hbr, -⟩ := findsOther_inv hf
  exact ⟨run, r, b, hnew, hr, hl, hne, hb, hbr, superseded_fenced sampleConfig sampleLeased []
    (by decide) hnew hr hl hb hbr (by decide) rfl⟩

/-- Two leases, and one of the two batches is blocked. -/
def sampleFailed : List Op :=
  sampleProduction ++ [.claimBatch none 60 "a1" 0, .claimBatch none 60 "b2" 0,
    .blockBatch (sampleJobId 0) "a1" .integrity .invalidContract 0]

/-- **A failed run keeps its leases**: after the second generation was opened, the sibling of the
blocked batch is acknowledged, renewed and retried with the token it got before. -/
theorem failed_run_keeps_leases :
    ((sampleFailed ++ [sampleOpening]).filterMap Op.claimToken).Nodup ∧
    "b2" ∈ sampleFailed.filterMap Op.claimToken ∧
    ∃ run, Creates sampleConfig (runOps sampleConfig .empty sampleFailed) sampleOpening run ∧
      ∃ r ∈ (runOps sampleConfig .empty (sampleFailed ++ [sampleOpening])).runs,
        r.lane = run.lane ∧ r.runId ≠ run.runId ∧
        ∃ b ∈ (runOps sampleConfig .empty (sampleFailed ++ [sampleOpening])).batches,
          b.runId = r.runId ∧
          ∀ op ∈ [Op.ackBatch b.jobId "b2" none 0, .renewLease b.jobId "b2" 60 0,
              .scheduleRetry b.jobId "b2" 0 .transient .diskFull 0],
            (exec sampleConfig (runOps sampleConfig .empty (sampleFailed ++ [sampleOpening]))
              op).1.isOk = true := by
  refine ⟨by decide, by decide, ?_⟩
  have hf : findsOther (runOps sampleConfig .empty sampleFailed) (fun t b =>
      [Op.ackBatch b.jobId "b2" none 0, .renewLease b.jobId "b2" 60 0,
        .scheduleRetry b.jobId "b2" 0 .transient .diskFull 0].all fun op =>
          (exec sampleConfig t op).1.isOk) = true := by
    decide +kernel
  obtain ⟨run, hnew, r, hr, hl, hne, b, hb, hbr, hok⟩ := findsOther_inv hf
  exact ⟨run, hnew, r, hr, hl, hne, b, hb, hbr, List.all_eq_true.mp hok⟩

end CortexHarness.Journal
