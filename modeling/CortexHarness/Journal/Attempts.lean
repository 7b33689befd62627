import CortexHarness.Journal.Fencing

/-!
# Bounded execution, no blind replay

`leasedJob cfg s op` is the batch that the call `op` leases for execution in the state `s`, and
`leaseCount` counts the execution leases of one batch along a sequence of calls.

* `leasedJob_inv`: an execution lease takes an executable row of an active run whose required
  barriers are drained, and adds one attempt;
* `leaseCount_le`: a row is leased at most `max_attempts - attempt` more times;
* `retry_between`: a row that is not executable and later is was retried, successfully, with its
  current token;
* `readback_before_retry`: a row without an owner (an expired lease, or one taken over) was claimed
  for reconciliation first.
-/

namespace CortexHarness.Journal

open Table Relation

variable {cfg : Config} {op : Op} {s t : SQLiteJournal}

/-! ## Execution leases -/

/-- The batch that `claim_batch` or `claim_job` leases. -/
def leasedJob (cfg : Config) (s : SQLiteJournal) (op : Op) : Option String :=
  match op.leaseToken, (exec cfg s op).1 with
  | some _, .ok (.batch (some b)) => some b.jobId
  | _, _ => none

/-- How often `jobId` is leased for execution along `ops`. -/
def leaseCount (cfg : Config) (jobId : String) (s : SQLiteJournal) : List Op → Nat
  | [] => 0
  | op :: ops =>
    (if leasedJob cfg s op = some jobId then 1 else 0) + leaseCount cfg jobId (step cfg s op) ops

theorem foldl_addEvent_eq {α : Type} (e : α → Event) (l : List α) (t : SQLiteJournal) :
    ∃ es, l.foldl (fun t x => t.addEvent (e x)) t = { t with events := es } := by
  induction l generalizing t with
  | nil => exact ⟨t.events, rfl⟩
  | cons x l ih =>
    obtain ⟨es, h⟩ := ih (t.addEvent (e x))
    exact ⟨es, h⟩

/-- What the recovery of expired leases makes of a row. -/
def recovered (now : Time) (b : Batch) : Batch :=
  let b := if expiredLease now b then recoverAmbiguous b else b
  if expiredOwner now b then releaseOwner b else b

theorem recoverRows_eq (s : SQLiteJournal) (selected : Batch → Bool) (f : Batch → Batch)
    (eventType : EventType) (now : Time) :
    ∃ es, recoverRows s selected f eventType now =
      { s with batches := updateWhere selected f s.batches, events := es } :=
  foldl_addEvent_eq _ _ _

theorem recoverExpiredLocked_eq (s : SQLiteJournal) (now : Time) :
    ∃ es, (recoverExpiredLocked s now).2 =
      { s with batches := s.batches.map (recovered now), events := es } := by
  unfold recoverExpiredLocked
  obtain ⟨es₁, h₁⟩ := recoverRows_eq s (expiredLease now) recoverAmbiguous
    .leaseRecoveredAsAmbiguous now
  obtain ⟨es₂, h₂⟩ := recoverRows_eq
    { s with batches := updateWhere (expiredLease now) recoverAmbiguous s.batches, events := es₁ }
    (expiredOwner now) releaseOwner .reconciliationRecovered now
  have hmap : updateWhere (expiredOwner now) releaseOwner
      (updateWhere (expiredLease now) recoverAmbiguous s.batches) =
      s.batches.map (recovered now) := by
    simp only [updateWhere, List.map_map]
    rfl
  simp only [h₁, ← hmap]
  exact ⟨es₂, h₂⟩

/-- A recovery ends an expired lease or an expired ownership, or leaves the row alone. -/
theorem recovered_cases (now : Time) (b : Batch) :
    recovered now b = b ∨ (b.status = .leased ∧ recovered now b = recoverAmbiguous b) ∨
      (b.status = .reconciling ∧ recovered now b = releaseOwner b) := by
  unfold recovered
  by_cases h₁ : expiredLease now b = true
  · have hs : b.status = .leased := by
      simp only [expiredLease, Bool.and_eq_true, beq_iff_eq] at h₁
      exact h₁.1
    have h₂ : expiredOwner now (recoverAmbiguous b) = false := by
      simp [expiredOwner, recoverAmbiguous]
    refine .inr (.inl ⟨hs, ?_⟩)
    simp only [h₁, if_true, h₂, Bool.false_eq_true, if_false]
  · simp only [h₁, Bool.false_eq_true, if_false]
    split
    · rename_i h₂
      simp only [expiredOwner, Bool.and_eq_true, beq_iff_eq] at h₂
      exact .inr (.inr ⟨h₂.1.1, rfl⟩)
    · exact .inl rfl

theorem recovered_jobId (now : Time) (b : Batch) : (recovered now b).jobId = b.jobId := by
  rcases recovered_cases now b with h | ⟨-, h⟩ | ⟨-, h⟩ <;> rw [h] <;> rfl

/-- A recovery does not make a row that is neither leased nor reconciling. -/
theorem recovered_eq_of_not_held {now : Time} {b : Batch}
    (h : (recovered now b).status.held = false) : recovered now b = b := by
  rcases recovered_cases now b with hr | ⟨-, hr⟩ | ⟨hs, hr⟩
  · exact hr
  · rw [hr] at h
    cases h
  · rw [hr] at h
    simp [releaseOwner, hs, BatchStatus.held] at h

theorem held_of_executable {b : Batch} (h : b.status.executable = true) :
    b.status.held = false := by
  cases hb : b.status <;> simp [hb, BatchStatus.executable, BatchStatus.held] at h ⊢

theorem claim_inv {select : SQLiteJournal → Option Batch} {f : String → Time → Batch → Batch}
    {eventType : EventType} {leaseSeconds : Int} {token : String} {now : Time} {r : Option Batch}
    (h : claim s select f eventType leaseSeconds token now = .ok (r, t)) :
    ∃ es, (r = none ∧ t = { s with batches := s.batches.map (recovered now), events := es }) ∨
      ∃ row es' leaseUntil,
        select { s with batches := s.batches.map (recovered now), events := es' } = some row ∧
        r = some (f token leaseUntil row) ∧
        t = { s with
          batches := updateWhere (fun b => decide (b.jobId = row.jobId)) (f token leaseUntil)
            (s.batches.map (recovered now))
          events := es } := by
  unfold claim at h
  split at h
  · cases h
  · simp only at h
    obtain ⟨es, hes⟩ := recoverExpiredLocked_eq s now
    rw [hes] at h
    split at h
    · cases h
      exact ⟨es, .inl ⟨rfl, rfl⟩⟩
    · rename_i row hrow
      cases h
      exact ⟨_, .inr ⟨row, es, _, hrow, rfl, rfl⟩⟩

/-- What an execution lease is: the row it takes and the table it leaves. -/
structure Leased (cfg : Config) (s : SQLiteJournal) (op : Op) (b b' : Batch) : Prop where
  mem : b ∈ s.batches
  executable : b.status.executable = true
  active : s.runActive b.runId = true
  drained : s.barriersDrained b = true
  mem' : b' ∈ (step cfg s op).batches
  lease : ∃ token leaseUntil, op.leaseToken = some token ∧ b' = leaseBatch token leaseUntil b
  runs : (step cfg s op).runs = s.runs
  barriers : (step cfg s op).barriers = s.barriers

/-- The clock at which a call recovers the expired leases: the claims, unless they refuse their
argument, and `recover_expired_leases`. -/
def Op.recoversAt : Op → Option Time
  | .claimBatch _ leaseSeconds _ now => if leaseSeconds ≤ 0 then none else some now
  | .claimJob _ leaseSeconds _ now => if leaseSeconds ≤ 0 then none else some now
  | .claimReconciling _ leaseSeconds _ now => if leaseSeconds ≤ 0 then none else some now
  | .claimReconcilingJob _ leaseSeconds _ now => if leaseSeconds ≤ 0 then none else some now
  | .recoverExpiredLeases now => some now
  | _ => none

/-- An execution claim is a `claim` that selects a claimable row. -/
theorem lease_call (cfg : Config) (s : SQLiteJournal) {token : String}
    (hop : op.leaseToken = some token) :
    ∃ select leaseSeconds now, op.recoversAt = (if leaseSeconds ≤ 0 then none else some now) ∧
      exec cfg s op = transaction s .batch
        (claim s select leaseBatch .batchLeased leaseSeconds token now) ∧
      ∀ u b, select u = some b → b ∈ u.batches ∧ claimable u now b = true := by
  cases op with
  | claimBatch runId leaseSeconds tk now =>
    cases hop
    refine ⟨_, leaseSeconds, now, rfl, rfl, fun u b hu => ?_⟩
    obtain ⟨hm, hc⟩ := firstInOrder_mem hu
    exact ⟨hm, (Bool.and_eq_true _ _ ▸ hc).1⟩
  | claimJob j leaseSeconds tk now =>
    cases hop
    exact ⟨_, leaseSeconds, now, rfl, rfl, fun u b hu => getBatch_filter hu⟩
  | _ => cases hop

/-- A reconciliation claim is a `claim` that selects an unowned ambiguous row. -/
theorem readback_call (cfg : Config) (s : SQLiteJournal) {token : String}
    (hop : op.readbackToken = some token) :
    ∃ select leaseSeconds now, op.recoversAt = (if leaseSeconds ≤ 0 then none else some now) ∧
      exec cfg s op = transaction s .batch
        (claim s select leaseReconciliation .batchReconciliationLeased leaseSeconds token now) ∧
      ∀ u b, select u = some b → b ∈ u.batches ∧ reconcilable u now b = true := by
  cases op with
  | claimReconciling runId leaseSeconds tk now =>
    cases hop
    refine ⟨_, leaseSeconds, now, rfl, rfl, fun u b hu => ?_⟩
    obtain ⟨hm, hc⟩ := firstInOrder_mem hu
    exact ⟨hm, (Bool.and_eq_true _ _ ▸ hc).1⟩
  | claimReconcilingJob j leaseSeconds tk now =>
    cases hop
    exact ⟨_, leaseSeconds, now, rfl, rfl, fun u b hu => getBatch_filter hu⟩
  | _ => cases hop

/-- An execution lease, inverted. -/
theorem leasedJob_inv {jobId : String} (h : leasedJob cfg s op = some jobId) :
    ∃ b b', Leased cfg s op b b' ∧ b.jobId = jobId := by
  unfold leasedJob at h
  split at h
  · rename_i token r hop hr
    obtain ⟨select, leaseSeconds, now, -, hexec, hsel⟩ := lease_call cfg s hop
    cases hc : claim s select leaseBatch .batchLeased leaseSeconds token now with
    | error e =>
      rw [hexec, hc] at hr
      cases hr
    | ok p =>
      have hstep : step cfg s op = p.2 := by simp only [step, hexec, hc, transaction]
      rw [hexec, hc] at hr
      obtain ⟨es, ⟨hr', -⟩ | ⟨row, es', leaseUntil, hrow, hr', ht⟩⟩ := claim_inv hc
      · simp only [transaction, hr'] at hr
        cases hr
      · simp only [transaction, hr'] at hr
        cases hr
        obtain ⟨hmem, hcl⟩ := hsel _ row hrow
        simp only [claimable, Bool.and_eq_true] at hcl
        refine ⟨row, _, ⟨?_, hcl.1.1.1, hcl.1.2, hcl.2, ?_, ⟨token, leaseUntil, hop, rfl⟩,
          by rw [hstep, ht], by rw [hstep, ht]⟩, Option.some.inj h⟩
        · obtain ⟨x, hx, rfl⟩ := List.mem_map.mp hmem
          rwa [recovered_eq_of_not_held (held_of_executable hcl.1.1.1)]
        · rw [hstep, ht]
          exact mem_updateWhere.mpr ⟨row, hmem, by simp⟩
  · cases h

/-! ## At most `max_attempts` leases -/

/-- A row has at most `max_attempts - attempt` execution leases ahead of it. -/
theorem leaseCount_le (hi : Inv s) {b : Batch} (hb : b ∈ s.batches) (ops : List Op)
    (hops : .deleteRun b.runId ∉ ops) :
    leaseCount cfg b.jobId s ops ≤ b.maxAttempts - b.attempt := by
  induction ops generalizing s b with
  | nil => simp [leaseCount]
  | cons op ops ih =>
    have hi' : Inv (step cfg s op) := step_inv hi op
    rcases row_forward cfg hi op hb with ⟨b', hb', hc⟩ | hdel
    · have hcore := RowChain.core hc
      have ih' := ih hi' hb' (by rw [hcore]; exact fun h => hops (List.mem_cons_of_mem _ h))
      have hmono := RowChain.attempt hc
      rw [hcore] at ih'
      simp only [leaseCount]
      split
      · rename_i hl
        obtain ⟨x, x', hx, hj⟩ := leasedJob_inv hl
        obtain rfl : x = b := hi.keys.batch_eq hx.mem hb hj
        obtain ⟨token, leaseUntil, -, rfl⟩ := hx.lease
        obtain rfl : leaseBatch token leaseUntil x = b' :=
          hi'.keys.batch_eq hx.mem' hb' (by rw [hcore]; rfl)
        have hlt := (hi.valid x hb).attempts hx.executable
        have hsucc : (leaseBatch token leaseUntil x).attempt = x.attempt + 1 := rfl
        omega
      · omega
    · exact absurd (hdel ▸ List.mem_cons_self) hops

theorem leasedJob_ne {jobId : String} (h : ∀ x ∈ s.batches, x.jobId ≠ jobId) :
    leasedJob cfg s op ≠ some jobId := by
  intro hl
  obtain ⟨x, x', hx, hj⟩ := leasedJob_inv hl
  exact h x hx.mem hj

/-- The bound for the row that is stored at the end, from any state before. -/
theorem leaseCount_le_of_final (hi : Inv s) (ops : List Op) (hops : ∀ r, .deleteRun r ∉ ops)
    {b : Batch} (hb : b ∈ (runOps cfg s ops).batches) :
    leaseCount cfg b.jobId s ops ≤ b.maxAttempts := by
  induction ops generalizing s with
  | nil => exact Nat.zero_le _
  | cons op ops ih =>
    by_cases h : ∃ x ∈ s.batches, x.jobId = b.jobId
    · obtain ⟨x, hx, hj⟩ := h
      obtain ⟨x', hx', hcore⟩ := row_persists cfg hi hx (op :: ops) (hops _)
      obtain rfl : x' = b :=
        (run_inv cfg hi (op :: ops)).keys.batch_eq hx' hb (by rw [hcore]; exact hj)
      have hle : leaseCount cfg x.jobId s (op :: ops) ≤ _ := leaseCount_le hi hx _ (hops _)
      rw [hj] at hle
      have hmax : x'.maxAttempts = x.maxAttempts := by rw [hcore]
      omega
    · have hne : ∀ x ∈ s.batches, x.jobId ≠ b.jobId := fun x hx hj => h ⟨x, hx, hj⟩
      simp only [leaseCount, if_neg (leasedJob_ne hne), Nat.zero_add]
      exact ih (step_inv hi op) (fun r hr => hops r (List.mem_cons_of_mem _ hr)) hb

/-! ## A retry between two leases -/

/-- The batch is `PENDING` or `RETRY_WAIT`. -/
def Executable (s : SQLiteJournal) (jobId : String) : Prop :=
  ∃ b ∈ s.batches, b.jobId = jobId ∧ b.status.executable = true

/-- A successful `schedule_retry` with the token the batch has at that moment. -/
def RetriedBy (cfg : Config) (s : SQLiteJournal) (op : Op) (jobId token : String) : Prop :=
  ∃ retryAt retryClass errorCode now b r,
    op = .scheduleRetry jobId token retryAt retryClass errorCode now ∧ b ∈ s.batches ∧
    b.jobId = jobId ∧ b.ownedBy token now = true ∧ (exec cfg s op).1 = .ok (.batch (some r))

theorem RetriedBy.stores {jobId token : String} (h : RetriedBy cfg s op jobId token) :
    Stores s jobId token := by
  obtain ⟨_, _, _, _, b, _, _, hb, hj, ho, _⟩ := h
  exact ⟨b, hb, hj, (ownedBy_held ho).2⟩

/-- A call that makes a stored row executable is a successful retry of it. -/
theorem executable_gained (hi : Inv s) {b : Batch} (hb : b ∈ s.batches)
    (hs : b.status.executable = false) (h : Executable (step cfg s op) b.jobId) :
    ∃ token, RetriedBy cfg s op b.jobId token := by
  obtain ⟨b', hb', hj, he⟩ := h
  rcases RowChain.executable (row_chain hi op hb hb' hj) he with h | ⟨token, ra, rc, ec, now, rfl⟩
  · rw [hs] at h
    cases h
  · refine ⟨token, ra, rc, ec, now, b, ?_⟩
    cases hr : scheduleRetry cfg s b.jobId token ra rc ec now with
    | error e =>
      -- a failed call leaves the table as it is
      have hstep : step cfg s (.scheduleRetry b.jobId token ra rc ec now) = s := by
        simp only [step, exec, hr, transaction]
      rw [hstep] at hb'
      rw [hi.keys.batch_eq hb' hb hj, hs] at he
      cases he
    | ok r =>
      have hown : b.ownedBy token now = true := by
        unfold scheduleRetry at hr
        split at hr
        · cases hr
        · rename_i row hrow
          obtain ⟨hm, hjr, ho⟩ := ownedTransition_inv hrow
          rwa [hi.keys.batch_eq hb hm hjr.symm]
      exact ⟨r.1, rfl, hb, rfl, hown, by simp only [exec, hr, transaction]; rfl⟩

theorem not_executable {b : Batch} (hb : b ∈ s.batches)
    (h : ¬ Executable s b.jobId) : b.status.executable = false := by
  by_contra hne
  exact h ⟨b, hb, rfl, by simpa using hne⟩

/-- A stored row that is not executable and later is was retried in between, at the first call
after which it is. -/
theorem retry_between (hi : Inv s) {b : Batch} (hb : b ∈ s.batches)
    (hs : b.status.executable = false) (ops : List Op) (hops : .deleteRun b.runId ∉ ops)
    (h : Executable (runOps cfg s ops) b.jobId) :
    ∃ pre op post token, ops = pre ++ op :: post ∧
      (∀ p, p <+: pre → ¬ Executable (runOps cfg s p) b.jobId) ∧
      RetriedBy cfg (runOps cfg s pre) op b.jobId token := by
  have hs' : ¬ Executable s b.jobId := by
    rintro ⟨x, hx, hj, he⟩
    rw [hi.keys.batch_eq hx hb hj, hs] at he
    cases he
  obtain ⟨pre, op, post, rfl, hpre, hpost⟩ := Run.exists_crossing
    (P := fun s => Executable s b.jobId) hs' ops h
  have hip := run_inv cfg hi pre
  obtain ⟨x, hx, hcore⟩ := row_persists cfg hi hb pre fun hm => hops (List.mem_append_left _ hm)
  have hj : x.jobId = b.jobId := by rw [hcore]
  have hne := not_executable hx (hj ▸ hpre pre (List.prefix_refl _))
  rw [Run.run_snoc, ← hj] at hpost
  obtain ⟨token, hr⟩ := executable_gained hip hx hne hpost
  exact ⟨pre, op, post, token, rfl, hpre, hj ▸ hr⟩

/-! ## A readback before the retry of a lost lease -/

/-- A successful reconciliation claim of the batch. -/
def ReadbackBy (cfg : Config) (s : SQLiteJournal) (op : Op) (jobId token : String) : Prop :=
  op.readbackToken = some token ∧
    ∃ r, (exec cfg s op).1 = .ok (.batch (some r)) ∧ r.jobId = jobId ∧ r.fencingToken = some token

/-- Along `ops` the batch is claimed for reconciliation, and later retried with the token of that
claim. -/
def ReadbackThenRetry (cfg : Config) (s : SQLiteJournal) (ops : List Op) (jobId : String) : Prop :=
  ∃ pre c mid r post token, ops = pre ++ c :: (mid ++ r :: post) ∧
    ReadbackBy cfg (runOps cfg s pre) c jobId token ∧
    RetriedBy cfg (runOps cfg s (pre ++ c :: mid)) r jobId token

/-- One more call in front. -/
theorem ReadbackThenRetry.cons {ops : List Op} {jobId : String}
    (h : ReadbackThenRetry cfg (step cfg s op) ops jobId) :
    ReadbackThenRetry cfg s (op :: ops) jobId := by
  obtain ⟨pre, c, mid, r, post, token, rfl, hc, hr⟩ := h
  exact ⟨op :: pre, c, mid, r, post, token, rfl, hc, hr⟩

theorem claim_row {select : SQLiteJournal → Option Batch} {f : String → Time → Batch → Batch}
    {eventType : EventType} {leaseSeconds : Int} {token : String} {now : Time} (hk : Keys s)
    (hrec : op.recoversAt = if leaseSeconds ≤ 0 then none else some now)
    (hexec : exec cfg s op = transaction s .batch
      (claim s select f eventType leaseSeconds token now))
    (hf : ∀ l x, (f token l x).jobId = x.jobId) (hsel : ∀ u b, select u = some b → b ∈ u.batches)
    {b b' : Batch} (hb : b ∈ s.batches) (hb' : b' ∈ (step cfg s op).batches)
    (hj : b'.jobId = b.jobId) :
    (op.recoversAt = none ∧ b' = b) ∨ op.recoversAt = some now ∧ (b' = recovered now b ∨
      ∃ leaseUntil u, select u = some (recovered now b) ∧
        b' = f token leaseUntil (recovered now b) ∧
        (exec cfg s op).1 = .ok (.batch (some b'))) := by
  have hmap : ∀ x ∈ s.batches.map (recovered now), x.jobId = b.jobId → x = recovered now b := by
    intro x hx hxj
    obtain ⟨y, hy, rfl⟩ := List.mem_map.mp hx
    rw [hk.batch_eq hy hb ((recovered_jobId now y).symm.trans hxj)]
  by_cases hle : leaseSeconds ≤ 0
  · -- the claim refuses its argument
    have hc : claim s select f eventType leaseSeconds token now =
        .error (.value "lease_seconds must be positive") := by rw [claim, if_pos hle]
    rw [step, hexec, hc] at hb'
    exact .inl ⟨by rw [hrec, if_pos hle], hk.batch_eq hb' hb hj⟩
  refine .inr ⟨by rw [hrec, if_neg hle], ?_⟩
  obtain ⟨p, hc⟩ : ∃ p, claim s select f eventType leaseSeconds token now = .ok p := by
    unfold claim
    rw [if_neg hle]
    simp only
    split <;> exact ⟨_, rfl⟩
  rw [step, hexec, hc] at hb'
  rw [hexec, hc]
  obtain ⟨es, ⟨-, ht⟩ | ⟨row, es', leaseUntil, hrow, hr, ht⟩⟩ := claim_inv hc
  · simp only [transaction, ht] at hb'
    exact .inl (hmap b' hb' hj)
  · simp only [transaction, ht] at hb'
    have hm := hsel _ _ hrow
    obtain ⟨x, hx, rfl⟩ := mem_updateWhere.mp hb'
    by_cases hxr : x.jobId = row.jobId
    · rw [if_pos (by simpa using hxr)] at hj ⊢
      rw [hf] at hj
      obtain rfl := hmap x hx hj
      obtain rfl := hmap row hm (hxr.symm.trans hj)
      exact .inr ⟨leaseUntil, _, hrow, rfl, by rw [transaction, hr]⟩
    · rw [if_neg (by simpa using hxr)] at hj ⊢
      exact .inl (hmap x hx hj)

/-- A claim, seen from a row that is not executable: the row is recovered, and then at most fenced
by a reconciliation claim that returns it. -/
theorem unexecutable_row (hi : Inv s) {b b' : Batch} (hb : b ∈ s.batches)
    (hs : b.status.executable = false) (hb' : b' ∈ (step cfg s op).batches)
    (hj : b'.jobId = b.jobId) {token : String} (hop : op.claimToken = some token) :
    (op.recoversAt = none ∧ b' = b) ∨ ∃ now, op.recoversAt = some now ∧
      (b' = recovered now b ∨ ReadbackBy cfg s op b.jobId token ∧
        b'.status = .reconciling ∧ b'.fencingToken = some token) := by
  rw [Op.claimToken, Option.or_eq_some_iff] at hop
  rcases hop with hop | ⟨-, hop⟩
  · obtain ⟨select, leaseSeconds, now, hrec, hexec, hsel⟩ := lease_call cfg s hop
    rcases claim_row hi.keys hrec hexec (fun _ _ => rfl) (fun u x hx => (hsel u x hx).1) hb hb'
      hj with h | ⟨hat, h | ⟨leaseUntil, u, hrow, -, -⟩⟩
    · exact .inl h
    · exact .inr ⟨now, hat, .inl h⟩
    · -- an execution claim takes executable rows only
      have hcl := (hsel u _ hrow).2
      simp only [claimable, Bool.and_eq_true] at hcl
      have hex := hcl.1.1.1
      rw [recovered_eq_of_not_held (held_of_executable hex), hs] at hex
      cases hex
  · obtain ⟨select, leaseSeconds, now, hrec, hexec, hsel⟩ := readback_call cfg s hop
    rcases claim_row hi.keys hrec hexec (fun _ _ => rfl) (fun u x hx => (hsel u x hx).1) hb hb'
      hj with h | ⟨hat, h | ⟨leaseUntil, u, hrow, rfl, hr⟩⟩
    · exact .inl h
    · exact .inr ⟨now, hat, .inl h⟩
    · have hcl := (hsel u _ hrow).2
      simp only [reconcilable, Bool.and_eq_true, beq_iff_eq] at hcl
      exact .inr ⟨now, hat, .inr ⟨⟨hop, _, hr, hj, rfl⟩, hcl.1.1.1, rfl⟩⟩

/-- A claim that changes a row that is not executable, and leaves it a token, is a reconciliation
claim that returns it. -/
theorem readback_of_claim (hi : Inv s) {b b' : Batch} (hb : b ∈ s.batches)
    (hs : b.status.executable = false) (hb' : b' ∈ (step cfg s op).batches)
    (hj : b'.jobId = b.jobId) (hne : b' ≠ b) {token : String}
    (htok : b'.fencingToken = some token) (hop : op.claimToken = some token) :
    ReadbackBy cfg s op b.jobId token := by
  rcases unexecutable_row hi hb hs hb' hj hop with ⟨-, h⟩ | ⟨now, -, h | ⟨h, -⟩⟩
  · exact absurd h hne
  · rcases recovered_cases now b with hr | ⟨-, hr⟩ | ⟨-, hr⟩
    · exact absurd (h.trans hr) hne
    · rw [h, hr] at htok
      cases htok
    · rw [h, hr] at htok
      cases htok
  · exact h

/-- A retried row: its token is the one it has now, or was handed out on the way by a
reconciliation claim. -/
theorem retry_token (hi : Inv s) {b : Batch} (hb : b ∈ s.batches)
    (hs : b.status.executable = false) (ops : List Op) (hops : .deleteRun b.runId ∉ ops)
    (h : Executable (runOps cfg s ops) b.jobId) :
    ReadbackThenRetry cfg s ops b.jobId ∨
      ∃ pre r post token, ops = pre ++ r :: post ∧ b.fencingToken = some token ∧
        (∀ p, p <+: pre → ¬ Executable (runOps cfg s p) b.jobId) ∧
        RetriedBy cfg (runOps cfg s pre) r b.jobId token := by
  obtain ⟨pre, r, post, token, rfl, hpre, hr⟩ := retry_between hi hb hs ops hops h
  by_cases hnot : Stores s b.jobId token
  · obtain ⟨x, hx, hj, ht⟩ := hnot
    rw [hi.keys.batch_eq hx hb hj] at ht
    exact .inr ⟨pre, r, post, token, rfl, ht, hpre, hr⟩
  -- the token of the retry became the stored one on the way
  · obtain ⟨p, c, q, rfl, hp, hq⟩ := Run.exists_crossing
      (P := fun s => Stores s b.jobId token) hnot pre hr.stores
    have hip := run_inv cfg hi p
    obtain ⟨x, hx, hcore⟩ := row_persists cfg hi hb p fun hm =>
      hops (List.mem_append_left _ (List.mem_append_left _ hm))
    have hj : x.jobId = b.jobId := by rw [hcore]
    have hne := not_executable hx (hj ▸ hpre p (List.prefix_append _ _))
    have htx : x.fencingToken ≠ some token := fun he => hp p (List.prefix_refl _) ⟨x, hx, hj, he⟩
    rw [Run.run_snoc] at hq
    obtain ⟨y, hy, hyj, hyt⟩ := hq
    have hyx : y.jobId = x.jobId := hyj.trans hj.symm
    rcases RowChain.token (row_chain hip c hx hy hyx) hyt with h | hop
    · exact absurd h htx
    · refine .inl ⟨p, c, q, r, post, token, by simp, hj ▸ ?_, hr⟩
      exact readback_of_claim hip hx hne hy hyx (fun he => htx (he ▸ hyt)) hyt hop

/-- **A row without an owner is claimed for reconciliation before it is retried.** -/
theorem readback_before_retry (hi : Inv s) {b : Batch} (hb : b ∈ s.batches)
    (hs : b.status.executable = false) (ht : b.fencingToken = none) (ops : List Op)
    (hops : .deleteRun b.runId ∉ ops) (h : Executable (runOps cfg s ops) b.jobId) :
    ReadbackThenRetry cfg s ops b.jobId := by
  rcases retry_token hi hb hs ops hops h with h | ⟨_, _, _, _, -, ht', -⟩
  · exact h
  · rw [ht] at ht'
    cases ht'

/-! ## Lost leases -/

/-- A call that leaves a row its token leaves it its lease, or hands the token out, or renews the
lease before it has run out. -/
theorem RowStep.lease {u : SQLiteJournal} {b b' : Batch} {token : String} (h : RowStep op u b b')
    (htok : b'.fencingToken = some token) :
    (b.fencingToken = some token ∧ b'.leaseUntil = b.leaseUntil) ∨
      op.claimToken = some token ∨
      (b.fencingToken = some token ∧ ∃ now, op.clock = some now ∧ b.leaseUntil.any (· > now)) := by
  rcases h.token htok with ht | ht
  · cases h with
    | move h =>
      cases h with
      | keep => exact .inl ⟨ht, rfl⟩
      | lease hop =>
        obtain rfl : _ = token := Option.some.inj htok
        exact .inr (.inl (by simp [Op.claimToken, hop]))
      | readback hop _ hn =>
        rw [hn] at ht
        cases ht
      | renew hop _ ho =>
        simp only [Batch.ownedBy, Bool.and_eq_true] at ho
        exact .inr (.inr ⟨ht, _, by rw [hop]; rfl, ho.2⟩)
      | recover => cases htok
      | release => cases htok
      | mark => exact .inl ⟨ht, rfl⟩
      | retry => cases htok
      | backOff => cases htok
    | ack => cases htok
    | fail _ _ hf => cases hf <;> cases htok
    | quarantine => cases htok
  · exact .inr (.inl ht)

theorem RowChain.lease {b b' : Batch} {token : String} (h : RowChain op b b')
    (htok : b'.fencingToken = some token) :
    (b.fencingToken = some token ∧ b'.leaseUntil = b.leaseUntil) ∨
      op.claimToken = some token ∨
      (b.fencingToken = some token ∧ ∃ now, op.clock = some now ∧ b.leaseUntil.any (· > now)) := by
  induction h with
  | refl => exact .inl ⟨htok, rfl⟩
  | tail _ hl ih =>
    obtain ⟨u, -, -, hs⟩ := hl
    rcases hs.lease htok with ⟨ht, hlu⟩ | hop | ⟨ht, hnow⟩
    · rw [hlu]
      exact ih ht
    · exact .inr (.inl hop)
    · rcases ih ht with ⟨ht', hlu⟩ | h | h
      · rw [hlu] at hnow
        exact .inr (.inr ⟨ht', hnow⟩)
      · exact .inr (.inl h)
      · exact .inr (.inr h)

theorem expired_readback (hi : Inv s) {b : Batch} (hb : b ∈ s.batches)
    (hs : b.status.executable = false) {expiry : Time} (hl : b.leaseUntil = some expiry)
    (ops : List Op) (hclock : ∀ op ∈ ops, ∀ now, op.clock = some now → expiry ≤ now)
    (hops : .deleteRun b.runId ∉ ops) (h : Executable (runOps cfg s ops) b.jobId) :
    ReadbackThenRetry cfg s ops b.jobId := by
  rcases retry_token hi hb hs ops hops h with h | ⟨pre, r, post, token, rfl, -, hpre, hr⟩
  · exact h
  -- the owner had another lease when it retried
  let Moved (s : SQLiteJournal) : Prop := ∃ x ∈ s.batches, x.jobId = b.jobId ∧
    x.fencingToken = some token ∧ x.leaseUntil ≠ some expiry
  have hs' : ¬ Moved s := by
    rintro ⟨x, hx, hj, -, hne⟩
    rw [hi.keys.batch_eq hx hb hj] at hne
    exact hne hl
  have hmoved : Moved (runOps cfg s pre) := by
    obtain ⟨ra, rc, ec, now, x, -, hop, hx, hj, ho, -⟩ := hr
    refine ⟨x, hx, hj, (ownedBy_held ho).2, fun he => ?_⟩
    have hle := hclock r (by simp) now (by rw [hop]; rfl)
    simp only [Batch.ownedBy, he, Option.any_some, Bool.and_eq_true, decide_eq_true_eq] at ho
    exact absurd hle (not_le.mpr ho.2)
  obtain ⟨p, c, q, rfl, hp, hq⟩ := Run.exists_crossing (P := Moved) hs' pre hmoved
  have hip := run_inv cfg hi p
  obtain ⟨x, hx, hcore⟩ := row_persists cfg hi hb p fun hm =>
    hops (List.mem_append_left _ (List.mem_append_left _ hm))
  have hj : x.jobId = b.jobId := by rw [hcore]
  have hne := not_executable hx (hj ▸ hpre p (List.prefix_append _ _))
  have hbefore : x.fencingToken = some token → x.leaseUntil = some expiry := by
    intro ht
    by_contra hlu
    exact hp p (List.prefix_refl _) ⟨x, hx, hj, ht, hlu⟩
  rw [Run.run_snoc] at hq
  obtain ⟨y, hy, hyj, hyt, hyl⟩ := hq
  have hyx : y.jobId = x.jobId := hyj.trans hj.symm
  rcases RowChain.lease (row_chain hip c hx hy hyx) hyt with ⟨ht, hlu⟩ | hop | ⟨ht, now, hc, hlu⟩
  · exact absurd (hlu.trans (hbefore ht)) hyl
  · refine ⟨p, c, q, r, post, token, by simp, hj ▸ ?_, hr⟩
    refine readback_of_claim hip hx hne hy hyx (fun he => ?_) hyt hop
    exact hyl (he ▸ hbefore (he ▸ hyt))
  · have hle := hclock c (by simp) now hc
    simp only [hbefore ht, Option.any_some, decide_eq_true_eq] at hlu
    exact absurd hle (not_le.mpr hlu)

theorem recovered_lost {now expiry : Time} {b : Batch} (hv : b.Valid)
    (hs : b.status.held = true) (hl : b.leaseUntil = some expiry) (hle : expiry ≤ now) :
    (recovered now b).status = .reconciling ∧ (recovered now b).fencingToken = none := by
  have hexp : b.leaseUntil.any (· ≤ now) = true := by simp [hl, hle]
  unfold recovered
  cases hb : b.status with
  | leased => simp [expiredLease, hb, hexp, expiredOwner, recoverAmbiguous]
  | reconciling =>
    have ht : b.fencingToken.isSome = true := by rw [hv.paired, hl]; rfl
    simp [expiredLease, expiredOwner, hb, hexp, ht, releaseOwner]
  | _ => simp [hb, BatchStatus.held] at hs

/-- Ownership of a row held under a lease is lost: the lease has run out for every later call, the
next call sees that it has run out, or the next call takes the leases of the run over. -/
inductive Lost (b : Batch) : List Op → Prop where
  | expired {ops : List Op} {expiry : Time} (hl : b.leaseUntil = some expiry)
      (h : ∀ op ∈ ops, ∀ now, op.clock = some now → expiry ≤ now) : Lost b ops
  | seen {op : Op} {ops : List Op} {expiry now : Time} (hl : b.leaseUntil = some expiry)
      (hop : op.recoversAt = some now) (h : expiry ≤ now) : Lost b (op :: ops)
  | takenOver {ops : List Op} {now : Time} :
      Lost b (.recoverRunLeasesAsAmbiguous b.runId now :: ops)

theorem takenOver_row (hk : Keys s) {b b' : Batch} (hb : b ∈ s.batches)
    (hs : b.status.held = true) {now : Time}
    (hb' : b' ∈ (step cfg s (.recoverRunLeasesAsAmbiguous b.runId now)).batches)
    (hj : b'.jobId = b.jobId) : b'.status = .reconciling ∧ b'.fencingToken = none := by
  simp only [step, exec, transaction, recoverRunLeasesAsAmbiguous] at hb'
  obtain ⟨es₁, h₁⟩ := recoverRows_eq s (fun x => x.runId == b.runId && x.status == .leased)
    recoverAmbiguous .leaseRecoveredAsAmbiguous now
  rw [h₁] at hb'
  obtain ⟨es₂, h₂⟩ := recoverRows_eq
    { s with
      batches := updateWhere (fun x => x.runId == b.runId && x.status == .leased) recoverAmbiguous
        s.batches
      events := es₁ }
    (fun x => x.runId == b.runId && x.status == .reconciling && x.fencingToken.isSome) releaseOwner
    .reconciliationOwnershipRecovered now
  rw [h₂] at hb'
  obtain ⟨x, hx, rfl⟩ := mem_updateWhere.mp hb'
  obtain ⟨y, hy, rfl⟩ := mem_updateWhere.mp hx
  have hyb : y = b := by
    refine hk.batch_eq hy hb (Eq.trans ?_ hj)
    split <;> split <;> rfl
  subst hyb
  cases hst : y.status with
  | leased => simp [recoverAmbiguous]
  | reconciling =>
    cases ht : y.fencingToken with
    | none => simp [hst, ht]
    | some token => simp [hst, ht, releaseOwner]
  | _ => simp [hst, BatchStatus.held] at hs

/-- **A lost lease is never executable again without a readback before the retry.** -/
theorem lost_readback (hi : Inv s) {b : Batch} (hb : b ∈ s.batches) (hs : b.status.held = true)
    {ops : List Op} (hl : Lost b ops) (hops : .deleteRun b.runId ∉ ops)
    (h : Executable (runOps cfg s ops) b.jobId) : ReadbackThenRetry cfg s ops b.jobId := by
  have hne : b.status.executable = false := by
    cases hst : b.status <;> simp [hst, BatchStatus.held, BatchStatus.executable] at hs ⊢
  -- the row after the first call, when that call takes its token
  have hnext : ∀ {op ops}, .deleteRun b.runId ∉ op :: ops →
      ∃ b' ∈ (step cfg s op).batches, b'.toBatchCore = b.toBatchCore := by
    intro op ops hops
    rcases row_forward cfg hi op hb with ⟨b', hb', hc⟩ | hdel
    · exact ⟨b', hb', RowChain.core hc⟩
    · exact absurd (hdel ▸ List.mem_cons_self) hops
  have hunowned : ∀ {op ops} {b' : Batch}, .deleteRun b.runId ∉ op :: ops →
      b' ∈ (step cfg s op).batches → b'.toBatchCore = b.toBatchCore → b'.status = .reconciling →
      b'.fencingToken = none → Executable (runOps cfg s (op :: ops)) b.jobId →
      ReadbackThenRetry cfg s (op :: ops) b.jobId := by
    intro op ops b' hops hb' hcore hs' ht h
    have hj : b'.jobId = b.jobId := by rw [hcore]
    rw [← hj] at h ⊢
    refine .cons (readback_before_retry (step_inv hi op) hb' ?_ ht ops ?_ h)
    · rw [hs']
      rfl
    · rw [hcore]
      exact fun hm => hops (List.mem_cons_of_mem _ hm)
  cases hl with
  | expired hl hclock => exact expired_readback hi hb hne hl ops hclock hops h
  | takenOver =>
    obtain ⟨b', hb', hcore⟩ := hnext hops
    obtain ⟨hs', ht⟩ := takenOver_row hi.keys hb hs hb' (by rw [hcore])
    exact hunowned hops hb' hcore hs' ht h
  | @seen op ops expiry now hl hat hle =>
    obtain ⟨b', hb', hcore⟩ := hnext hops
    have hj : b'.jobId = b.jobId := by rw [hcore]
    obtain ⟨hs', ht⟩ := recovered_lost (hi.valid b hb) hs hl hle
    cases hop : op.claimToken with
    | none =>
      have hopeq : op = .recoverExpiredLeases now := by
        cases op <;> simp_all [Op.recoversAt, Op.claimToken, Op.leaseToken, Op.readbackToken]
      subst hopeq
      obtain ⟨es, hes⟩ := recoverExpiredLocked_eq s now
      have hrow : b' = recovered now b := by
        simp only [step, exec, transaction, hes] at hb'
        obtain ⟨x, hx, rfl⟩ := List.mem_map.mp hb'
        rw [hi.keys.batch_eq hx hb ((recovered_jobId now x).symm.trans hj)]
      exact hunowned hops hb' hcore (hrow ▸ hs') (hrow ▸ ht) h
    | some token =>
      rcases unexecutable_row hi hb hne hb' hj hop with ⟨hnone, -⟩ | ⟨now', hat', hrow⟩
      · rw [hat] at hnone
        cases hnone
      obtain rfl : now = now' := Option.some.inj (hat.symm.trans hat')
      rcases hrow with hrow | ⟨hread, hs'', ht''⟩
      · exact hunowned hops hb' hcore (hrow ▸ hs') (hrow ▸ ht) h
      · -- the call itself is the readback
        have hops' : .deleteRun b'.runId ∉ ops := by
          rw [hcore]
          exact fun hm => hops (List.mem_cons_of_mem _ hm)
        have hne' : b'.status.executable = false := by rw [hs'']; rfl
        rw [← hj] at h hread ⊢
        rcases retry_token (step_inv hi op) hb' hne' ops hops' h with
          h | ⟨pre, r, post, tk, rfl, htk, -, hr⟩
        · exact h.cons
        · obtain rfl : token = tk := Option.some.inj (ht''.symm.trans htk)
          exact ⟨[], op, pre, r, post, token, rfl, hread, hr⟩

/-! ## The whole -/

/-- What the sequence of calls `ops` from an empty journal guarantees. -/
structure NoBlindReplay (cfg : Config) (ops : List Op) : Prop where
  /-- while nothing is purged, a batch is leased at most `max_attempts` times -/
  bound : (∀ runId, .deleteRun runId ∉ ops) → ∀ b ∈ (runOps cfg .empty ops).batches,
    leaseCount cfg b.jobId .empty ops ≤ b.maxAttempts
  /-- from any point on and until its run is purged, a batch is leased at most as often as it has
  attempts left -/
  remaining : ∀ pre post, ops = pre ++ post → ∀ b ∈ (runOps cfg .empty pre).batches,
    .deleteRun b.runId ∉ post →
    leaseCount cfg b.jobId (runOps cfg .empty pre) post ≤ b.maxAttempts - b.attempt
  /-- between two leases of a batch there is a successful retry with its token of that moment -/
  between : ∀ pre c mid c' post jobId, ops = pre ++ c :: (mid ++ c' :: post) →
    leasedJob cfg (runOps cfg .empty pre) c = some jobId →
    leasedJob cfg (runOps cfg .empty (pre ++ c :: mid)) c' = some jobId →
    (∀ b ∈ (runOps cfg .empty pre).batches, b.jobId = jobId → .deleteRun b.runId ∉ mid) →
    ∃ p r q token, mid = p ++ r :: q ∧
      RetriedBy cfg (runOps cfg .empty (pre ++ c :: p)) r jobId token
  /-- a lost lease becomes executable only by a readback and then a retry with its token -/
  lost : ∀ pre post, ops = pre ++ post → ∀ b ∈ (runOps cfg .empty pre).batches,
    b.status.held = true → Lost b post → .deleteRun b.runId ∉ post →
    Executable (runOps cfg .empty ops) b.jobId →
    ReadbackThenRetry cfg (runOps cfg .empty pre) post b.jobId

theorem retry_between_leases (hi : Inv s) {c c' : Op} {mid : List Op} {jobId : String}
    (hc : leasedJob cfg s c = some jobId)
    (hc' : leasedJob cfg (runOps cfg s (c :: mid)) c' = some jobId)
    (hmid : ∀ b ∈ s.batches, b.jobId = jobId → .deleteRun b.runId ∉ mid) :
    ∃ p r q token, mid = p ++ r :: q ∧ RetriedBy cfg (runOps cfg s (c :: p)) r jobId token := by
  obtain ⟨x, x', hx, rfl⟩ := leasedJob_inv hc
  obtain ⟨y, y', hy, hj⟩ := leasedJob_inv hc'
  obtain ⟨token, leaseUntil, -, rfl⟩ := hx.lease
  obtain ⟨p, r, q, tk, rfl, -, hr⟩ := retry_between (step_inv hi c) hx.mem' rfl mid
    (hmid x hx.mem rfl) ⟨y, hy.mem, hj, hy.executable⟩
  exact ⟨p, r, q, tk, rfl, hr⟩

/-- **Execution is bounded and never blind**, over every sequence of calls with any clock. -/
theorem no_blind_replay (cfg : Config) (ops : List Op) : NoBlindReplay cfg ops := by
  refine ⟨fun hops b hb => leaseCount_le_of_final .empty ops hops hb, ?_, ?_, ?_⟩
  · rintro pre post rfl b hb hops
    exact leaseCount_le (run_inv cfg .empty pre) hb post hops
  · rintro pre c mid c' post jobId rfl hc hc' hmid
    rw [runOps, Run.run_append] at hc'
    obtain ⟨p, r, q, token, rfl, hr⟩ :=
      retry_between_leases (run_inv cfg .empty pre) hc hc' hmid
    refine ⟨p, r, q, token, rfl, ?_⟩
    rwa [runOps, Run.run_append]
  · rintro pre post rfl b hb hs hl hops h
    rw [runOps, Run.run_append] at h
    exact lost_readback (run_inv cfg .empty pre) hb hs hl hops h

/-- A batch that is leased, lost, read back, retried and leased again. -/
def sampleReplay : List Op :=
  [.openRun (sampleMetadata "g1") 0 0 1000000000 0,
    .enqueueBatch sampleRunId (sampleSpec 0) sampleFiles 1000000000 0,
    .claimBatch none 60 "a1" 0,
    .claimReconcilingJob (sampleJobId 0) 60 "b2" (seconds 61),
    .scheduleRetry (sampleJobId 0) "b2" (seconds 62) .transient .staleFence (seconds 62),
    .claimJob (sampleJobId 0) 60 "c3" (seconds 63)]

theorem no_blind_replay_sample :
    leaseCount sampleConfig (sampleJobId 0) .empty sampleReplay = 2 ∧
      NoBlindReplay sampleConfig sampleReplay :=
  ⟨by decide +kernel, no_blind_replay _ _⟩

end CortexHarness.Journal
