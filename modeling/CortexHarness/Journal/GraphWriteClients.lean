import CortexHarness.Journal.GraphWrites

/-!
# The consumers at a graph

Consumers crash, lose their leases and restart while others run. What each of them knows stays true
under the commands of the others (`Executing`, `Reading`, `FoundNone`), and with that it keeps its
promises: it submits only what it has leased or submitted before, marks only what it has submitted,
acknowledges only what has committed, and retries only what a readback has not found
(`GraphWriteJournalConsumer.process_writes`).
-/

namespace CortexHarness.Journal

open Table Clients Relation

variable {cfg : Config} {op : Op} {s : Shared} {i : Input} {c : Command}

/-! ## What a consumer knows -/

/-- The batch is stored. -/
def Known (b : BatchCore) (s : Shared) : Prop :=
  ∃ b' ∈ s.journal.batches, b'.toBatchCore = b

/-- While the token is the stored one, the batch is leased or has been submitted with it. -/
def Executing (jobId token : String) (s : Shared) : Prop :=
  token ∈ s.drawn ∧ ∀ b ∈ s.journal.batches, b.jobId = jobId → b.fencingToken = some token →
    b.status = .leased ∨ Submitted s.graph.history jobId token

/-- While the token is the stored one, the batch is reconciling and has not been submitted with
it. -/
def Reading (jobId token : String) (s : Shared) : Prop :=
  token ∈ s.drawn ∧ ∀ b ∈ s.journal.batches, b.jobId = jobId → b.fencingToken = some token →
    b.status = .reconciling ∧ ¬ Submitted s.graph.history jobId token

/-- And the readback found no receipt. -/
def FoundNone (jobId token : String) (s : Shared) : Prop :=
  Reading jobId token s ∧ (Stores s.journal jobId token → Answered s.graph.history jobId none)

theorem perform_cases (cfg : Config) (s : Shared) (i : Input) (c : Command) :
    (∃ call, c = .journal call ∧ (perform cfg s i c).2.journal = step cfg s.journal (call i) ∧
      (perform cfg s i c).2.graph = s.graph) ∨
    (perform cfg s i c).2.journal = s.journal ∧ (perform cfg s i c).2.drawn = s.drawn ∧
      ∃ es, (perform cfg s i c).2.graph.history = s.graph.history ++ es ∧
        ∀ jobId lease held, .submitted jobId lease held ∈ es → ∃ m, c = .submit m ∧
          m.jobId = jobId ∧ m.lease = lease ∧ held = s.journal.holds jobId lease := by
  cases c with
  | journal call => exact .inl ⟨call, rfl, rfl, rfl⟩
  | submit m =>
    obtain ⟨rs, hhist, -⟩ := submit_graph s.graph m (s.journal.holds m.jobId m.lease) i.submission
    refine .inr ⟨rfl, rfl, _, (hhist.trans (List.append_assoc _ _ _)), fun jobId lease held hm => ?_⟩
    rcases List.mem_append.mp hm with hm | hm
    · cases List.mem_singleton.mp hm
      exact ⟨m, rfl, rfl, rfl, rfl⟩
    · obtain ⟨r, -, hr⟩ := List.mem_map.mp hm
      cases hr
  | readback r =>
    refine .inr ⟨rfl, rfl, ?_⟩
    simp only [perform, Graph.readback]
    split
    · exact ⟨[], by simp, fun _ _ _ hm => absurd hm List.not_mem_nil⟩
    · exact ⟨_, rfl, fun _ _ _ hm => by cases List.mem_singleton.mp hm⟩
  | _ => exact .inr ⟨rfl, rfl, [], by simp [perform], fun _ _ _ hm => absurd hm List.not_mem_nil⟩

theorem perform_history (cfg : Config) (s : Shared) (i : Input) (c : Command) :
    ∃ es, (perform cfg s i c).2.graph.history = s.graph.history ++ es := by
  rcases perform_cases cfg s i c with ⟨call, rfl, -, hg⟩ | ⟨-, -, es, he, -⟩
  · exact ⟨[], by rw [hg, List.append_nil]⟩
  · exact ⟨es, he⟩

theorem perform_drawn {token : String} (ht : token ∈ s.drawn) :
    token ∈ (perform cfg s i c).2.drawn := by
  cases c with
  | journal call => exact List.mem_append_right _ ht
  | _ => exact ht

theorem submitted_stable (jobId token : String) :
    (graphContract cfg).Stable fun s => Submitted s.graph.history jobId token := by
  intro s i c _ _ _ hs
  obtain ⟨es, he⟩ := perform_history cfg s i c
  rw [he]
  exact submitted_mono hs es

theorem committed_stable (b : BatchCore) :
    (graphContract cfg).Stable fun s => Committed s.graph.history b := by
  intro s i c _ _ _ ⟨r, hm, hr⟩
  obtain ⟨es, he⟩ := perform_history cfg s i c
  rw [he]
  exact ⟨r, List.mem_append_left _ hm, hr⟩

theorem known_stable (b : BatchCore) : (graphContract cfg).Stable (Known b) := by
  intro s i c hi _ hg ⟨x, hx, hb⟩
  rcases perform_cases cfg s i c with ⟨call, rfl, hj, -⟩ | ⟨hj, -⟩
  · rcases row_forward cfg hi.reachable.inv (call i) hx with ⟨x', hx', hch⟩ | hdel
    · exact ⟨x', hj ▸ hx', (RowChain.core hch).trans hb⟩
    · have hg : (call i).Respects s := hg
      rw [hdel] at hg
      exact absurd hg (by simp [Op.Respects])
  · exact ⟨x, hj ▸ hx, hb⟩

/-- A row that has a drawn token after a call had it before, with the same status unless the call
marks it. -/
theorem drawn_step (hi : GraphInv cfg s) (hr : op.Respects s) {jobId token : String}
    (hd : token ∈ s.drawn) {b' : Batch} (hb' : b' ∈ (step cfg s.journal op).batches)
    (hj : b'.jobId = jobId) (ht : b'.fencingToken = some token) :
    ∃ b ∈ s.journal.batches, b.jobId = jobId ∧ b.fencingToken = some token ∧
      (b'.status = b.status ∨ (b.status = .leased ∧ Submitted s.graph.history jobId token)) := by
  rcases row_backward hi.reachable.inv op hb' with ⟨b, hb, hch⟩ | ⟨-, hnone, -⟩
  · have hop : op.claimToken ≠ some token := fun hc => hr.claim hc hd
    obtain ⟨htok, hstatus⟩ := RowChain.holds hch ht hop
    have hbj : b.jobId = jobId := (RowChain.jobId hch).symm.trans hj
    refine ⟨b, hb, hbj, htok, hstatus.imp_right fun ⟨hl, errorCode, now, hm⟩ => ⟨hl, ?_⟩⟩
    rw [hm, hbj] at hr
    exact hr
  · rw [hnone] at ht
    cases ht

theorem executing_stable (jobId token : String) :
    (graphContract cfg).Stable (Executing jobId token) := by
  intro s i c hi _ hg ⟨hd, hx⟩
  obtain ⟨es, he⟩ := perform_history cfg s i c
  refine ⟨perform_drawn hd, fun b' hb' hj ht => ?_⟩
  rw [he]
  rcases perform_cases cfg s i c with ⟨call, rfl, hjo, -⟩ | ⟨hjo, -⟩
  · rw [hjo] at hb'
    obtain ⟨b, hb, hbj, hbt, hstatus | ⟨-, hsub⟩⟩ := drawn_step hi hg hd hb' hj ht
    · rw [hstatus]
      exact (hx b hb hbj hbt).imp_right fun hsub => submitted_mono hsub es
    · exact .inr (submitted_mono hsub es)
  · rw [hjo] at hb'
    exact (hx b' hb' hj ht).imp_right fun hsub => submitted_mono hsub es

theorem unsubmitted_step (hg : c.Guaranteed s i) {b : Batch} (hb : b ∈ s.journal.batches)
    {token : String} (ht : b.fencingToken = some token) (hs : b.status = .reconciling)
    (hn : ¬ Submitted s.graph.history b.jobId token) :
    ¬ Submitted (perform cfg s i c).2.graph.history b.jobId token := by
  rintro ⟨held, hm⟩
  rcases perform_cases cfg s i c with ⟨call, rfl, -, hgr⟩ | ⟨-, -, es, he, hes⟩
  · rw [hgr] at hm
    exact hn ⟨held, hm⟩
  · rw [he] at hm
    rcases List.mem_append.mp hm with hm | hm
    · exact hn ⟨held, hm⟩
    · obtain ⟨m, rfl, hmj, rfl, -⟩ := hes _ _ _ hm
      rcases hg.2.2 b hb hmj.symm ht with hl | hsub
      · cases hs.symm.trans hl
      · exact hn (hmj ▸ hsub)

theorem reading_stable (jobId token : String) :
    (graphContract cfg).Stable (Reading jobId token) := by
  intro s i c hi _ hg ⟨hd, hx⟩
  refine ⟨perform_drawn hd, fun b' hb' hj ht => ?_⟩
  have hrow : ∃ b ∈ s.journal.batches, b.jobId = jobId ∧ b.fencingToken = some token ∧
      (b'.status = b.status ∨ b.status = .leased) := by
    rcases perform_cases cfg s i c with ⟨call, rfl, hjo, -⟩ | ⟨hjo, -⟩
    · rw [hjo] at hb'
      obtain ⟨b, hb, hbj, hbt, hstatus⟩ := drawn_step hi hg hd hb' hj ht
      exact ⟨b, hb, hbj, hbt, hstatus.imp_right And.left⟩
    · exact ⟨b', hjo ▸ hb', hj, ht, .inl rfl⟩
  obtain ⟨b, hb, rfl, hbt, hstatus⟩ := hrow
  obtain ⟨hrec, hun⟩ := hx b hb rfl hbt
  refine ⟨?_, unsubmitted_step hg hb hbt hrec hun⟩
  rcases hstatus with hstatus | hl
  · exact hstatus.trans hrec
  · cases hrec.symm.trans hl

theorem foundNone_stable (jobId token : String) :
    (graphContract cfg).Stable (FoundNone jobId token) := by
  intro s i c hi ha hg ⟨hread, hans⟩
  refine ⟨reading_stable jobId token s i c hi ha hg hread, fun hst => ?_⟩
  obtain ⟨b', hb', hj, ht⟩ := hst
  rcases perform_cases cfg s i c with ⟨call, rfl, hjo, hgr⟩ | ⟨hjo, -, es, he, hes⟩
  · rw [hjo] at hb'
    obtain ⟨b, hb, hbj, hbt, -⟩ := drawn_step hi hg hread.1 hb' hj ht
    rw [hgr]
    exact hans ⟨b, hb, hbj, hbt⟩
  · rw [hjo] at hb'
    rw [he]
    refine (hans ⟨b', hb', hj, ht⟩).append fun lease hm => ?_
    -- a submission that is held has the stored token, which is only read back with
    obtain ⟨m, rfl, hmj, rfl, hh⟩ := hes _ _ _ hm
    obtain ⟨x, hx, hxj, hxt⟩ := holds_iff.mp hh.symm
    obtain rfl : x = b' := hi.reachable.inv.keys.batch_eq hx hb' (hxj.trans hj.symm)
    obtain ⟨hrec, hun⟩ := hread.2 x hx hj ht
    rcases hg.2.2 x hx (hj.trans hmj.symm) hxt with hl | hsub
    · cases hrec.symm.trans hl
    · obtain rfl : m.lease = token := Option.some.inj (hxt.symm.trans ht)
      exact absurd (hmj ▸ hsub) hun

/-! ## Programs -/

/-- A program of a consumer that keeps its promises. -/
abbrev Writes {α : Type} (cfg : Config) (F : Shared → Prop) (p : Client α)
    (Q : α → Shared → Prop) (E : Shared → Prop) : Prop :=
  Triple (graphContract cfg) F p Q fun _ => E

/-- A command that is guaranteed in every state. -/
def Unguarded (c : Command) : Prop :=
  ∀ s (i : Input), i.token ∉ s.drawn → c.Guaranteed s i

theorem unguarded_writes {α : Type} {F : Shared → Prop} (hF : (graphContract cfg).Stable F)
    {p : Client α} (h : p.Only Unguarded) : Writes cfg F p (fun _ => F) F :=
  Triple.of_only (K := graphContract cfg) (fun _ hc s i _ ha => hc s i ha) hF h

/-- One call that respects the history where `F` holds; what is stable is kept. -/
theorem call_writes {op : Input → Op} {F G : Shared → Prop} (hG : (graphContract cfg).Stable G)
    (hF : ∀ s, F s → G s) (hr : ∀ s i, GraphInv cfg s → F s → (op i).Respects s) :
    Writes cfg F (call op) (fun _ => G) G := by
  refine .call (fun _ => G) (fun s i hi _ hs => hr s i hi hs) (fun _ => hG)
    (fun s i hi ha hs => hG s i _ hi ha (hr s i hi hs) (hF s hs)) fun r => ?_
  cases r with
  | ok reply => exact fun _ _ h => h
  | error e => exact fun _ _ h => h

/-- The conjunction of stable facts. -/
theorem stable_and {F G : Shared → Prop} (hF : (graphContract cfg).Stable F)
    (hG : (graphContract cfg).Stable G) : (graphContract cfg).Stable fun s => F s ∧ G s :=
  fun s i c hi ha hg h => ⟨hF s i c hi ha hg h.1, hG s i c hi ha hg h.2⟩

theorem Known.stored (hi : GraphInv cfg s) {b : BatchCore} (hk : Known b s) :
    ∀ b' ∈ s.journal.batches, b'.jobId = b.jobId → b'.toBatchCore = b := by
  obtain ⟨x, hx, rfl⟩ := hk
  intro b' hb' hj
  rw [hi.reachable.inv.keys.batch_eq hb' hx hj]

theorem Known.respects_ack (hi : GraphInv cfg s) {b : BatchCore} (hk : Known b s)
    (hc : Committed s.graph.history b) (token : String) (ms : Option Int) (now : Time) :
    Op.Respects s (.ackBatch b.jobId token ms now) := by
  intro b' hb' hj
  rw [hk.stored hi b' hb' hj]
  exact hc

/-! ## Claims -/

theorem claimed_stored {j : SQLiteJournal} {select : SQLiteJournal → Option Batch}
    {f : String → Time → Batch → Batch} {eventType : EventType} {leaseSeconds : Int}
    {token : String} {now : Time} {b : Batch} (hexec : exec cfg j op = transaction j .batch
      (claim j select f eventType leaseSeconds token now))
    (hsel : ∀ u b, select u = some b → b ∈ u.batches)
    (hr : (exec cfg j op).1 = .ok (.batch (some b))) :
    b ∈ (step cfg j op).batches ∧
      ∃ row leaseUntil u, select u = some row ∧ b = f token leaseUntil row := by
  unfold step
  rw [hexec] at hr ⊢
  cases hc : claim j select f eventType leaseSeconds token now with
  | error e =>
    rw [hc] at hr
    cases hr
  | ok p =>
    rw [hc] at hr
    obtain ⟨es, ⟨hnone, -⟩ | ⟨row, es', leaseUntil, hrow, hsome, ht⟩⟩ := claim_inv hc
    · simp only [transaction, hnone] at hr
      cases hr
    · simp only [transaction, hsome] at hr
      cases hr
      refine ⟨?_, row, leaseUntil, _, hrow, rfl⟩
      simp only [transaction, ht]
      exact mem_updateWhere.mpr ⟨row, hsel _ row hrow, by simp⟩

theorem claimed_lease {j : SQLiteJournal} {token : String} {b : Batch}
    (hop : op.leaseToken = some token) (hr : (exec cfg j op).1 = .ok (.batch (some b))) :
    b ∈ (step cfg j op).batches ∧ b.status = .leased ∧ b.fencingToken = some token := by
  obtain ⟨select, leaseSeconds, now, -, hexec, hsel⟩ := lease_call cfg j hop
  obtain ⟨hmem, row, leaseUntil, u, -, rfl⟩ :=
    claimed_stored hexec (fun u b hu => (hsel u b hu).1) hr
  exact ⟨hmem, rfl, rfl⟩

theorem claimed_readback {j : SQLiteJournal} {token : String} {b : Batch}
    (hop : op.readbackToken = some token) (hr : (exec cfg j op).1 = .ok (.batch (some b))) :
    b ∈ (step cfg j op).batches ∧ b.status = .reconciling ∧ b.fencingToken = some token := by
  obtain ⟨select, leaseSeconds, now, -, hexec, hsel⟩ := readback_call cfg j hop
  obtain ⟨hmem, row, leaseUntil, u, hu, rfl⟩ :=
    claimed_stored hexec (fun u b hu => (hsel u b hu).1) hr
  have hrow := (hsel u row hu).2
  simp only [reconcilable, Bool.and_eq_true, beq_iff_eq] at hrow
  exact ⟨hmem, hrow.1.1.1, rfl⟩

theorem drawn_of_claim {op : Input → Op} {token : String} (hop : (op i).claimToken = some token) :
    token ∈ (perform cfg s i (.journal op)).2.drawn := by
  show token ∈ (op i).claimToken.toList ++ s.drawn
  rw [hop]
  exact List.mem_cons_self

/-- What a claim tells about the record it returns. -/
theorem claim_writes {op : Input → Op} {Q : Batch → Shared → Prop}
    (hop : ∀ i, (op i).claimToken = some i.token) (hQ : ∀ b, (graphContract cfg).Stable (Q b))
    (hr : ∀ (s : Shared) i b, GraphInv cfg s → i.token ∉ s.drawn →
      (exec cfg s.journal (op i)).1 = .ok (.batch (some b)) →
      Q b (perform cfg s i (.journal op)).2) :
    Writes cfg (fun _ => True) (callBatch op) (fun r s => ∀ b, r = some b → Q b s)
      fun _ => True := by
  have hguar : ∀ (s : Shared) (i : Input), i.token ∉ s.drawn → (op i).Respects s := by
    intro s i ha
    have := hop i
    cases hi : op i <;>
      simp_all [Op.claimToken, Op.leaseToken, Op.readbackToken, Op.Respects]
  refine .bind (Q := fun reply s => ∀ b, reply = .batch (some b) → Q b s) ?_ fun reply => ?_
  · refine .call (fun r s => ∀ b, r = .ok (.batch (some b)) → Q b s)
      (fun s i _ ha _ => hguar s i ha) (fun r => ?_)
      (fun s i hi ha _ b hb => hr s i b hi ha hb) fun r => ?_
    · exact fun s i c hi ha hg h b hb => hQ b s i c hi ha hg (h b hb)
    · cases r with
      | ok reply => exact fun s _ h b hb => h b (by rw [hb])
      | error e => exact fun _ _ _ => trivial
  · split
    · exact fun s _ h b hb => h b (by rw [hb])
    · intro s _ _ b hb
      cases hb

/-- A claimed batch, and what holds of its token. -/
def Holding (F : String → String → Shared → Prop) (b : Batch) (s : Shared) : Prop :=
  Known b.toBatchCore s ∧ ∀ token, b.fencingToken = some token → F b.jobId token s

theorem holding_stable {F : String → String → Shared → Prop}
    (hF : ∀ jobId token, (graphContract cfg).Stable (F jobId token)) (b : Batch) :
    (graphContract cfg).Stable (Holding F b) :=
  fun s i c hi ha hg h => ⟨known_stable _ s i c hi ha hg h.1,
    fun token ht => hF _ token s i c hi ha hg (h.2 token ht)⟩

theorem lease_writes {op : Input → Op} (hop : ∀ i, (op i).leaseToken = some i.token) :
    Writes cfg (fun _ => True) (callBatch op)
      (fun r s => ∀ b, r = some b → Holding Executing b s) fun _ => True := by
  refine claim_writes (fun i => by simp [Op.claimToken, hop i])
    (holding_stable executing_stable) fun s i b hi _ hb => ?_
  obtain ⟨hmem, hl, -⟩ := claimed_lease (hop i) hb
  have hkeys := (hi.reachable.step cfg (op i)).inv.keys
  refine ⟨⟨b, hmem, rfl⟩, fun token ht => ⟨?_, fun b' hb' hj _ => .inl ?_⟩⟩
  · obtain rfl := Option.some.inj (ht.symm.trans (claimed_lease (hop i) hb).2.2)
    exact drawn_of_claim (by simp [Op.claimToken, hop i])
  · rw [hkeys.batch_eq hb' hmem hj]
    exact hl

theorem readback_writes {op : Input → Op} (hop : ∀ i, (op i).readbackToken = some i.token) :
    Writes cfg (fun _ => True) (callBatch op)
      (fun r s => ∀ b, r = some b → Holding Reading b s) fun _ => True := by
  have htoken : ∀ i, (op i).claimToken = some i.token := by
    intro i
    have := hop i
    cases hi : op i <;> simp_all [Op.claimToken, Op.leaseToken, Op.readbackToken]
  refine claim_writes htoken (holding_stable reading_stable) fun s i b hi ha hb => ?_
  obtain ⟨hmem, hrec, htok⟩ := claimed_readback (hop i) hb
  have hkeys := (hi.reachable.step cfg (op i)).inv.keys
  refine ⟨⟨b, hmem, rfl⟩, fun token ht => ?_⟩
  obtain rfl := Option.some.inj (ht.symm.trans htok)
  refine ⟨drawn_of_claim (htoken i), fun b' hb' hj _ => ⟨?_, fun hsub => ha ?_⟩⟩
  · rw [hkeys.batch_eq hb' hmem hj]
    exact hrec
  · exact hi.drawn _ _ hsub

namespace GraphWriteJournalConsumer

variable {py : Python} {compilers : Compilers} {consumer : GraphWriteJournalConsumer}

theorem load_ok {batch : Batch} {files : Files} {operation : GraphWriteOperation}
    {rows : List Json} (hl : load py batch files = .ok (operation, rows)) :
    operation.operationKey = batch.operationKey ∧ rows.length = batch.expectedCount := by
  unfold load at hl
  simp only at hl
  split at hl
  · cases hl
  · split at hl
    · cases hl
    · rename_i hkey
      split at hl
      · cases hl
      · split at hl
        · cases hl
        · split at hl
          · cases hl
          · rename_i hcount
            cases hl
            exact ⟨not_not.mp hkey, not_not.mp hcount⟩

theorem unguarded_watches : Watches Unguarded where
  readFiles := fun _ _ _ => trivial
  readback := fun _ _ _ _ => trivial
  audit := fun _ _ _ _ => trivial
  block := fun _ _ _ _ _ _ _ => trivial
  backOff := fun _ _ _ _ _ _ => trivial

theorem resolve_writes (batch : Batch) (token : String) (receipts : Nat) :
    Writes cfg (fun s => Known batch.toBatchCore s ∧
        (receipts = 1 → Committed s.graph.history batch.toBatchCore) ∧
        (receipts = 0 → FoundNone batch.jobId token s))
      (resolve batch token receipts) (fun _ _ => True) fun _ => True := by
  have htrue : (graphContract cfg).Stable fun _ => True := Contract.stable_true _
  unfold resolve
  split
  · rename_i hone
    refine .bind (call_writes htrue (fun _ _ => trivial) fun s i hi hs => ?_)
      fun _ => fun _ _ _ => trivial
    exact hs.1.respects_ack hi (hs.2.1 hone) _ _ _
  · split
    · exact .pre (.bind (unguarded_writes htrue (block_only unguarded_watches ..)) fun _ => fun _ _ _ => trivial)
        fun _ _ _ => trivial
    · rename_i hzero
      refine .bind (call_writes htrue (fun _ _ => trivial) fun s i hi hs => ?_)
        fun _ => fun _ _ _ => trivial
      exact (hs.2.2 (not_not.mp hzero)).2

theorem readback_reply (hi : GraphInv cfg s) {batch : Batch} {token : String} {r : Receipt}
    {operation : GraphWriteOperation} {rows : List Json} {files : Files}
    (hl : load py batch files = .ok (operation, rows))
    (hr : r = consumer.receiptOf batch operation rows) {n : Nat}
    (hn : (perform cfg s i (.readback r)).1 = .ok n) (hread : Reading batch.jobId token s) :
    (n = 1 → Committed (perform cfg s i (.readback r)).2.graph.history batch.toBatchCore) ∧
      (n = 0 → FoundNone batch.jobId token (perform cfg s i (.readback r)).2) := by
  obtain ⟨hkey, hcount⟩ := load_ok hl
  simp only [perform, Graph.readback] at hn ⊢
  split at hn
  · cases hn
  · rename_i ho
    obtain rfl := Except.ok.inj hn
    refine ⟨fun hone => ?_, fun hzero => ⟨⟨hread.1, fun b hb hj ht => ?_⟩, fun _ => ?_⟩⟩
    · obtain ⟨x, hx, hxr⟩ :=
        List.countP_pos_iff.mp (Nat.lt_of_lt_of_eq Nat.one_pos hone.symm)
      obtain rfl := of_decide_eq_true hxr
      refine ⟨_, List.mem_append_left _ (hi.receipts _ hx), ?_⟩
      rw [hr]
      exact ⟨rfl, hkey, hcount, rfl, rfl⟩
    · refine ⟨(hread.2 b hb hj ht).1, ?_⟩
      rintro ⟨held, hm⟩
      refine (hread.2 b hb hj ht).2 ⟨held, ?_⟩
      exact (List.mem_append.mp hm).resolve_right fun hm => by cases List.mem_singleton.mp hm
    · have hj : r.jobId = batch.jobId := by rw [hr]; rfl
      simp only [hzero, hj]
      exact answered_readback _ _ _

/-- `_reconcile_one` keeps its promises. -/
theorem reconcileOne_writes (batch : Batch) (token : String) :
    Writes cfg (fun s => Known batch.toBatchCore s ∧ Reading batch.jobId token s)
      (consumer.reconcileOne py batch token) (fun _ _ => True) fun _ => True := by
  have hstable : (graphContract cfg).Stable fun s =>
      Known batch.toBatchCore s ∧ Reading batch.jobId token s :=
    stable_and (known_stable batch.toBatchCore) (reading_stable batch.jobId token)
  have htrue : (graphContract cfg).Stable fun _ => True := Contract.stable_true _
  refine .bind (.mono (unguarded_writes hstable (.perform fun _ _ _ => trivial))
    (fun _ _ h => h) (fun _ _ _ h => h) fun _ _ _ _ => trivial) fun files => ?_
  split
  · exact .pre (.bind (unguarded_writes htrue (block_only unguarded_watches ..)) fun _ => fun _ _ _ => trivial)
      fun _ _ _ => trivial
  · rename_i operation rows hl
    refine .call (fun r s => Known batch.toBatchCore s ∧ ∀ n, r = .ok n →
        (n = 1 → Committed s.graph.history batch.toBatchCore) ∧
        (n = 0 → FoundNone batch.jobId token s))
      (fun s i _ _ _ => trivial) (fun r => ?_) (fun s i hi ha hs => ?_) fun r => ?_
    · intro s i c hi ha hg ⟨hk, hr⟩
      refine ⟨known_stable _ s i c hi ha hg hk, fun n hn => ⟨fun h1 => ?_, fun h0 => ?_⟩⟩
      · exact committed_stable _ s i c hi ha hg ((hr n hn).1 h1)
      · exact foundNone_stable _ _ s i c hi ha hg ((hr n hn).2 h0)
    · exact ⟨known_stable _ s i _ hi ha trivial hs.1, fun n hn => readback_reply hi hl rfl hn hs.2⟩
    · cases r with
      | error e =>
        exact .pre (unguarded_writes htrue (deferReadback_only unguarded_watches ..)) fun _ _ _ => trivial
      | ok receipts =>
        exact .pre (resolve_writes batch token receipts) fun s _ hs =>
          ⟨hs.1, (hs.2 receipts rfl).1, (hs.2 receipts rfl).2⟩

theorem settle_writes (batch : Batch) (token : String) (count : Nat) :
    Writes cfg (fun s => Known batch.toBatchCore s ∧ Submitted s.graph.history batch.jobId token ∧
        (count = batch.expectedCount → Committed s.graph.history batch.toBatchCore))
      (settle batch token count) (fun _ _ => True)
      fun s => Submitted s.graph.history batch.jobId token := by
  have hstable : (graphContract cfg).Stable fun s =>
      Submitted s.graph.history batch.jobId token := submitted_stable batch.jobId token
  unfold settle
  split
  · refine .pre (.bind (unguarded_writes hstable (block_only unguarded_watches ..)) fun _ => ?_)
      fun s _ hs => hs.2.1
    exact fun _ _ h => h
  · rename_i hcount
    refine .bind (call_writes hstable (fun s hs => hs.2.1) fun s i hi hs => ?_)
      fun _ => fun _ _ _ => trivial
    exact hs.1.respects_ack hi (hs.2.2 (not_not.mp hcount)) _ _ _

/-- `_execute_one` submits while its lease is the stored one only if the batch is leased. -/
theorem submit_writes (batch : Batch) (token : String) {operation : GraphWriteOperation}
    {rows : List Json} {files : Files} (hl : load py batch files = .ok (operation, rows))
    (query : Query) :
    Writes cfg (fun s => Known batch.toBatchCore s ∧ Executing batch.jobId token s)
      (submit batch token (consumer.mutationOf batch token operation query)) (fun _ _ => True)
      fun s => Submitted s.graph.history batch.jobId token := by
  obtain ⟨hkey, -⟩ := load_ok hl
  have hguar : ∀ s i, GraphInv cfg s → Known batch.toBatchCore s ∧ Executing batch.jobId token s →
      (Command.submit (consumer.mutationOf batch token operation query)).Guaranteed s i := by
    intro s i _ ⟨⟨x, hx, hc⟩, hd, hex⟩
    exact ⟨hd, ⟨x, hx, by rw [hc]; rfl⟩, hex⟩
  refine .call (fun r s => Known batch.toBatchCore s ∧
      Submitted s.graph.history batch.jobId token ∧
      ∀ count, r = .ok count → count = batch.expectedCount →
        Committed s.graph.history batch.toBatchCore)
    (fun s i hi _ hs => hguar s i hi hs) (fun r => ?_) (fun s i hi ha hs => ?_) fun r => ?_
  · intro s i c hi ha hg ⟨hk, hsub, hc⟩
    exact ⟨known_stable _ s i c hi ha hg hk, submitted_stable _ _ s i c hi ha hg hsub,
      fun n hn he => committed_stable _ s i c hi ha hg (hc n hn he)⟩
  · obtain ⟨rs, hhist, -, hreply⟩ := submit_graph s.graph
      (consumer.mutationOf batch token operation query) (s.journal.holds batch.jobId token)
      i.submission
    refine ⟨known_stable _ s i _ hi ha (hguar s i hi hs) hs.1, ?_, fun count hcount he => ?_⟩
    · refine ⟨s.journal.holds batch.jobId token, ?_⟩
      show _ ∈ (Graph.submit _ _ _ _).2.history
      simp only [mutationOf] at hhist ⊢
      rw [hhist]
      simp
    · refine ⟨(consumer.mutationOf batch token operation query).receipt count, ?_, rfl, hkey, he,
        rfl, rfl⟩
      show _ ∈ (Graph.submit _ _ _ _).2.history
      simp only [mutationOf] at hhist ⊢
      rw [hhist]
      exact List.mem_append_right _ (List.mem_map_of_mem (hreply count hcount))
  · cases r with
    | error e => exact fun s _ hs => hs.2.1
    | ok count =>
      exact .pre (settle_writes batch token count) fun s _ hs =>
        ⟨hs.1, hs.2.1, hs.2.2 count rfl⟩

theorem markAmbiguous_writes (batch : Batch) (token : String) (e : Raised) :
    Writes cfg (fun s => Submitted s.graph.history batch.jobId token)
      (markAmbiguous batch token e) (fun _ _ => True) fun _ => True := by
  unfold markAmbiguous
  split
  · exact fun _ _ _ => trivial
  · exact .bind (call_writes (Contract.stable_true _) (fun _ _ => trivial) fun s i _ hs => hs)
      fun _ => fun _ _ _ => trivial

/-- `_execute_one` keeps its promises. -/
theorem executeOne_writes (batch : Batch) (token : String) :
    Writes cfg (fun s => Known batch.toBatchCore s ∧ Executing batch.jobId token s)
      (consumer.executeOne py compilers batch token) (fun _ _ => True) fun _ => True := by
  have hstable : (graphContract cfg).Stable fun s =>
      Known batch.toBatchCore s ∧ Executing batch.jobId token s :=
    stable_and (known_stable batch.toBatchCore) (executing_stable batch.jobId token)
  have hblock : ∀ retryClass errorCode, Writes cfg (fun _ => True)
      (block batch token retryClass errorCode) (fun _ _ => True) fun _ => True :=
    fun _ _ => unguarded_writes (Contract.stable_true _) (block_only unguarded_watches ..)
  refine .bind (.mono (unguarded_writes hstable (.perform fun _ _ _ => trivial))
    (fun _ _ h => h) (fun _ _ _ h => h) fun _ _ _ _ => trivial) fun files => ?_
  split
  · exact .pre (.bind (hblock _ _) fun _ => fun _ _ _ => trivial) fun _ _ _ => trivial
  · rename_i operation rows hl
    split
    · exact .pre (.bind (hblock _ _) fun _ => fun _ _ _ => trivial) fun _ _ _ => trivial
    · exact fun _ _ _ => trivial
    · exact .handle (submit_writes batch token hl _) fun e => markAmbiguous_writes batch token e

theorem withToken_writes {F : String → String → Shared → Prop} {batch : Batch}
    {work : String → Client Unit}
    (h : ∀ token, Writes cfg (fun s => Known batch.toBatchCore s ∧ F batch.jobId token s)
      (work token) (fun _ _ => True) fun _ => True) :
    Writes cfg (Holding F batch) (withToken batch work) (fun _ _ => True) fun _ => True := by
  unfold withToken
  split
  · rename_i token ht
    split
    · exact fun _ _ _ => trivial
    · exact (h token).pre fun s _ hs => ⟨hs.1, hs.2 token ht⟩
  · exact fun _ _ _ => trivial

theorem sealEndpointAuditIfReady_unguarded :
    (consumer.sealEndpointAuditIfReady py compilers).Only Unguarded := by
  unfold sealEndpointAuditIfReady
  split
  · trivial
  · refine .bind (.perform fun _ _ _ => trivial) fun r => ?_
    split
    · trivial
    · split
      · exact .bind (call_only fun _ _ _ => trivial) fun _ => trivial
      · refine .bind (.perform fun _ _ _ => trivial) fun r => ?_
        split
        · trivial
        · split
          · trivial
          · refine .bind (.perform fun _ _ _ => trivial) fun batches => ?_
            refine .bind (auditBatches_only unguarded_watches ..) fun audited => ?_
            refine .bind (call_only fun _ _ _ => trivial) fun _ => ?_
            exact .bind (call_only fun _ _ _ => trivial) fun _ => trivial

/-- The loop of `drain` keeps its promises. -/
theorem drainLoop_writes (drained fuel : Nat) :
    Writes cfg (fun _ => True) (consumer.drainLoop py compilers drained fuel)
      (fun _ _ => True) fun _ => True := by
  induction fuel generalizing drained with
  | zero => exact fun _ _ _ => trivial
  | succ fuel ih =>
    have hexecute : ∀ pending : Batch, Writes cfg (Holding Executing pending)
        (Prog.bind (withToken pending (consumer.executeOne py compilers pending)) fun _ =>
          consumer.drainLoop py compilers (drained + 1) fuel) (fun _ _ => True) fun _ => True :=
      fun pending => .bind (withToken_writes fun token => executeOne_writes pending token)
        fun _ => ih _
    simp only [drainLoop]
    refine .bind (readback_writes fun _ => rfl) fun r => ?_
    split
    · rename_i ambiguous
      refine .pre (.bind (withToken_writes fun token => reconcileOne_writes ambiguous token)
        fun _ => ih _) fun s _ hs => hs ambiguous rfl
    · refine .pre (.bind (lease_writes fun _ => rfl) fun r => ?_) fun _ _ _ => trivial
      split
      · rename_i pending
        exact (hexecute pending).pre fun s _ hs => hs pending rfl
      · refine .pre (.bind (unguarded_writes (Contract.stable_true _)
          sealEndpointAuditIfReady_unguarded) fun _ => ?_) fun _ _ _ => trivial
        refine .bind (lease_writes fun _ => rfl) fun r => ?_
        split
        · rename_i pending
          exact (hexecute pending).pre fun s _ hs => hs pending rfl
        · exact fun _ _ _ => trivial

theorem init_unguarded (config : JournalConfig) : (init py config).Only Unguarded := by
  unfold init
  split
  · trivial
  · refine .bind (.perform fun _ _ _ => trivial) fun r => ?_
    split
    · trivial
    · exact .bind (call_only fun _ _ _ => trivial) fun _ => trivial

/-- **A consumer keeps its promises**, whatever happens between its commands. -/
theorem process_writes (config : JournalConfig) (fuel : Nat) :
    Writes cfg (fun _ => True) (process py compilers config fuel) (fun _ _ => True)
      fun _ => True := by
  refine .bind (unguarded_writes (Contract.stable_true _) (init_unguarded config))
    fun consumer => ?_
  refine .bind (.bind (unguarded_writes (Contract.stable_true _)
    sealEndpointAuditIfReady_unguarded) fun _ => consumer.drainLoop_writes 0 fuel) fun _ => ?_
  exact fun _ _ _ => trivial

end GraphWriteJournalConsumer

end CortexHarness.Journal
