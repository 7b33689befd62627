import CortexHarness.Journal.Attempts
import CortexHarness.Journal.Consumer

/-!
# What the history of the graph shows

The graph is not fenced: a consumer whose lease has been taken over can still submit. What the
journal guarantees is about the submissions that are made while their lease is the stored one.

* `Answered`: every such submission is followed by a readback that found no receipt;
* `Committed`: the mutation of a batch has committed with the expected count;
* `GraphInv`: an executable batch is answered, a leased one is answered up to its own lease, a
  `DONE` batch is committed, and each submission found the history before it answered or was not
  the first of its lease;
* `Command.Guaranteed` is what the consumers promise about their commands, and `graphContract` says
  that it preserves the invariant.
-/

namespace CortexHarness.Journal

open Table Clients Relation

variable {cfg : Config} {op : Op} {s : Shared} {i : Input} {h : List GraphEvent}

/-! ## Histories -/

/-- Every held submission of the batch, but those with one lease, is followed by a readback that
found no receipt. -/
def Answered (h : List GraphEvent) (jobId : String) (but : Option String) : Prop :=
  ∀ pre lease post, h = pre ++ .submitted jobId lease true :: post → some lease ≠ but →
    .readback jobId 0 ∈ post

/-- The mutation of the batch has committed, with the expected count. -/
def Committed (h : List GraphEvent) (b : BatchCore) : Prop :=
  ∃ r, .committed r ∈ h ∧ r.jobId = b.jobId ∧ r.operationKey = b.operationKey ∧
    r.rowCount = b.expectedCount ∧ r.artifactSha256 = b.artifact.sha256 ∧ r.runId = b.runId

/-- The batch has been submitted with the lease. -/
def Submitted (h : List GraphEvent) (jobId lease : String) : Prop :=
  ∃ held, .submitted jobId lease held ∈ h

/-- A held submission found the history before it answered, up to its own lease, unless its lease
had been submitted before. -/
def Spaced (h : List GraphEvent) : Prop :=
  ∀ pre jobId lease post, h = pre ++ .submitted jobId lease true :: post →
    Answered pre jobId (some lease) ∨ Submitted pre jobId lease

theorem split_append {es pre post : List GraphEvent} {e : GraphEvent}
    (hs : h ++ es = pre ++ e :: post) :
    (∃ post', h = pre ++ e :: post' ∧ post = post' ++ es) ∨
      ∃ new, pre = h ++ new ∧ es = new ++ e :: post := by
  rcases List.append_eq_append_iff.mp hs with ⟨new, hpre, hes⟩ | ⟨old, hh, hold⟩
  · exact .inr ⟨new, hpre, hes⟩
  · cases old with
    | nil => exact .inr ⟨[], by simpa using hh.symm, hold.symm⟩
    | cons e' post' =>
      obtain ⟨rfl, hpost⟩ := List.cons.inj hold
      exact .inl ⟨post', hh, hpost⟩

theorem Answered.weaken {jobId : String} {but : Option String} (ha : Answered h jobId none) :
    Answered h jobId but :=
  fun pre lease post hs _ => ha pre lease post hs nofun

theorem Answered.append {jobId : String} {but : Option String} (ha : Answered h jobId but)
    {es : List GraphEvent} (hes : ∀ lease, .submitted jobId lease true ∈ es → some lease = but) :
    Answered (h ++ es) jobId but := by
  intro pre lease post hs hne
  rcases split_append hs with ⟨post', hh, rfl⟩ | ⟨new, rfl, rfl⟩
  · exact List.mem_append_left _ (ha pre lease post' hh hne)
  · exact absurd (hes lease (by simp)) hne

theorem answered_readback (h : List GraphEvent) (jobId : String) (but : Option String) :
    Answered (h ++ [.readback jobId 0]) jobId but := by
  intro pre lease post hs _
  rcases split_append hs with ⟨post', -, rfl⟩ | ⟨new, rfl, hnew⟩
  · simp
  · have hmem : GraphEvent.submitted jobId lease true ∈ [GraphEvent.readback jobId 0] := by
      rw [hnew]
      simp
    cases List.mem_singleton.mp hmem

theorem answered_of_unsubmitted {jobId : String} {but : Option String}
    (hn : ∀ lease, ¬ Submitted h jobId lease) : Answered h jobId but := by
  rintro pre lease post rfl -
  exact absurd ⟨true, by simp⟩ (hn lease)

theorem Spaced.append (hsp : Spaced h) {es : List GraphEvent}
    (hes : ∀ jobId lease held, .submitted jobId lease held ∉ es) : Spaced (h ++ es) := by
  intro pre jobId lease post hs
  rcases split_append hs with ⟨post', hh, -⟩ | ⟨new, -, rfl⟩
  · exact hsp pre jobId lease post' hh
  · exact absurd (by simp) (hes jobId lease true)

theorem Spaced.submit (hsp : Spaced h) {jobId lease : String} {held : Bool}
    (hg : held = true → Answered h jobId (some lease) ∨ Submitted h jobId lease) :
    Spaced (h ++ [.submitted jobId lease held]) := by
  intro pre jobId' lease' post hs
  rcases split_append hs with ⟨post', hh, -⟩ | ⟨new, rfl, hnew⟩
  · exact hsp pre jobId' lease' post' hh
  · cases new with
    | nil =>
      obtain ⟨he, -⟩ := List.cons.inj hnew
      cases he
      simpa using hg rfl
    | cons e new =>
      have := congrArg List.length hnew
      simp at this

/-! ## The invariant -/

/-- What a stored batch says about the history. -/
structure RowClear (h : List GraphEvent) (b : Batch) : Prop where
  idle : b.status.executable = true → Answered h b.jobId none
  leased : b.status = .leased → ∀ token, b.fencingToken = some token →
    Answered h b.jobId (some token)
  done : b.status = .done → Committed h b.toBatchCore

/-- The invariant of the journal and the graph. -/
structure GraphInv (cfg : Config) (s : Shared) : Prop where
  reachable : Reachable cfg s.journal
  rows : ∀ b ∈ s.journal.batches, RowClear s.graph.history b
  known : ∀ jobId lease, Submitted s.graph.history jobId lease →
    ∃ b ∈ s.journal.batches, b.jobId = jobId
  drawn : ∀ jobId lease, Submitted s.graph.history jobId lease → lease ∈ s.drawn
  receipts : ∀ r ∈ s.graph.receipts, .committed r ∈ s.graph.history
  spaced : Spaced s.graph.history

theorem GraphInv.empty (cfg : Config) : GraphInv cfg {} where
  reachable := .empty cfg
  rows := fun _ hb => absurd hb List.not_mem_nil
  known := fun _ _ ⟨_, hm⟩ => absurd hm List.not_mem_nil
  drawn := fun _ _ ⟨_, hm⟩ => absurd hm List.not_mem_nil
  receipts := fun _ hr => absurd hr List.not_mem_nil
  spaced := fun pre _ _ _ hs => by simp at hs

/-- What a call of the journal must satisfy. -/
def Op.Respects (s : Shared) : Op → Prop
  | .claimBatch _ _ token _ => token ∉ s.drawn
  | .claimJob _ _ token _ => token ∉ s.drawn
  | .claimReconciling _ _ token _ => token ∉ s.drawn
  | .claimReconcilingJob _ _ token _ => token ∉ s.drawn
  | .ackBatch jobId _ _ _ =>
    ∀ b ∈ s.journal.batches, b.jobId = jobId → Committed s.graph.history b.toBatchCore
  | .markReconciling jobId token _ _ => Submitted s.graph.history jobId token
  | .scheduleRetry jobId token _ _ _ _ =>
    Stores s.journal jobId token → Answered s.graph.history jobId none
  | .deleteRun _ => False
  | _ => True

/-- What a command must satisfy. -/
def Command.Guaranteed (s : Shared) (i : Input) : Command → Prop
  | .journal call => (call i).Respects s
  | .submit m => m.lease ∈ s.drawn ∧ (∃ b ∈ s.journal.batches, b.jobId = m.jobId) ∧
      ∀ b ∈ s.journal.batches, b.jobId = m.jobId → b.fencingToken = some m.lease →
        b.status = .leased ∨ Submitted s.graph.history m.jobId m.lease
  | _ => True

theorem Op.Respects.claim (hr : op.Respects s) {token : String}
    (ht : op.claimToken = some token) : token ∉ s.drawn := by
  cases op <;> simp_all [Op.claimToken, Op.leaseToken, Op.readbackToken, Op.Respects]

/-! ## Rows under one call -/

theorem RowClear.append {b : Batch} (hc : RowClear h b) {es : List GraphEvent}
    (hidle : b.status.executable = true → ∀ lease, .submitted b.jobId lease true ∉ es)
    (hleased : ∀ lease, .submitted b.jobId lease true ∈ es → b.fencingToken = some lease) :
    RowClear (h ++ es) b where
  idle := fun hs => (hc.idle hs).append fun lease hm => absurd hm (hidle hs lease)
  leased := fun hs token ht => (hc.leased hs token ht).append fun lease hm =>
    (hleased lease hm).symm.trans ht
  done := fun hs => by
    obtain ⟨r, hm, hr⟩ := hc.done hs
    exact ⟨r, List.mem_append_left _ hm, hr⟩

theorem RowStep.clear {u : SQLiteJournal} {b b' : Batch} (hs : RowStep op u b b')
    (hc : RowClear h b)
    (hretry : ∀ token retryAt retryClass errorCode now,
      op = .scheduleRetry b.jobId token retryAt retryClass errorCode now →
      b.fencingToken = some token → Answered h b.jobId none)
    (hack : ∀ token ms now, op = .ackBatch b.jobId token ms now → Committed h b.toBatchCore) :
    RowClear h b' := by
  cases hs with
  | move hm =>
    cases hm with
    | keep => exact hc
    | lease hop hx => exact ⟨nofun, fun _ _ _ => (hc.idle hx).weaken, nofun⟩
    | readback hop hx =>
      exact ⟨hc.idle, fun hl => (nomatch hx.symm.trans hl), hc.done⟩
    | renew => exact ⟨hc.idle, hc.leased, hc.done⟩
    | recover => exact ⟨nofun, nofun, nofun⟩
    | release hx => exact ⟨hc.idle, nofun, hc.done⟩
    | mark => exact ⟨nofun, nofun, nofun⟩
    | retry hop ho => exact ⟨fun _ => hretry _ _ _ _ _ hop (ownedBy_held ho).2, nofun, nofun⟩
    | backOff => exact ⟨nofun, nofun, nofun⟩
  | ack hop => exact ⟨nofun, nofun, fun _ => hack _ _ _ hop⟩
  | fail _ _ hf => cases hf <;> exact ⟨nofun, nofun, nofun⟩
  | quarantine => exact ⟨nofun, nofun, nofun⟩

theorem RowChain.clear {b b' : Batch} (hch : RowChain op b b') (hc : RowClear h b)
    (hretry : ∀ token retryAt retryClass errorCode now,
      op = .scheduleRetry b.jobId token retryAt retryClass errorCode now →
      b.fencingToken = some token → Answered h b.jobId none)
    (hack : ∀ token ms now, op = .ackBatch b.jobId token ms now → Committed h b.toBatchCore) :
    RowClear h b' := by
  induction hch with
  | refl => exact hc
  | @tail b₁ b₂ hch hl ih =>
    obtain ⟨u, -, -, hs⟩ := hl
    have hcore := RowChain.core hch
    refine hs.clear ih ?_ ?_
    · rw [hcore]
      intro token retryAt retryClass errorCode now hop ht
      refine hretry token retryAt retryClass errorCode now hop ?_
      rcases RowChain.token hch ht with ht | hclaim
      · exact ht
      · rw [hop] at hclaim
        cases hclaim
    · rw [hcore]
      exact hack

theorem RowStep.holds {u : SQLiteJournal} {b b' : Batch} {token : String}
    (hs : RowStep op u b b') (ht : b'.fencingToken = some token)
    (hop : op.claimToken ≠ some token) :
    b.fencingToken = some token ∧ (b'.status = b.status ∨ (b.status = .leased ∧
      ∃ errorCode now, op = .markReconciling b.jobId token errorCode now)) := by
  have hb := hs.token ht |>.resolve_right hop
  refine ⟨hb, ?_⟩
  cases hs with
  | move hm =>
    cases hm with
    | keep => exact .inl rfl
    | lease hl =>
      obtain rfl : _ = token := Option.some.inj ht
      exact absurd (by simp [Op.claimToken, hl]) hop
    | readback => exact .inl rfl
    | renew => exact .inl rfl
    | recover => cases ht
    | release => cases ht
    | mark hm hl ho =>
      obtain rfl : _ = token := Option.some.inj ((ownedBy_held ho).2.symm.trans hb)
      exact .inr ⟨hl, _, _, hm⟩
    | retry => cases ht
    | backOff => cases ht
  | ack => cases ht
  | fail _ _ hf => cases hf <;> cases ht
  | quarantine => cases ht

theorem RowChain.holds {b b' : Batch} {token : String} (hch : RowChain op b b')
    (ht : b'.fencingToken = some token) (hop : op.claimToken ≠ some token) :
    b.fencingToken = some token ∧ (b'.status = b.status ∨ (b.status = .leased ∧
      ∃ errorCode now, op = .markReconciling b.jobId token errorCode now)) := by
  induction hch with
  | refl => exact ⟨ht, .inl rfl⟩
  | tail hch hl ih =>
    obtain ⟨u, -, -, hs⟩ := hl
    obtain ⟨ht₁, hstep⟩ := hs.holds ht hop
    obtain ⟨ht₀, hchain⟩ := ih ht₁
    refine ⟨ht₀, ?_⟩
    rcases hchain with hsame | hmark
    · rcases hstep with hstep | ⟨hl, hm⟩
      · exact .inl (hstep.trans hsame)
      · rw [RowChain.jobId hch] at hm
        exact .inr ⟨hsame ▸ hl, hm⟩
    · exact .inr hmark

/-! ## Commands keep the invariant -/

theorem journal_keeps (hi : GraphInv cfg s) (hr : op.Respects s) (drawn : List String) :
    GraphInv cfg { s with journal := step cfg s.journal op, drawn := drawn ++ s.drawn } where
  reachable := hi.reachable.step cfg op
  rows := by
    intro b' hb'
    have hinv := hi.reachable.inv
    rcases row_backward hinv op hb' with ⟨b, hb, hch⟩ | ⟨hnone, ht, hdone, -⟩
    · refine RowChain.clear hch (hi.rows b hb) ?_ ?_
      · rintro token retryAt retryClass errorCode now rfl ht
        exact hr ⟨b, hb, rfl, ht⟩
      · rintro token ms now rfl
        exact hr b hb rfl
    · have hun : ∀ lease, ¬ Submitted s.graph.history b'.jobId lease := by
        intro lease hsub
        obtain ⟨b, hb, hj⟩ := hi.known _ _ hsub
        exact getBatch_none.mp hnone b hb hj
      refine ⟨fun _ => answered_of_unsubmitted hun, fun _ _ h => ?_, fun h => absurd h hdone⟩
      rw [ht] at h
      cases h
  known := by
    intro jobId lease hsub
    obtain ⟨b, hb, rfl⟩ := hi.known jobId lease hsub
    rcases row_forward cfg hi.reachable.inv op hb with ⟨b', hb', hch⟩ | rfl
    · exact ⟨b', hb', RowChain.jobId hch⟩
    · exact absurd hr (by simp [Op.Respects])
  drawn := fun jobId lease hsub => List.mem_append_right _ (hi.drawn jobId lease hsub)
  receipts := hi.receipts
  spaced := hi.spaced

theorem mem_mergeReceipt {r x : Receipt} {receipts : List Receipt}
    (hx : x ∈ mergeReceipt r receipts) : x = r ∨ x ∈ receipts := by
  unfold mergeReceipt at hx
  split at hx
  · obtain ⟨y, hy, rfl⟩ := List.mem_map.mp hx
    split
    · exact .inl rfl
    · exact .inr hy
  · rcases List.mem_append.mp hx with hx | hx
    · exact .inr hx
    · exact .inl (List.mem_singleton.mp hx)

theorem submit_graph (g : Graph) (m : Mutation) (held : Bool) (submission : Submission) :
    ∃ rs : List Receipt,
      (g.submit m held submission).2.history =
        g.history ++ [.submitted m.jobId m.lease held] ++ rs.map .committed ∧
      (∀ r ∈ (g.submit m held submission).2.receipts, r ∈ g.receipts ∨ r ∈ rs) ∧
      ∀ count, (g.submit m held submission).1 = .ok count → m.receipt count ∈ rs := by
  cases submission with
  | commits count =>
    refine ⟨[m.receipt count], by simp [Graph.submit, Submission.apply], fun r hr => ?_, ?_⟩
    · rcases mem_mergeReceipt hr with rfl | hr
      · exact .inr (List.mem_singleton.mpr rfl)
      · exact .inl hr
    · intro n hn
      cases hn
      exact List.mem_singleton.mpr rfl
  | loses count e =>
    refine ⟨[m.receipt count], by simp [Graph.submit, Submission.apply], fun r hr => ?_, nofun⟩
    rcases mem_mergeReceipt hr with rfl | hr
    · exact .inr (List.mem_singleton.mpr rfl)
    · exact .inl hr
  | refuses e =>
    exact ⟨[], by simp [Graph.submit, Submission.apply], fun r hr => .inl hr, nofun⟩

theorem holds_iff {j : SQLiteJournal} {jobId token : String} :
    j.holds jobId token = true ↔ Stores j jobId token := by
  simp only [SQLiteJournal.holds, List.any_eq_true, Bool.and_eq_true, beq_iff_eq]
  rfl

/-- The submissions in a history after one more. -/
theorem submitted_append {jobId lease jobId' lease' : String} {held : Bool} {rs : List Receipt}
    (hs : Submitted (h ++ [.submitted jobId lease held] ++ rs.map .committed) jobId' lease') :
    Submitted h jobId' lease' ∨ (jobId' = jobId ∧ lease' = lease) := by
  obtain ⟨held', hm⟩ := hs
  rcases List.mem_append.mp hm with hm | hm
  · rcases List.mem_append.mp hm with hm | hm
    · exact .inl ⟨held', hm⟩
    · cases List.mem_singleton.mp hm
      exact .inr ⟨rfl, rfl⟩
  · obtain ⟨r, -, hr⟩ := List.mem_map.mp hm
    cases hr

theorem submitted_mono {jobId lease : String} (hs : Submitted h jobId lease)
    (es : List GraphEvent) : Submitted (h ++ es) jobId lease := by
  obtain ⟨held, hm⟩ := hs
  exact ⟨held, List.mem_append_left _ hm⟩

/-- A submission that its client may make keeps the invariant. -/
theorem submit_keeps (hi : GraphInv cfg s) {m : Mutation}
    (hg : (Command.submit m).Guaranteed s i) :
    GraphInv cfg (perform cfg s i (.submit m)).2 := by
  obtain ⟨hdrawn, hknown, hleased⟩ := hg
  have hinv := hi.reachable.inv
  obtain ⟨rs, hhist, hrec, -⟩ :=
    submit_graph s.graph m (s.journal.holds m.jobId m.lease) i.submission
  have hnew : ∀ b ∈ s.journal.batches, ∀ lease, GraphEvent.submitted b.jobId lease true ∈
      [GraphEvent.submitted m.jobId m.lease (s.journal.holds m.jobId m.lease)] ++
        rs.map .committed → b.fencingToken = some lease := by
    intro b hb lease hm
    rcases List.mem_append.mp hm with hm | hm
    · obtain ⟨hj, hl, hh⟩ := GraphEvent.submitted.inj (List.mem_singleton.mp hm)
      obtain ⟨x, hx, hxj, hxt⟩ := holds_iff.mp hh.symm
      obtain rfl : x = b := hinv.keys.batch_eq hx hb (hxj.trans hj.symm)
      rw [hl]
      exact hxt
    · obtain ⟨r, -, hr⟩ := List.mem_map.mp hm
      cases hr
  simp only [perform]
  refine ⟨hi.reachable, fun b hb => ?_, fun jobId lease hsub => ?_, fun jobId lease hsub => ?_,
    fun r hr => ?_, ?_⟩
  · simp only [hhist, List.append_assoc]
    refine (hi.rows b hb).append (fun hx lease hm => ?_) (hnew b hb)
    have ht := (hinv.valid b hb).unfenced (held_of_executable hx)
    rw [hnew b hb lease hm] at ht
    cases ht
  · simp only [hhist] at hsub
    rcases submitted_append hsub with hsub | ⟨rfl, -⟩
    · exact hi.known jobId lease hsub
    · exact hknown
  · simp only [hhist] at hsub
    rcases submitted_append hsub with hsub | ⟨-, rfl⟩
    · exact hi.drawn jobId lease hsub
    · exact hdrawn
  · simp only [hhist]
    rcases hrec r hr with hr | hr
    · exact List.mem_append_left _ (List.mem_append_left _ (hi.receipts r hr))
    · exact List.mem_append_right _ (List.mem_map_of_mem hr)
  · simp only [hhist]
    refine Spaced.append (hi.spaced.submit fun hh => ?_) fun jobId lease held hm => ?_
    · obtain ⟨b, hb, hj, ht⟩ := holds_iff.mp hh
      refine (hleased b hb hj ht).imp_left fun hl => ?_
      rw [← hj]
      exact (hi.rows b hb).leased hl _ ht
    · obtain ⟨r, -, hr⟩ := List.mem_map.mp hm
      cases hr

theorem readback_keeps (hi : GraphInv cfg s) (r : Receipt) :
    GraphInv cfg (perform cfg s i (.readback r)).2 := by
  simp only [perform, Graph.readback]
  split
  · exact hi
  · have hun : ∀ {jobId lease held n}, GraphEvent.submitted jobId lease held ∉
        [GraphEvent.readback r.jobId n] := fun hm => by cases List.mem_singleton.mp hm
    have hold : ∀ {jobId lease n}, Submitted (s.graph.history ++ [.readback r.jobId n]) jobId lease →
        Submitted s.graph.history jobId lease := by
      rintro jobId lease n ⟨held, hm⟩
      rcases List.mem_append.mp hm with hm | hm
      · exact ⟨held, hm⟩
      · exact absurd hm hun
    exact ⟨hi.reachable, fun b hb => (hi.rows b hb).append (fun _ _ => hun) fun _ hm =>
      absurd hm hun, fun jobId lease hsub => hi.known jobId lease (hold hsub),
      fun jobId lease hsub => hi.drawn jobId lease (hold hsub),
      fun x hx => List.mem_append_left _ (hi.receipts x hx), hi.spaced.append fun _ _ _ => hun⟩

/-- The consumers at a graph: the tokens that claims draw are new. -/
def graphContract (cfg : Config) : Contract (perform cfg) where
  inv := GraphInv cfg
  admits s i := i.token ∉ s.drawn
  guar s i c := c.Guaranteed s i
  keeps := by
    intro s i c hi _ hg
    cases c with
    | journal call => exact journal_keeps hi hg _
    | submit m => exact submit_keeps hi hg
    | readback r => exact readback_keeps hi r
    | _ => exact hi

end CortexHarness.Journal
