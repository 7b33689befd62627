import CortexHarness.Journal.Audit
import CortexHarness.Journal.Runtime

/-!
# The node-first protocol

In a run with the node-first query shape, edges wait for all nodes: a batch of nodes produces
`phase:nodes`, every other batch requires `phase:nodes` and `audit:endpoints`, the runtime closes
the first barrier after it has completed the producers, and a consumer closes the second after the
endpoint audit is sealed.

The journal enforces none of this; its clients do. `Promise` is what they guarantee of each call,
and `NodeFirst` is what the run then satisfies:

* `step_nodeFirst`: a call that keeps the promise keeps the invariant;
* `released`: a call that leases a batch of another phase finds the nodes done, the producers
  complete and the audit sealed;
* `completed_adds_none`: after completion no batch is added.
-/

namespace CortexHarness.Journal

open Table

variable {cfg : Config} {op : Op} {s u v : SQLiteJournal} {runId : String}

/-! ## The journal -/

/-- The barrier contract of a batch in a node-first run. -/
structure NodeFirstBarriers (phase : OperationPhase) (required produced : List String) : Prop where
  nodes : phase = .nodes → nodePhaseBarrier ∈ produced
  others : phase ≠ .nodes → nodePhaseBarrier ∈ required ∧ endpointAuditBarrier ∈ required

/-- What the clients of a node-first run guarantee of a call in the state `s`. -/
def Promise (runId : String) (s : SQLiteJournal) : Op → Prop
  | .enqueueBatch r spec _ _ _ =>
    r = runId → NodeFirstBarriers spec.phase spec.requiredBarriers spec.producedBarriers
  | .closeBarrier r name _ => r = runId →
    (name = nodePhaseBarrier → s.productionComplete runId = true) ∧
    (name = endpointAuditBarrier → ∃ a ∈ s.endpointAudits, a.runId = runId)
  | .deleteRun r => r ≠ runId
  | _ => True

/-- What a node-first run satisfies. -/
structure NodeFirst (runId : String) (s : SQLiteJournal) : Prop where
  barriers : ∀ b ∈ s.batches, b.runId = runId →
    NodeFirstBarriers b.phase b.requiredBarriers b.producedBarriers
  closedNodes : ∀ x ∈ s.barriers, x.runId = runId → x.name = nodePhaseBarrier →
    x.closedAt.isSome = true → s.productionComplete runId = true
  closedAudit : ∀ x ∈ s.barriers, x.runId = runId → x.name = endpointAuditBarrier →
    x.closedAt.isSome = true → ∃ a ∈ s.endpointAudits, a.runId = runId

theorem NodeFirst.empty : NodeFirst runId .empty :=
  ⟨fun _ h => absurd h List.not_mem_nil, fun _ h => absurd h List.not_mem_nil,
    fun _ h => absurd h List.not_mem_nil⟩

/-- The completion marker stays. -/
theorem Move.complete_forward (h : Move cfg op u v) (hop : op ≠ .deleteRun runId)
    (hc : u.productionComplete runId = true) : v.productionComplete runId = true := by
  obtain ⟨p, hp, hr, hid, hs⟩ := productionComplete_iff.mp hc
  have hkeep : p ∈ v.producers → v.productionComplete runId = true :=
    fun hm => productionComplete_iff.mpr ⟨p, hm, hr, hid, hs⟩
  cases h with
  | enqueue t run spec jobId rows now artifacts barriers h ht hpr =>
    have hs := stageBatch_other (ne_of_incomplete hc h.incomplete) ht
    exact hkeep (mem_of_filter_eq hs.producers.symm hp (by simp [hr]))
  | reject t run spec jobId rows now artifacts failure g h ht hf hg =>
    have hs := stageBatch_other (ne_of_incomplete hc h.incomplete) ht
    exact hkeep (mem_of_filter_eq hs.producers.symm hp (by simp [hr]))
  | complete r now hop' hr' hno he hm =>
    refine hkeep (List.mem_append_left _ (mem_updateWhere.mpr ⟨p, hp, ?_⟩))
    simp [hs]
  | delete r hdel =>
    refine hkeep (List.mem_filter.mpr ⟨hp, ?_⟩)
    rw [bne_iff_ne, hr]
    exact fun he => hop (he ▸ hdel)
  | _ => exact hkeep hp

theorem Move.closed_backward (h : Move cfg op u v) {x' : Barrier} (hx' : x' ∈ v.barriers)
    (hc : x'.closedAt.isSome = true) :
    (∃ x ∈ u.barriers, x.runId = x'.runId ∧ x.name = x'.name ∧ x.closedAt.isSome = true) ∨
      ∃ now, op = .closeBarrier x'.runId x'.name now := by
  have hold : x' ∈ u.barriers →
      (∃ x ∈ u.barriers, x.runId = x'.runId ∧ x.name = x'.name ∧ x.closedAt.isSome = true) ∨
        ∃ now, op = .closeBarrier x'.runId x'.name now := fun hm => .inl ⟨x', hm, rfl, rfl, hc⟩
  cases h with
  | ack b token ms now barriers hop hb ho hd =>
    obtain ⟨g, rfl, hg, -⟩ := hd
    obtain ⟨x, hx, rfl⟩ := List.mem_map.mp hx'
    have hgx := hg x hx
    split at hgx
    · unfold Barrier.drain at hgx
      split at hgx
      · have hgx := (Option.some.inj hgx).symm
        rw [hgx] at hc ⊢
        exact .inl ⟨x, hx, rfl, rfl, hc⟩
      · cases hgx
    · rw [hgx] at hc ⊢
      exact .inl ⟨x, hx, rfl, rfl, hc⟩
  | enqueue t run spec jobId rows now artifacts barriers h ht hp =>
    obtain ⟨g, fresh, rfl, -, -, hg⟩ := hp
    rcases List.mem_append.mp hx' with hm | hm
    · obtain ⟨x, hx, rfl⟩ := List.mem_map.mp hm
      have hgx := hg x hx
      split at hgx
      · rw [hgx.2] at hc ⊢
        exact .inl ⟨x, hx, rfl, rfl, hc⟩
      · rw [hgx] at hc ⊢
        exact .inl ⟨x, hx, rfl, rfl, hc⟩
    · obtain ⟨n, -, rfl⟩ := List.mem_map.mp hm
      cases hc
  | reject t run spec jobId rows now artifacts failure g h ht hf hg =>
    exact hold ((stageBatch_frame ht).barriers ▸ hx')
  | openBarrier r name now hop hr hn =>
    rcases List.mem_append.mp hx' with hm | hm
    · exact hold hm
    · rw [List.mem_singleton.mp hm] at hc
      cases hc
  | closeBarrier r name now barrier hop hr hb hs =>
    obtain ⟨x, hx, rfl⟩ := mem_updateWhere.mp hx'
    split
    · rename_i hk
      simp only [decide_eq_true_eq] at hk
      obtain ⟨hxr, hxn⟩ := Prod.mk.inj hk
      exact .inr ⟨now, by rw [hop, ← hxr, ← hxn]; rfl⟩
    · rename_i hk
      rw [if_neg hk] at hc
      exact .inl ⟨x, hx, rfl, rfl, hc⟩
  | delete r hop => exact hold (List.mem_of_mem_filter hx')
  | _ => exact hold hx'

/-- The facts that the promise of a later call rests on are never lost. -/
theorem Move.promise (h : Move cfg op u v) {op' : Op} (hop : op ≠ .deleteRun runId)
    (hp : Promise runId u op') : Promise runId v op' := by
  cases op' with
  | closeBarrier r name now =>
    intro hr
    obtain ⟨hn, ha⟩ := hp hr
    refine ⟨fun he => h.complete_forward hop (hn he), fun he => ?_⟩
    obtain ⟨a, ham, har⟩ := ha he
    exact ⟨a, h.audit_forward ham (har ▸ hop), har⟩
  | _ => exact hp

theorem Promise.not_delete (h : Promise runId s op) : op ≠ .deleteRun runId := by
  rintro rfl
  exact h rfl

theorem Move.nodeFirst (h : Move cfg op u v) (hi : Inv u) (hp : Promise runId u op)
    (hn : NodeFirst runId u) : NodeFirst runId v := by
  have hdel := hp.not_delete
  refine ⟨fun b' hb' hid => ?_, fun x' hx' hid hname hc => ?_, fun x' hx' hid hname hc => ?_⟩
  · rcases h.batch_backward hi.keys hb' with ⟨b, hb, hs⟩ | ⟨run, spec, jobId, now, ha, hnew⟩
    · rw [hs.core] at hid ⊢
      exact hn.barriers b hb hid
    · obtain ⟨files, free, rfl⟩ := ha.call
      have hrun : run.runId = runId := by rcases hnew with rfl | ⟨d, rfl⟩ <;> exact hid
      have hspec := hp hrun
      rcases hnew with rfl | ⟨d, rfl⟩ <;>
      exact ⟨fun h => mem_sortedSet.mpr (hspec.nodes h),
        fun h => ⟨mem_sortedSet.mpr (hspec.others h).1, mem_sortedSet.mpr (hspec.others h).2⟩⟩
  · rcases h.closed_backward hx' hc with ⟨x, hx, hr, hxn, hxc⟩ | ⟨now, rfl⟩
    · exact h.complete_forward hdel (hn.closedNodes x hx (hr.trans hid) (hxn.trans hname) hxc)
    · exact h.complete_forward hdel ((hp hid).1 hname)
  · have hold : ∃ a ∈ u.endpointAudits, a.runId = runId := by
      rcases h.closed_backward hx' hc with ⟨x, hx, hr, hxn, hxc⟩ | ⟨now, rfl⟩
      · exact hn.closedAudit x hx (hr.trans hid) (hxn.trans hname) hxc
      · exact (hp hid).2 hname
    obtain ⟨a, ham, har⟩ := hold
    exact ⟨a, h.audit_forward ham (har ▸ hdel), har⟩

/-- **A call that keeps the promise keeps the run node-first.** -/
theorem step_nodeFirst (hi : Inv s) (hp : Promise runId s op) (hn : NodeFirst runId s) :
    NodeFirst runId (step cfg s op) := by
  refine (step_of_move (I := fun t => Promise runId t op ∧ NodeFirst runId t) hi op
    (fun u v hu hm h => ?_) ⟨hp, hn⟩).2
  exact ⟨hm.promise hp.not_delete h.1, hm.nodeFirst hu h.1 h.2⟩

theorem step_complete (hi : Inv s) (hop : op ≠ .deleteRun runId)
    (hc : s.productionComplete runId = true) :
    (step cfg s op).productionComplete runId = true :=
  step_of_move (I := fun t => t.productionComplete runId = true) hi op
    (fun _ _ _ hm h => hm.complete_forward hop h) hc

theorem step_sealed (hi : Inv s) (hop : op ≠ .deleteRun runId)
    (hc : ∃ a ∈ s.endpointAudits, a.runId = runId) :
    ∃ a ∈ (step cfg s op).endpointAudits, a.runId = runId := by
  refine step_of_move (I := fun t => ∃ a ∈ t.endpointAudits, a.runId = runId) hi op
    (fun _ _ _ hm h => ?_) hc
  obtain ⟨a, ha, hr⟩ := h
  exact ⟨a, hm.audit_forward ha (hr ▸ hop), hr⟩

/-! ## What a lease finds -/

/-- What holds when a batch of another phase is leased. -/
structure Released (runId : String) (s : SQLiteJournal) : Prop where
  /-- every node batch of the run is done -/
  nodes : ∀ b ∈ s.batches, b.runId = runId → b.phase = .nodes → b.status = .done
  /-- `complete_producers` has been recorded -/
  complete : s.productionComplete runId = true
  /-- an audit of exactly the edge rows of the run is sealed -/
  audit : ∃ a ∈ s.endpointAudits, a.runId = runId ∧ a.status = .sealed ∧
    a.receiptCount = s.edgeManifest.countP fun m => m.runId == runId

/-- **A batch of another phase is leased only after the nodes, the producers and the audit.** -/
theorem released (h : Reachable cfg s) (hn : NodeFirst runId s) {jobId : String}
    (hl : leasedJob cfg s op = some jobId) {b : Batch} (hb : b ∈ s.batches) (hj : b.jobId = jobId)
    (hr : b.runId = runId) (hp : b.phase ≠ .nodes) : Released runId s := by
  have hi := h.inv
  have hbar := h.barrierInv
  obtain ⟨b₀, b', hlease, hj₀⟩ := leasedJob_inv hl
  obtain rfl : b₀ = b := hi.keys.batch_eq hlease.mem hb (hj₀.trans hj.symm)
  obtain ⟨hnodes, haudit⟩ := (hn.barriers b₀ hb hr).others hp
  have hdrained : ∀ n ∈ b₀.requiredBarriers,
      ∃ x ∈ s.barriers, x.runId = runId ∧ x.name = n ∧ x.status = .drained := by
    intro n hmem
    have hdn := List.all_eq_true.mp hlease.drained n hmem
    split at hdn
    · rename_i x hget
      obtain ⟨hx, hxr, hxn⟩ := (getBarrier_some hi.keys.barriers).mp hget
      exact ⟨x, hx, hxr.trans hr, hxn, by simpa using hdn⟩
    · cases hdn
  obtain ⟨x, hx, hxr, hxn, hxs⟩ := hdrained _ hnodes
  obtain ⟨y, hy, hyr, hyn, hys⟩ := hdrained _ haudit
  refine ⟨fun c hc hcr hcp => ?_, ?_, ?_⟩
  · refine done_of_drained hi hbar hx hxs (hxr ▸ hr ▸ hlease.active) c hc (hcr.trans hxr.symm) ?_
    rw [hxn]
    exact (hn.barriers c hc hcr).nodes hcp
  · exact hn.closedNodes x hx hxr hxn ((hbar.counted x hx).drained_iff.mp hxs).1
  · obtain ⟨a, ha, har⟩ := hn.closedAudit y hy hyr hyn ((hbar.counted y hy).drained_iff.mp hys).1
    refine ⟨a, ha, har, by cases a.status; rfl, ?_⟩
    rw [(h.auditInv a ha).count_eq, edgeRows_length, har]
    rfl

/-! ## After completion -/

/-- After completion no batch is added to the run, until it is purged. -/
theorem completed_adds_none (hi : Inv s) (hc : s.productionComplete runId = true) (ops : List Op)
    (hops : .deleteRun runId ∉ ops) :
    ∀ b' ∈ (runOps cfg s ops).batches, b'.runId = runId →
      ∃ b ∈ s.batches, b.toBatchCore = b'.toBatchCore := by
  refine (run_of_move (I := fun t => t.productionComplete runId = true ∧
      ∀ b' ∈ t.batches, b'.runId = runId → ∃ b ∈ s.batches, b.toBatchCore = b'.toBatchCore)
    (A := fun op => op ≠ .deleteRun runId) hi (fun op u v hop hu hm h => ?_)
    ⟨hc, fun b hb _ => ⟨b, hb, rfl⟩⟩ ops fun op hop he => hops (he ▸ hop)).2
  refine ⟨hm.complete_forward hop h.1, fun b' hb' hid => ?_⟩
  rcases hm.batch_backward hu.keys hb' with ⟨b, hb, hs⟩ | ⟨run, spec, jobId, now, ha, hnew⟩
  · rw [hs.core] at hid ⊢
    exact h.2 b hb hid
  · have hrun : run.runId = runId := by rcases hnew with rfl | ⟨d, rfl⟩ <;> exact hid
    exact absurd hrun (ne_of_incomplete h.1 ha.incomplete)

end CortexHarness.Journal
