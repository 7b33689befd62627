import CortexHarness.Journal.Ledger

/-!
# The sealed endpoint audit

Producer completion forbids every later enqueue, acknowledgements touch only columns the digest does
not cover, and node conservation has been reached, so nothing a sealed audit depends on changes.

* `Move.frozen`: after completion, a move leaves the covered columns of a run as they are, unless it
  deletes the run;
* `AuditInv`: every stored audit matches the manifests of its run;
* `sealed_audit_stable`: what holds after a successful `seal_endpoint_audit`.
-/

namespace CortexHarness.Journal

open Table

variable {cfg : Config} {op : Op} {s t u v : SQLiteJournal} {runId : String}

/-! ## After producer completion -/

theorem productionComplete_iff : s.productionComplete runId = true ↔
    ∃ p ∈ s.producers, p.runId = runId ∧ p.producerId = producersCompleteId ∧
      p.status = .complete := by
  simp [SQLiteJournal.productionComplete, and_assoc]

/-- Every staged node row of the run has been acknowledged and verified. -/
def NodesAcked (s : SQLiteJournal) (runId : String) : Prop :=
  ∀ m ∈ s.nodeManifest, m.runId = runId → m.disposition = .stagedUnique →
    m.acked = true ∧ m.graphVerified = true

/-- What a sealed audit depends on is the same in both states: the producers and the node rows, and
the edge and endpoint rows in every column the digest covers. -/
structure Frozen (u v : SQLiteJournal) (runId : String) : Prop where
  producers : v.producers.filter (fun p => p.runId == runId) =
    u.producers.filter fun p => p.runId == runId
  nodes : v.nodeManifest.filter (fun m => m.runId == runId) =
    u.nodeManifest.filter fun m => m.runId == runId
  edges : edgeRows v runId = edgeRows u runId
  endpoints : endpointRows v runId = endpointRows u runId

theorem Frozen.refl (u : SQLiteJournal) (runId : String) : Frozen u u runId :=
  ⟨rfl, rfl, rfl, rfl⟩

theorem Frozen.trans (h : Frozen s u runId) (h' : Frozen u v runId) : Frozen s v runId :=
  ⟨h'.producers.trans h.producers, h'.nodes.trans h.nodes, h'.edges.trans h.edges,
    h'.endpoints.trans h.endpoints⟩

theorem SameStaging.frozen (h : SameStaging u v runId) : Frozen u v runId :=
  ⟨h.producers, h.nodes, by simp only [edgeRows, h.edges], h.endpoints⟩

/-- An acknowledgement touches no covered column. -/
theorem edgeRows_ack (rows : List ManifestRow) (jobId : String) :
    ((ackRows jobId rows).filter fun m => m.runId == runId).map ManifestRow.edgeColumns =
      (rows.filter fun m => m.runId == runId).map ManifestRow.edgeColumns := by
  rw [ackRows, updateWhere, List.filter_map, List.map_map]
  have hcol : ∀ m : ManifestRow, (ManifestRow.edgeColumns ∘ fun r =>
      if (r.jobId == jobId && r.disposition == .stagedUnique) = true then
        { r with acked := true, graphVerified := true } else r) m = m.edgeColumns := by
    intro m
    simp only [Function.comp]
    split <;> rfl
  rw [List.map_congr_left fun m _ => hcol m]
  congr 1
  refine List.filter_congr fun m _ => ?_
  simp only [Function.comp]
  split <;> rfl

theorem ne_of_incomplete (hc : u.productionComplete runId = true) {r : String}
    (hr : u.productionComplete r = false) : r ≠ runId := by
  rintro rfl
  rw [hc] at hr
  cases hr

/-- **After completion a move leaves what an audit depends on as it is**, unless it deletes the
run. -/
theorem Move.frozen (h : Move cfg op u v) (hc : u.productionComplete runId = true)
    (hn : NodesAcked u runId) :
    Frozen u v runId ∨ (op = .deleteRun runId ∧ v = Journal.deleteRun u runId) := by
  cases h with
  | ack b token ms now barriers hop hb ho hd =>
    refine .inl ⟨rfl, ?_, edgeRows_ack _ _, rfl⟩
    refine filter_map_fixed (fun m _ => by split <;> rfl) fun m hm hid => ?_
    split
    · rename_i hsel
      simp only [Bool.and_eq_true, beq_iff_eq] at hsel
      obtain ⟨ha, hv⟩ := hn m hm (eq_of_beq hid) hsel.2
      cases m
      simp only at ha hv
      simp only [ha, hv]
    · rfl
  | enqueue t run spec jobId rows now artifacts barriers h ht hp =>
    have hs := stageBatch_other (ne_of_incomplete hc h.incomplete) ht
    exact .inl ⟨hs.producers, hs.nodes, hs.frozen.edges, hs.endpoints⟩
  | reject t run spec jobId rows now artifacts failure g h ht hf hg =>
    have hs := stageBatch_other (ne_of_incomplete hc h.incomplete) ht
    exact .inl ⟨hs.producers, hs.nodes, hs.frozen.edges, hs.endpoints⟩
  | complete r now hop hr hno he hm =>
    have hne : r ≠ runId := by
      rintro rfl
      obtain ⟨p, hp, hpr, hpid, -⟩ := productionComplete_iff.mp hc
      exact lookup_eq_none.mp hm p hp (by rw [hpr, hpid])
    refine .inl ⟨?_, rfl, rfl, rfl⟩
    simp only [closeProducers]
    rw [filter_append_none]
    · refine filter_map_fixed (fun p _ => by split <;> rfl) fun p _ hid => if_neg ?_
      simp only [Bool.and_eq_true, beq_iff_eq]
      exact fun hx => hne (hx.1.symm.trans (eq_of_beq hid))
    · intro p hp
      rw [List.mem_singleton.mp hp]
      exact beq_false_of_ne hne
  | delete r hdel =>
    by_cases hne : runId = r
    · exact .inr ⟨hne ▸ hdel, by rw [hne]⟩
    refine .inl (SameStaging.frozen ⟨?_, ?_, ?_, ?_⟩) <;>
    · refine filter_filter_keep fun x _ hid => ?_
      rw [bne_iff_ne, eq_of_beq hid]
      exact hne
  | _ => exact .inl ⟨rfl, rfl, rfl, rfl⟩

/-- A selection that is the same holds the same rows. -/
theorem mem_of_filter_eq {α : Type} {p : α → Bool} {l l' : List α} (h : l'.filter p = l.filter p)
    {x : α} (hx : x ∈ l') (hp : p x = true) : x ∈ l :=
  List.mem_of_mem_filter (h ▸ List.mem_filter.mpr ⟨hx, hp⟩)

theorem Frozen.complete (h : Frozen u v runId) (hc : u.productionComplete runId = true) :
    v.productionComplete runId = true := by
  obtain ⟨p, hp, hr, hrest⟩ := productionComplete_iff.mp hc
  exact productionComplete_iff.mpr ⟨p, mem_of_filter_eq h.producers.symm hp (by simp [hr]), hr, hrest⟩

theorem Frozen.acked (h : Frozen u v runId) (hn : NodesAcked u runId) : NodesAcked v runId :=
  fun m hm hr => hn m (mem_of_filter_eq h.nodes hm (by simp [hr])) hr

/-! ## The boundary -/

/-- Everything the boundary check reads, apart from the run row. -/
structure Boundary (cfg : Config) (s : SQLiteJournal) (runId : String) (digest : String)
    (count : Nat) : Prop where
  complete : s.productionComplete runId = true
  closed : ∀ p ∈ s.producers, registeredProducer runId p = true → p.status ≠ .opened
  acked : NodesAcked s runId
  nodes : ∀ m ∈ s.nodeManifest, m.runId = runId → m.disposition.invalid = false
  edges : ∀ c ∈ edgeRows s runId, c.disposition.invalid = false
  digest_eq : digest = endpointManifestDigest cfg s runId
  count_eq : count = (edgeRows s runId).length

theorem Boundary.frozen {digest : String} {count : Nat} (hb : Boundary cfg u runId digest count)
    (h : Frozen u v runId) : Boundary cfg v runId digest count := by
  refine ⟨h.complete hb.complete, fun p hp hreg => ?_, h.acked hb.acked, fun m hm hr => ?_, ?_, ?_, ?_⟩
  · have hr : (p.runId == runId) = true := by
      simp only [registeredProducer, Bool.and_eq_true] at hreg
      exact hreg.1
    exact hb.closed p (mem_of_filter_eq h.producers hp hr) hreg
  · exact hb.nodes m (mem_of_filter_eq h.nodes hm (by simp [hr])) hr
  · rw [h.edges]
    exact hb.edges
  · rw [hb.digest_eq, endpointManifestDigest, endpointManifestDigest, h.edges, h.endpoints]
  · rw [hb.count_eq, h.edges]

theorem edgeRows_length : (edgeRows s runId).length = (totals s.edgeManifest runId).emitted := by
  simp only [edgeRows, List.length_map, totals, List.countP_eq_length_filter]

theorem dispositionCount_zero {rows : List ManifestRow} {d : ManifestDisposition} :
    dispositionCount rows runId d = 0 ↔ ∀ m ∈ rows, m.runId = runId → m.disposition ≠ d := by
  simp [dispositionCount, List.countP_eq_zero]

theorem invalid_iff {d : ManifestDisposition} :
    d.invalid = false ↔ d ≠ .conflict ∧ d ≠ .rejected := by
  cases d <;> simp [ManifestDisposition.invalid]

theorem conserved_iff (hl : LedgerInv s) :
    (totals s.nodeManifest runId).conserved = true ↔ NodesAcked s runId := by
  have hrows := hl.rows .node
  have hver : ∀ m ∈ s.nodeManifest, m.graphVerified = m.acked := fun m hm => (hrows m hm).verified
  have hstaged : ∀ m ∈ s.nodeManifest, m.acked = true → m.disposition = .stagedUnique := by
    intro m hm ha
    obtain ⟨b, -, -, -, hack, -⟩ := (hrows m hm).batch
    exact (hack.mp ha).1
  have hclass : (totals s.nodeManifest runId).classified = true := by
    have := ofRows_classified (s.nodeManifest.filter fun m => m.runId == runId)
    rw [totals_eq] at this
    simpa [Totals.classified] using this
  have hgv : (totals s.nodeManifest runId).acked = (totals s.nodeManifest runId).graphVerified := by
    refine List.countP_congr fun m hm => ?_
    rw [hver m hm]
  simp only [Totals.conserved, hclass, hgv, Bool.true_and, Bool.and_eq_true, beq_iff_eq, and_true]
  constructor
  · intro heq m hm hr hd
    have hall := all_of_countP_eq (t := s.nodeManifest)
      (p := fun m => m.runId == runId && m.disposition == .stagedUnique)
      (q := fun m => m.runId == runId && m.disposition == .stagedUnique && m.acked)
      (fun r h => (Bool.and_eq_true _ _ ▸ h).1) ?_ m hm (by simp [hr, hd])
    · simp only [Bool.and_eq_true] at hall
      exact ⟨hall.2, (hver m hm).trans hall.2⟩
    · refine heq.trans (List.countP_congr fun r hr => ?_)
      simp only [Bool.and_eq_true, beq_iff_eq, hver r hr]
      exact ⟨fun h => ⟨⟨h.1, hstaged r hr h.2⟩, h.2⟩, fun h => ⟨h.1.1, h.2⟩⟩
  · intro hn
    refine List.countP_congr fun r hr => ?_
    simp only [Bool.and_eq_true, beq_iff_eq, hver r hr]
    exact ⟨fun h => ⟨h.1, (hn r hr h.1 h.2).1⟩, fun h => ⟨h.1, hstaged r hr h.2⟩⟩

/-- What the boundary check has verified when it passes. -/
theorem boundary_of_validate (hl : LedgerInv s) {sealedAudit : Option EndpointAudit}
    {summary : ConservationSummary}
    (h : validateAuditBoundary cfg s runId sealedAudit = .ok summary) :
    summary = conservationSummary cfg s runId ∧ v3Eligible s runId = true ∧
      Boundary cfg s runId summary.endpointManifestDigest summary.auditableEdgeRows ∧
      ∀ a, sealedAudit = some a → a.manifestDigest = summary.endpointManifestDigest ∧
        a.receiptCount = summary.auditableEdgeRows := by
  unfold validateAuditBoundary at h
  simp only at h
  split at h
  · cases h
  · rename_i hopen
    split at h
    · cases h
    · rename_i hvalid
      split at h
      · cases h
      · rename_i hsealed
        cases h
        simp only [not_or, Bool.not_eq_false, not_not] at hopen hvalid
        obtain ⟨hv3, hnode, -, hnc, hnr, hec, her⟩ := hvalid
        have hbad : ∀ {rows : List ManifestRow}, dispositionCount rows runId .conflict = 0 →
            dispositionCount rows runId .rejected = 0 →
            ∀ m ∈ rows, m.runId = runId → m.disposition.invalid = false :=
          fun h₁ h₂ m hm hr => invalid_iff.mpr
            ⟨dispositionCount_zero.mp h₁ m hm hr, dispositionCount_zero.mp h₂ m hm hr⟩
        refine ⟨rfl, hv3, ⟨hopen.1, fun p hp hreg hst => ?_, (conserved_iff hl).mp hnode,
          hbad hnc hnr, fun c hc => ?_, rfl, edgeRows_length.symm⟩, fun a ha => ?_⟩
        · exact List.countP_eq_zero.mp hopen.2 p hp (by simp [hreg, hst])
        · obtain ⟨m, hm, rfl⟩ := List.mem_map.mp hc
          obtain ⟨hm, hr⟩ := List.mem_filter.mp hm
          exact hbad hec her m hm (eq_of_beq hr)
        · subst ha
          simpa using hsealed

/-- The check passes where the boundary is reached and the run is not quarantined. -/
theorem validate_of_boundary (sealedAudit : Option EndpointAudit) (hl : LedgerInv s)
    {digest : String} {count : Nat} (h : Boundary cfg s runId digest count)
    (hv : v3Eligible s runId = true)
    (hs : ∀ a, sealedAudit = some a → a.manifestDigest = digest ∧ a.receiptCount = count) :
    validateAuditBoundary cfg s runId sealedAudit = .ok (conservationSummary cfg s runId) := by
  have hopen : (conservationSummary cfg s runId).producersOpen = 0 := by
    refine List.countP_eq_zero.mpr fun p hp hsel => ?_
    simp only [Bool.and_eq_true, beq_iff_eq] at hsel
    exact h.closed p hp hsel.1 hsel.2
  have hzero : ∀ {rows : List ManifestRow} {d : ManifestDisposition}, d.invalid = true →
      (∀ m ∈ rows, m.runId = runId → m.disposition.invalid = false) →
      dispositionCount rows runId d = 0 := by
    intro rows d hd hrows
    refine dispositionCount_zero.mpr fun m hm hr he => ?_
    rw [← he, hrows m hm hr] at hd
    cases hd
  have hedges : ∀ m ∈ s.edgeManifest, m.runId = runId → m.disposition.invalid = false :=
    fun m hm hr => h.edges _ (List.mem_map_of_mem (List.mem_filter.mpr ⟨hm, by simp [hr]⟩))
  have hclass : (totals s.edgeManifest runId).classified = true := by
    have := ofRows_classified (s.edgeManifest.filter fun m => m.runId == runId)
    rw [totals_eq] at this
    simpa [Totals.classified] using this
  have hcount : (conservationSummary cfg s runId).auditableEdgeRows = count := by
    rw [h.count_eq, edgeRows_length]
    rfl
  have hdigest : (conservationSummary cfg s runId).endpointManifestDigest = digest :=
    h.digest_eq.symm
  unfold validateAuditBoundary
  simp only
  rw [if_neg, if_neg, if_neg]
  · cases hsa : sealedAudit with
    | none => simp
    | some a =>
      obtain ⟨h₁, h₂⟩ := hs a hsa
      simp [hdigest, hcount, h₁, h₂]
  · simp only [not_or, Bool.not_eq_false, not_not]
    exact ⟨hv, (conserved_iff hl).mpr h.acked, hclass, hzero rfl h.nodes, hzero rfl h.nodes,
      hzero rfl hedges, hzero rfl hedges⟩
  · simp only [not_or, Bool.not_eq_false, not_not]
    exact ⟨h.complete, hopen⟩

/-! ## Stored audits -/

/-- Every stored audit matches the manifests of its run. -/
def AuditInv (cfg : Config) (s : SQLiteJournal) : Prop :=
  ∀ a ∈ s.endpointAudits, Boundary cfg s a.runId a.manifestDigest a.receiptCount

theorem Move.audits (h : Move cfg op u v) {a : EndpointAudit} (ha : a ∈ v.endpointAudits) :
    a ∈ u.endpointAudits ∨ ∃ summary, validateAuditBoundary cfg u a.runId none = .ok summary ∧
      a.manifestDigest = summary.endpointManifestDigest ∧
      a.receiptCount = summary.auditableEdgeRows := by
  cases h with
  | enqueue t run spec jobId rows now artifacts barriers h ht hp =>
    exact .inl ((stageBatch_frame ht).audits ▸ ha)
  | reject t run spec jobId rows now artifacts failure g h ht hf hg =>
    exact .inl ((stageBatch_frame ht).audits ▸ ha)
  | sealAudit r summary now hop hv hn =>
    rcases List.mem_append.mp ha with ha | ha
    · exact .inl ha
    · rw [List.mem_singleton.mp ha]
      exact .inr ⟨summary, hv, rfl, rfl⟩
  | delete r hop => exact .inl (List.mem_of_mem_filter ha)
  | _ => exact .inl ha

theorem Move.auditInv (h : Move cfg op u v) (hl : LedgerInv u) (hi : AuditInv cfg u) :
    AuditInv cfg v := by
  intro a ha
  have hb : Boundary cfg u a.runId a.manifestDigest a.receiptCount := by
    rcases h.audits ha with hold | ⟨summary, hv, hd, hc⟩
    · exact hi a hold
    · rw [hd, hc]
      exact (boundary_of_validate hl hv).2.2.1
  rcases h.frozen hb.complete hb.acked with hf | ⟨-, rfl⟩
  · exact hb.frozen hf
  · have hne : a.runId ≠ a.runId := by simpa using (List.mem_filter.mp ha).2
    exact absurd rfl hne

theorem Reachable.auditInv (h : Reachable cfg s) : AuditInv cfg s := by
  refine (h.of_move (I := fun s => LedgerInv s ∧ AuditInv cfg s)
    ⟨.empty, fun _ h => absurd h List.not_mem_nil⟩ fun op u v hi hm hl => ?_).2
  exact ⟨hm.ledgerInv hi hl.1, hm.auditInv hl.1 hl.2⟩

theorem Move.audit_forward (h : Move cfg op u v) {a : EndpointAudit} (ha : a ∈ u.endpointAudits)
    (hop : op ≠ .deleteRun a.runId) : a ∈ v.endpointAudits := by
  cases h with
  | enqueue t run spec jobId rows now artifacts barriers h ht hp =>
    exact (stageBatch_frame ht).audits ▸ ha
  | reject t run spec jobId rows now artifacts failure g h ht hf hg =>
    exact (stageBatch_frame ht).audits ▸ ha
  | sealAudit => exact List.mem_append_left _ ha
  | delete r hdel =>
    refine List.mem_filter.mpr ⟨ha, ?_⟩
    rw [bne_iff_ne]
    exact fun he => hop (he ▸ hdel)
  | _ => exact ha

/-- A stored audit is the same row, over the same manifests, until its run is deleted. -/
theorem audit_persists (hi : Inv s) (hl : LedgerInv s) (ha : AuditInv cfg s) {a : EndpointAudit}
    (hm : a ∈ s.endpointAudits) (ops : List Op) (hops : .deleteRun a.runId ∉ ops) :
    LedgerInv (runOps cfg s ops) ∧ AuditInv cfg (runOps cfg s ops) ∧
      a ∈ (runOps cfg s ops).endpointAudits ∧ Frozen s (runOps cfg s ops) a.runId := by
  refine run_of_move
    (I := fun t => LedgerInv t ∧ AuditInv cfg t ∧ a ∈ t.endpointAudits ∧ Frozen s t a.runId)
    (A := fun op => op ≠ .deleteRun a.runId) hi (fun op u v hop hu hmv h => ?_)
    ⟨hl, ha, hm, .refl s _⟩ ops (fun op hop he => hops (he ▸ hop))
  obtain ⟨hlu, hau, hmu, hfu⟩ := h
  have hb := hau a hmu
  refine ⟨hmv.ledgerInv hu hlu, hmv.auditInv hlu hau, hmv.audit_forward hmu hop, ?_⟩
  rcases hmv.frozen hb.complete hb.acked with hf | ⟨hdel, -⟩
  · exact hfu.trans hf
  · exact absurd hdel hop

/-- A stored run is there after every sequence of calls that does not delete it. -/
theorem run_persists (cfg : Config) (hi : Inv s) {r : Run} (hr : r ∈ s.runs) (ops : List Op)
    (hops : .deleteRun r.runId ∉ ops) : ∃ r' ∈ (runOps cfg s ops).runs, r'.runId = r.runId := by
  refine run_of_move (I := fun t => ∃ r' ∈ t.runs, r'.runId = r.runId)
    (A := fun op => op ≠ .deleteRun r.runId) hi (fun op u v hop hu hmv h => ?_) ⟨r, hr, rfl⟩ ops
    (fun op hop he => hops (he ▸ hop))
  obtain ⟨x, hx, hid⟩ := h
  rcases hmv.run_forward hu.keys hx with ⟨y, hy, hs⟩ | ⟨hdel, -⟩
  · exact ⟨y, hy, hs.ids.1.trans hid⟩
  · exact absurd (hid ▸ hdel) hop

theorem eligible_of_status (hk : Keys s) {r : Run} (hr : r ∈ s.runs)
    (h : s.runStatus r.runId ≠ some .quarantined) : v3Eligible s r.runId = true := by
  have hget : s.getRun r.runId = some r := (lookup_eq_some hk.runs).mpr ⟨hr, rfl⟩
  have hs : r.status ≠ .quarantined := by
    intro he
    exact h (by simp [SQLiteJournal.runStatus, hget, he])
  simp [v3Eligible, hget, hs]

/-! ## Sealing again -/

/-- A successful `seal_endpoint_audit`, inverted: the audit that is stored after it, and the
arguments it was called with. -/
theorem sealEndpointAudit_inv {digest : Option String} {count rows : Option Int} {now : Time}
    {text : String} (hl : LedgerInv s)
    (h : sealEndpointAudit cfg s runId digest count rows now = .ok (text, t)) :
    rows.any (· < 0) = false ∧ count.any (· < 0) = false ∧ text = "sealed" ∧
      v3Eligible s runId = true ∧
      ∃ a ∈ t.endpointAudits, a.runId = runId ∧
        (digest ≠ some "" → digest.all (· == a.manifestDigest) = true) ∧
        (rows.or count).all (· == (a.receiptCount : Int)) = true := by
  unfold sealEndpointAudit at h
  split at h
  · cases h
  · rename_i hrows
    split at h
    · cases h
    · rename_i hcount
      split at h
      · cases h
      · rename_i summary hv
        obtain ⟨rfl, hv3, hb, -⟩ := boundary_of_validate hl hv
        refine ⟨by simpa using hrows, by simpa using hcount, ?_⟩
        simp only at h
        split at h
        · rename_i a ha
          split at h
          · cases h
          · rename_i hargs
            cases h
            have hkey : a.runId = runId := lookup_key ha
            refine ⟨rfl, hv3, a, lookup_mem ha, hkey, fun _ => ?_, ?_⟩
            · cases digest <;> simp_all
            · cases hrc : rows.or count <;> simp_all
        · split at h
          · cases h
          · rename_i hd
            split at h
            · cases h
            · rename_i hc
              cases h
              refine ⟨rfl, hv3, _, List.mem_append_right _ List.mem_cons_self, rfl, fun hne => ?_, ?_⟩
              · cases hdig : digest with
                | none => rfl
                | some d =>
                  have : d ≠ "" := fun he => hne (by rw [hdig, he])
                  simp [Option.filter, this]
              · cases hrc : rows.or count with
                | none => rfl
                | some n => simpa [hrc] using hc

theorem reseal (hk : Keys s) (hl : LedgerInv s) (hi : AuditInv cfg s) {a : EndpointAudit}
    (ha : a ∈ s.endpointAudits) (hv : v3Eligible s a.runId = true) {digest : Option String}
    {count rows : Option Int} {now : Time} (hrows : rows.any (· < 0) = false)
    (hcount : count.any (· < 0) = false)
    (hd : digest.all (· == a.manifestDigest) = true)
    (hc : (rows.or count).all (· == (a.receiptCount : Int)) = true) :
    exec cfg s (.sealEndpointAudit a.runId digest count rows now) =
      (.ok (.status "sealed"), s) := by
  have hget : s.getAudit a.runId = some a := (lookup_eq_some hk.audits).mpr ⟨ha, rfl⟩
  have hval := validate_of_boundary (some a) hl (hi a ha) hv
    fun b hb => by cases hb; exact ⟨rfl, rfl⟩
  have hargs : ¬ (digest.any (· != a.manifestDigest) ∨
      (rows.or count).any (· != (a.receiptCount : Int))) := by
    rintro (h | h)
    · cases digest <;> simp_all
    · cases hrc : rows.or count <;> simp_all
  have hst : a.status.value = "sealed" := by cases a.status; rfl
  simp only [exec, sealEndpointAudit, hrows, hcount, Bool.false_eq_true, if_false, hget, hval, hargs,
    transaction, hst]

/-- What a sealed audit guarantees in a later state `t'` of the journal. -/
structure StaysSealed (cfg : Config) (t t' : SQLiteJournal) (runId : String)
    (digest : Option String) (count rows : Option Int) : Prop where
  /-- the covered columns of the edge rows are the same -/
  edges : edgeRows t' runId = edgeRows t runId
  /-- and so are the endpoint rows -/
  endpoints : endpointRows t' runId = endpointRows t runId
  /-- the status is `sealed`, and the check behind it passes -/
  status : endpointAuditStatus cfg t' runId = .ok (some "sealed")
  /-- sealing again with the sealed digest and row count, passed either way, changes nothing -/
  reseal : ∃ a ∈ t.endpointAudits, a.runId = runId ∧ ∀ now,
    exec cfg t' (.sealEndpointAudit runId (some a.manifestDigest) (some a.receiptCount) none now) =
      (.ok (.status "sealed"), t') ∧
    exec cfg t' (.sealEndpointAudit runId (some a.manifestDigest) none (some a.receiptCount) now) =
      (.ok (.status "sealed"), t')
  /-- and so does sealing again with the same arguments; an empty digest text is the one argument
  that the first call takes for a missing one and the second does not -/
  again : digest ≠ some "" → ∀ now,
    exec cfg t' (.sealEndpointAudit runId digest count rows now) = (.ok (.status "sealed"), t')

/-- **A sealed audit is stable**: after a successful `seal_endpoint_audit` and any later calls that
neither purge nor quarantine the run, the audited rows are the same, the audit is still sealed, and
sealing it again changes nothing. -/
theorem sealed_audit_stable (h : Reachable cfg s) {digest : Option String} {count rows : Option Int}
    {now : Time} {r : Reply}
    (hseal : (exec cfg s (.sealEndpointAudit runId digest count rows now)).1 = .ok r) (ops : List Op)
    (hpurge : .deleteRun runId ∉ ops)
    (hquarantine : (runOps cfg (step cfg s (.sealEndpointAudit runId digest count rows now))
      ops).runStatus runId ≠ some .quarantined) :
    StaysSealed cfg (step cfg s (.sealEndpointAudit runId digest count rows now))
      (runOps cfg (step cfg s (.sealEndpointAudit runId digest count rows now)) ops) runId digest
      count rows := by
  have ht := h.step cfg (.sealEndpointAudit runId digest count rows now)
  obtain ⟨text, t, hs⟩ : ∃ text t,
      sealEndpointAudit cfg s runId digest count rows now = .ok (text, t) := by
    simp only [exec, transaction] at hseal
    split at hseal
    · exact ⟨_, _, ‹_›⟩
    · cases hseal
  obtain ⟨hrows, hcount, -, hv3, a, ha, rfl, hd, hc⟩ := sealEndpointAudit_inv h.ledgerInv hs
  have hstep : step cfg s (.sealEndpointAudit a.runId digest count rows now) = t := by
    simp only [step, exec, hs, transaction]
  rw [hstep] at ht hquarantine ⊢
  obtain ⟨hl', hi', ha', hf⟩ := audit_persists ht.inv ht.ledgerInv ht.auditInv ha ops hpurge
  have hk' := (run_inv cfg ht.inv ops).keys
  have hv' : v3Eligible (runOps cfg t ops) a.runId = true := by
    obtain ⟨run, hrun⟩ : ∃ run, s.getRun a.runId = some run := by
      cases hr : s.getRun a.runId with
      | none => simp [v3Eligible, hr] at hv3
      | some run => exact ⟨run, rfl⟩
    have hid : run.runId = a.runId := lookup_key hrun
    obtain ⟨r', hr', hid'⟩ := run_persists cfg h.inv (lookup_mem hrun)
      (.sealEndpointAudit a.runId digest count rows now :: ops)
      (by rw [hid]; simpa using hpurge)
    rw [runOps, Run.run_cons, hstep] at hr'
    rw [← hid, ← hid'] at hquarantine ⊢
    exact eligible_of_status hk' hr' hquarantine
  have hget : (runOps cfg t ops).getAudit a.runId = some a :=
    (lookup_eq_some hk'.audits).mpr ⟨ha', rfl⟩
  refine ⟨hf.edges, hf.endpoints, ?_, ⟨a, ha, rfl, fun now' => ⟨?_, ?_⟩⟩, fun hne now' => ?_⟩
  · have hval := validate_of_boundary (some a) hl' (hi' a ha') hv'
      fun b hb => by cases hb; exact ⟨rfl, rfl⟩
    have hst : a.status.value = "sealed" := by cases a.status; rfl
    simp only [endpointAuditStatus, hget, hval, hst]
  · exact Journal.reseal hk' hl' hi' ha' hv' rfl (by simp) (by simp) (by simp)
  · exact Journal.reseal hk' hl' hi' ha' hv' (by simp) rfl (by simp) (by simp)
  · exact Journal.reseal hk' hl' hi' ha' hv' hrows hcount (hd hne) hc

/-- SHA-256 with the digest of an empty manifest. -/
def sampleAuditConfig : Config :=
  { python :=
      ⟨fun text => if text = "[]" then
          "4f53cda18c2baa0c0354bb5f9a3ecbe5ed12ab4d8e11ba873c2f11161202b945"
        else sampleSha256 text, fun _ => "", id, fun _ => .error ""⟩ }

/-- A run whose producers complete without an edge. -/
def sampleComplete : List Op :=
  [.openRun (sampleMetadata "g1") 0 0 1000000000 0, .completeProducers sampleRunId 0]

/-- The journal after that, before and after the audit is sealed. -/
def sampleUnsealed : SQLiteJournal := runOps sampleAuditConfig .empty sampleComplete

def sampleSealed : SQLiteJournal :=
  step sampleAuditConfig sampleUnsealed (.sealEndpointAudit sampleRunId none none none 0)

theorem sealed_audit_stable_sample :
    StaysSealed sampleAuditConfig sampleSealed
      (runOps sampleAuditConfig sampleSealed [.closeRunProduction sampleRunId 0]) sampleRunId
      none none none := by
  have hok : (exec sampleAuditConfig sampleUnsealed
      (.sealEndpointAudit sampleRunId none none none 0)).1.isOk = true := by decide +kernel
  obtain ⟨r, hr⟩ : ∃ r, (exec sampleAuditConfig sampleUnsealed
      (.sealEndpointAudit sampleRunId none none none 0)).1 = .ok r := by
    cases he : (exec sampleAuditConfig sampleUnsealed
        (.sealEndpointAudit sampleRunId none none none 0)).1 with
    | ok r => exact ⟨r, rfl⟩
    | error e =>
      rw [he] at hok
      cases hok
  have hreach : Reachable sampleAuditConfig sampleUnsealed := ⟨sampleComplete, rfl⟩
  have hq : (runOps sampleAuditConfig sampleSealed
      [.closeRunProduction sampleRunId 0]).runStatus sampleRunId ≠ some .quarantined := by
    decide +kernel
  exact sealed_audit_stable hreach hr _ (by simp) hq

end CortexHarness.Journal
