import CortexHarness.Journal.Runs

/-!
# The manifest ledger

What the two manifest tables and the counters of `producer_completion` say in every reachable state.

* `Ledger`: a table has at most one `STAGED_UNIQUE` row per run and identity; a duplicate carries
  its digest and a conflict another one;
* `LedgerRow`: a row belongs to a stored batch and a registered producer, it is acknowledged exactly
  when it is staged and its batch is `DONE`, and it is invalid only if its batch was refused;
* `tally`: the counters of a producer are those of its rows;
* `manifest_ledger`: the parts together, with the totals of `conservation_summary`.
-/

namespace CortexHarness.Journal

open Table

variable {cfg : Config} {op : Op} {s t u v : SQLiteJournal}

/-! ## Identities -/

/-- The staged row of an identity in a run. -/
def stagedAs (runId : String) (i : ManifestIdentity) (m : ManifestRow) : Bool :=
  m.runId == runId && m.identity == i && m.disposition == .stagedUnique

theorem stagedAs_iff {runId : String} {i : ManifestIdentity} {m : ManifestRow} :
    stagedAs runId i m = true ↔ m.runId = runId ∧ m.identity = i ∧
      m.disposition = .stagedUnique := by
  simp [stagedAs, and_assoc]

/-- A manifest table: what its dispositions mean. -/
structure Ledger (rows : List ManifestRow) : Prop where
  unique : ∀ runId i, rows.countP (stagedAs runId i) ≤ 1
  duplicate : ∀ m ∈ rows, m.disposition = .declaredDuplicate →
    ∃ x ∈ rows, stagedAs m.runId m.identity x = true ∧ x.payloadDigest = m.payloadDigest
  conflict : ∀ m ∈ rows, m.disposition = .conflict →
    ∃ x ∈ rows, stagedAs m.runId m.identity x = true ∧ x.payloadDigest ≠ m.payloadDigest

theorem Ledger.nil : Ledger [] :=
  ⟨fun _ _ => Nat.zero_le _, fun _ h => absurd h List.not_mem_nil,
    fun _ h => absurd h List.not_mem_nil⟩

/-- The row that a `LIMIT 1` returns stands for all: every accepted row of an identity carries the
digest of its staged row. -/
theorem accepted_digest {rows : List ManifestRow} (h : Ledger rows) {m : ManifestRow} (hm : m ∈ rows)
    (ha : m.disposition.accepted = true) :
    ∃ x ∈ rows, stagedAs m.runId m.identity x = true ∧ x.payloadDigest = m.payloadDigest := by
  cases hd : m.disposition with
  | stagedUnique => exact ⟨m, hm, stagedAs_iff.mpr ⟨rfl, rfl, hd⟩, rfl⟩
  | declaredDuplicate => exact h.duplicate m hm hd
  | conflict => simp [hd, ManifestDisposition.accepted] at ha
  | rejected => simp [hd, ManifestDisposition.accepted] at ha

/-- The columns the ledger is about. -/
structure SameEntry (m m' : ManifestRow) : Prop where
  runId : m'.runId = m.runId
  jobId : m'.jobId = m.jobId
  producerId : m'.producerId = m.producerId
  identity : m'.identity = m.identity
  digest : m'.payloadDigest = m.payloadDigest
  disposition : m'.disposition = m.disposition

theorem SameEntry.stagedAs {m m' : ManifestRow} (h : SameEntry m m') (runId : String)
    (i : ManifestIdentity) : stagedAs runId i m' = stagedAs runId i m := by
  simp only [Journal.stagedAs, h.runId, h.identity, h.disposition]

theorem Ledger.map {rows : List ManifestRow} (h : Ledger rows) {f : ManifestRow → ManifestRow}
    (hf : ∀ m, SameEntry m (f m)) : Ledger (rows.map f) := by
  refine ⟨fun runId i => ?_, fun m hm hd => ?_, fun m hm hd => ?_⟩
  · rw [List.countP_map]
    refine (List.countP_congr fun m _ => ?_).trans_le (h.unique runId i)
    simp only [Function.comp, (hf m).stagedAs]
  · obtain ⟨m, hm', rfl⟩ := List.mem_map.mp hm
    obtain ⟨x, hx, hxs, hxd⟩ := h.duplicate m hm' ((hf m).disposition ▸ hd)
    refine ⟨f x, List.mem_map_of_mem hx, ?_, by rw [(hf x).digest, (hf m).digest, hxd]⟩
    rw [(hf x).stagedAs, (hf m).runId, (hf m).identity]
    exact hxs
  · obtain ⟨m, hm', rfl⟩ := List.mem_map.mp hm
    obtain ⟨x, hx, hxs, hxd⟩ := h.conflict m hm' ((hf m).disposition ▸ hd)
    refine ⟨f x, List.mem_map_of_mem hx, ?_, by rw [(hf x).digest, (hf m).digest]; exact hxd⟩
    rw [(hf x).stagedAs, (hf m).runId, (hf m).identity]
    exact hxs

theorem Ledger.filter {rows : List ManifestRow} (h : Ledger rows) (runId : String) :
    Ledger (rows.filter fun m => m.runId != runId) := by
  have hkeep : ∀ {m x : ManifestRow}, m ∈ rows.filter (fun m => m.runId != runId) → x ∈ rows →
      stagedAs m.runId m.identity x = true → x ∈ rows.filter fun m => m.runId != runId := by
    intro m x hm hx hs
    refine List.mem_filter.mpr ⟨hx, ?_⟩
    rw [(stagedAs_iff.mp hs).1]
    exact (List.mem_filter.mp hm).2
  refine ⟨fun r i => ?_, fun m hm hd => ?_, fun m hm hd => ?_⟩
  · exact List.filter_sublist.countP_le.trans (h.unique r i)
  · obtain ⟨x, hx, hs, hxd⟩ := h.duplicate m (List.mem_of_mem_filter hm) hd
    exact ⟨x, hkeep hm hx hs, hs, hxd⟩
  · obtain ⟨x, hx, hs, hxd⟩ := h.conflict m (List.mem_of_mem_filter hm) hd
    exact ⟨x, hkeep hm hx hs, hs, hxd⟩

theorem resolveDisposition_staged {rows : List ManifestRow} {runId : String} {c : Candidate}
    (h : resolveDisposition rows runId c = .stagedUnique) :
    ∀ m ∈ rows, stagedAs runId c.identity m = false := by
  intro m hm
  by_contra hne
  have hs := stagedAs_iff.mp (by simpa using hne)
  unfold resolveDisposition at h
  split at h
  · split at h
    · split at h <;> cases h
    · rename_i hnone
      have := List.find?_eq_none.mp hnone m hm
      simp [hs.1, hs.2.1, hs.2.2, ManifestDisposition.accepted] at this
  · rename_i d hd
    exact hd h

theorem resolveDisposition_seen {rows : List ManifestRow} {runId : String} {c : Candidate}
    (hc : c.disposition = .stagedUnique)
    (h : resolveDisposition rows runId c ≠ .stagedUnique) :
    ∃ m ∈ rows, m.runId = runId ∧ m.identity = c.identity ∧ m.disposition.accepted = true ∧
      (resolveDisposition rows runId c = .declaredDuplicate ∧ m.payloadDigest = c.payloadDigest ∨
        resolveDisposition rows runId c = .conflict ∧ m.payloadDigest ≠ c.payloadDigest) := by
  unfold resolveDisposition at h ⊢
  simp only [hc] at h ⊢
  split at h
  · rename_i m hm
    have hp := List.find?_some hm
    simp only [Bool.and_eq_true, beq_iff_eq] at hp
    refine ⟨m, List.mem_of_find?_eq_some hm, hp.1.1, hp.1.2, hp.2, ?_⟩
    split at h
    · rename_i he
      exact .inl ⟨if_pos he, he⟩
    · rename_i he
      exact .inr ⟨if_neg he, he⟩
  · exact absurd rfl h

/-- A candidate comes out of its own checks as staged or rejected. -/
def Candidate.Checked (c : Candidate) : Prop :=
  c.disposition = .stagedUnique ∨ c.disposition = .rejected

theorem Ledger.append {rows : List ManifestRow} (h : Ledger rows) {c : Candidate}
    (hc : c.Checked) (runId jobId producerId : String) :
    Ledger (rows ++ [c.row runId jobId producerId (resolveDisposition rows runId c)]) := by
  have hold : ∀ {m x : ManifestRow}, x ∈ rows → x ∈ rows ++ [m] := List.mem_append_left _
  -- a row that is neither staged nor rejected refers to an accepted row of its identity
  have hseen : ∀ d, resolveDisposition rows runId c = d → d ≠ .stagedUnique → d ≠ .rejected →
      ∃ m ∈ rows, m.runId = runId ∧ m.identity = c.identity ∧ m.disposition.accepted = true ∧
        (d = .declaredDuplicate ∧ m.payloadDigest = c.payloadDigest ∨
          d = .conflict ∧ m.payloadDigest ≠ c.payloadDigest) := by
    rintro d rfl hne hnr
    rcases hc with hc | hc
    · exact resolveDisposition_seen hc hne
    · exact absurd (by simp [resolveDisposition, hc]) hnr
  refine ⟨fun r i => ?_, fun m hm hd => ?_, fun m hm hd => ?_⟩
  · rw [List.countP_append, List.countP_singleton]
    split
    · rename_i hs
      obtain ⟨rfl, rfl, hd⟩ := stagedAs_iff.mp hs
      have hzero : rows.countP (stagedAs runId c.identity) = 0 := by
        refine List.countP_eq_zero.mpr fun m hm => ?_
        simp [resolveDisposition_staged hd m hm]
      exact (Nat.add_le_add_right hzero.le 1).trans (Nat.zero_add 1).le
    · exact h.unique r i
  · rcases List.mem_append.mp hm with hm | hm
    · obtain ⟨x, hx, hs, hxd⟩ := h.duplicate m hm hd
      exact ⟨x, hold hx, hs, hxd⟩
    · rw [List.mem_singleton.mp hm] at hd ⊢
      obtain ⟨y, hy, rfl, hi, ha, ⟨-, hyd⟩ | ⟨hne, -⟩⟩ := hseen _ hd (by simp) (by simp)
      · obtain ⟨x, hx, hs, hxd⟩ := accepted_digest h hy ha
        exact ⟨x, hold hx, by rw [hi] at hs; exact hs, hxd.trans hyd⟩
      · cases hne
  · rcases List.mem_append.mp hm with hm | hm
    · obtain ⟨x, hx, hs, hxd⟩ := h.conflict m hm hd
      exact ⟨x, hold hx, hs, hxd⟩
    · rw [List.mem_singleton.mp hm] at hd ⊢
      obtain ⟨y, hy, rfl, hi, ha, ⟨hne, -⟩ | ⟨-, hyd⟩⟩ := hseen _ hd (by simp) (by simp)
      · cases hne
      · obtain ⟨x, hx, hs, hxd⟩ := accepted_digest h hy ha
        exact ⟨x, hold hx, by rw [hi] at hs; exact hs, hxd ▸ hyd⟩

/-! ## Counters -/

/-- The counters of a list of rows. -/
def ManifestCounts.ofRows (rows : List ManifestRow) : ManifestCounts :=
  { emitted := rows.length
    unique := rows.countP fun m => m.disposition == .stagedUnique
    duplicate := rows.countP fun m => m.disposition == .declaredDuplicate
    conflict := rows.countP fun m => m.disposition == .conflict
    rejected := rows.countP fun m => m.disposition == .rejected }

theorem ofRows_append (rows rows' : List ManifestRow) :
    ManifestCounts.ofRows (rows ++ rows') =
      (ManifestCounts.ofRows rows).add (ManifestCounts.ofRows rows') := by
  simp [ManifestCounts.ofRows, ManifestCounts.add, List.countP_append]

theorem ofRows_snoc (rows : List ManifestRow) (m : ManifestRow) :
    ManifestCounts.ofRows (rows ++ [m]) = (ManifestCounts.ofRows rows).record m.disposition := by
  cases hd : m.disposition <;>
    simp [ManifestCounts.ofRows, ManifestCounts.record, List.countP_append, hd]

/-- The rows of a producer. -/
def rowsOf (rows : List ManifestRow) (runId producerId : String) : List ManifestRow :=
  rows.filter fun m => m.runId == runId && m.producerId == producerId

/-- The counters of one kind. -/
def Producer.counts (p : Producer) : ManifestKind → ManifestCounts
  | .node => p.node
  | .edge => p.edge

def StagingCounts.counts (k : StagingCounts) : ManifestKind → ManifestCounts
  | .node => k.node
  | .edge => k.edge

theorem counts_record (k : StagingCounts) (kind kind' : ManifestKind) (d : ManifestDisposition) :
    (k.record kind d).counts kind' =
      if kind' = kind then (k.counts kind).record d else k.counts kind' := by
  cases kind <;> cases kind' <;> rfl

/-- Nothing invalid was counted: the counters that make a batch unacceptable are zero. -/
theorem failure_nil {k : StagingCounts} (h : k.failure = []) (kind : ManifestKind) :
    (k.counts kind).conflict = 0 ∧ (k.counts kind).rejected = 0 := by
  have hz := List.filter_eq_nil_iff.mp h
  cases kind with
  | node =>
    have h₁ := hz ("node_conflict", k.node.conflict) (by simp)
    have h₂ := hz ("node_rejected", k.node.rejected) (by simp)
    exact ⟨by simpa [StagingCounts.counts] using h₁, by simpa [StagingCounts.counts] using h₂⟩
  | edge =>
    have h₁ := hz ("edge_conflict", k.edge.conflict) (by simp)
    have h₂ := hz ("edge_rejected", k.edge.rejected) (by simp)
    exact ⟨by simpa [StagingCounts.counts] using h₁, by simpa [StagingCounts.counts] using h₂⟩

/-! ## Staging -/

/-- A row that a staging of the batch inserts. -/
structure NewRow (runId jobId producerId : String) (m : ManifestRow) : Prop where
  runId_eq : m.runId = runId
  jobId_eq : m.jobId = jobId
  producerId_eq : m.producerId = producerId
  acked : m.acked = false
  verified : m.graphVerified = false

theorem stageCandidate_manifest {runId jobId producerId : String} {k k' : StagingCounts}
    {c : Candidate} (h : stageCandidate runId jobId producerId s k c = .ok (k', t))
    (kind : ManifestKind) :
    t.manifest kind = if kind = c.kind then
      s.manifest kind ++ [c.row runId jobId producerId (resolveDisposition (s.manifest kind) runId c)]
      else s.manifest kind := by
  obtain ⟨-, -, ⟨hc, rfl⟩ | ⟨hc, rfl⟩⟩ := stageCandidate_inv h
  · cases kind <;> simp [hc, SQLiteJournal.manifest]
  · cases kind <;> simp [hc, SQLiteJournal.manifest]

/-- What the staging loop has done so far. -/
def StagedSoFar (runId jobId producerId : String) (s t : SQLiteJournal) (k : StagingCounts) : Prop :=
  ∃ new : ManifestKind → List ManifestRow, ∀ kind,
    t.manifest kind = s.manifest kind ++ new kind ∧
    k.counts kind = ManifestCounts.ofRows (new kind) ∧ Ledger (t.manifest kind) ∧
    ∀ m ∈ new kind, NewRow runId jobId producerId m

theorem stageCandidates_spec {runId jobId producerId : String} {cs : List Candidate}
    {k : StagingCounts} (hc : ∀ c ∈ cs, c.Checked) (hl : ∀ kind, Ledger (s.manifest kind))
    (h : stageCandidates runId jobId producerId s {} cs = .ok (k, t)) :
    StagedSoFar runId jobId producerId s t k := by
  refine stageCandidates_induct (P := StagedSoFar runId jobId producerId s)
    (fun u k c v k' hcs hu hv => ?_) ⟨fun _ => [], fun kind => ?_⟩ h
  · obtain ⟨new, hnew⟩ := hu
    obtain ⟨-, rfl, -⟩ := stageCandidate_inv hv
    refine ⟨fun kind => if kind = c.kind then
      new kind ++ [c.row runId jobId producerId (resolveDisposition (u.manifest kind) runId c)]
      else new kind, fun kind => ?_⟩
    obtain ⟨hm, hk, hlu, hrows⟩ := hnew kind
    rw [stageCandidate_manifest hv kind, counts_record]
    by_cases hkind : kind = c.kind
    · subst hkind
      simp only [if_true]
      refine ⟨by rw [hm, List.append_assoc], by rw [hk, ofRows_snoc]; rfl,
        hlu.append (hc c hcs) runId jobId producerId, fun m hmem => ?_⟩
      rcases List.mem_append.mp hmem with hmem | hmem
      · exact hrows m hmem
      · rw [List.mem_singleton.mp hmem]
        exact ⟨rfl, rfl, rfl, rfl, rfl⟩
    · simp only [if_neg hkind]
      exact ⟨hm, hk, hlu, hrows⟩
  · refine ⟨by simp, ?_, hl kind, by simp⟩
    cases kind <;> rfl

theorem candidatesFrom_checked (py : Python) (operation : List (String × Json))
    (scopeDefault jobId : String) (ordinal : Nat) (rows : List Json) :
    ∀ c ∈ candidatesFrom py operation scopeDefault jobId ordinal rows, c.Checked := by
  induction rows generalizing ordinal with
  | nil => exact fun c hc => absurd hc List.not_mem_nil
  | cons raw rows ih =>
    intro c hc
    simp only [candidatesFrom] at hc
    split at hc
    · rcases List.mem_cons.mp hc with rfl | hc
      · unfold nodeCandidate
        simp only
        split
        · split
          · exact .inr rfl
          · exact .inl rfl
        · exact .inr rfl
      · exact ih _ c hc
    · split at hc
      · exact ih _ c hc
      · rcases List.mem_cons.mp hc with rfl | hc
        · unfold edgeCandidate
          simp only
          split
          · exact .inl rfl
          · exact .inr rfl
        · exact ih _ c hc

/-! ## The invariant -/

/-- What a stored row says about its batch and its producer. -/
structure LedgerRow (batches : List Batch) (producers : List Producer) (m : ManifestRow) : Prop where
  batch : ∃ b ∈ batches, b.jobId = m.jobId ∧ b.runId = m.runId ∧
    (m.acked = true ↔ m.disposition = .stagedUnique ∧ b.status = .done) ∧
    (m.disposition.invalid = true → b.rejected = true)
  verified : m.graphVerified = m.acked
  producer : ∃ p ∈ producers, p.runId = m.runId ∧ p.producerId = m.producerId

/-- The invariant of the manifests and the producer counters. -/
structure LedgerInv (s : SQLiteJournal) : Prop where
  ledger : ∀ kind, Ledger (s.manifest kind)
  rows : ∀ kind, ∀ m ∈ s.manifest kind, LedgerRow s.batches s.producers m
  counts : ∀ p ∈ s.producers, ∀ kind,
    p.counts kind = ManifestCounts.ofRows (rowsOf (s.manifest kind) p.runId p.producerId)

theorem manifest_empty (kind : ManifestKind) : SQLiteJournal.empty.manifest kind = [] := by
  cases kind <;> rfl

theorem LedgerInv.empty : LedgerInv .empty := by
  refine ⟨fun kind => ?_, fun kind m hm => ?_, fun _ h => absurd h List.not_mem_nil⟩
  · rw [manifest_empty]
    exact .nil
  · rw [manifest_empty] at hm
    cases hm

/-- Row updates that keep what the ledger reads of a batch. -/
theorem LedgerInv.map (h : LedgerInv u) {f : Batch → Batch}
    (hf : ∀ b ∈ u.batches, SameCount b (f b)) (hb : v.batches = u.batches.map f)
    (hm : ∀ kind, v.manifest kind = u.manifest kind) (hp : v.producers = u.producers) :
    LedgerInv v := by
  refine ⟨fun kind => hm kind ▸ h.ledger kind, fun kind m hmem => ?_, fun p hpm kind => ?_⟩
  · rw [hm] at hmem
    obtain ⟨⟨b, hbm, hj, hr, hack, hinv⟩, hver, hprod⟩ := h.rows kind m hmem
    have hs := hf b hbm
    refine ⟨⟨f b, hb ▸ List.mem_map_of_mem hbm, by rw [hs.core, hj], by rw [hs.core, hr], ?_, ?_⟩,
      hver, hp ▸ hprod⟩
    · rw [hs.done]
      exact hack
    · rw [hs.rejected]
      exact hinv
  · rw [hm]
    exact h.counts p (hp ▸ hpm) kind

theorem LedgerInv.same (h : LedgerInv u) (hb : v.batches = u.batches)
    (hm : ∀ kind, v.manifest kind = u.manifest kind) (hp : v.producers = u.producers) :
    LedgerInv v :=
  h.map (f := id) (fun b _ => .refl b) (by rw [hb, List.map_id]) hm hp

theorem SameEntry.refl (m : ManifestRow) : SameEntry m m := ⟨rfl, rfl, rfl, rfl, rfl, rfl⟩

theorem ackRow_same (jobId : String) (m : ManifestRow) :
    SameEntry m (if (m.jobId == jobId && m.disposition == .stagedUnique) = true then
      { m with acked := true, graphVerified := true } else m) := by
  split
  · exact ⟨rfl, rfl, rfl, rfl, rfl, rfl⟩
  · exact .refl m

theorem ofRows_map {rows : List ManifestRow} {f : ManifestRow → ManifestRow}
    (hf : ∀ m, SameEntry m (f m)) (runId producerId : String) :
    ManifestCounts.ofRows (rowsOf (rows.map f) runId producerId) =
      ManifestCounts.ofRows (rowsOf rows runId producerId) := by
  have hrows : rowsOf (rows.map f) runId producerId = (rowsOf rows runId producerId).map f := by
    rw [rowsOf, List.filter_map, rowsOf]
    congr 1
    refine List.filter_congr fun m _ => ?_
    simp only [Function.comp, (hf m).runId, (hf m).producerId]
  simp only [hrows, ManifestCounts.ofRows, List.length_map, List.countP_map, Function.comp_def,
    (hf _).disposition]

theorem manifest_ack (u : SQLiteJournal) (jobId : String) (kind : ManifestKind)
    (hv : v.nodeManifest = ackRows jobId u.nodeManifest ∧
      v.edgeManifest = ackRows jobId u.edgeManifest) :
    v.manifest kind = ackRows jobId (u.manifest kind) := by
  cases kind
  · exact hv.1
  · exact hv.2

theorem LedgerInv.ack (h : LedgerInv u) (hi : Inv u) {b : Batch} (hb : b ∈ u.batches)
    (hs : b.status.held = true)
    (hv : v.batches = updateWhere (fun x => decide (x.jobId = b.jobId)) doneBatch u.batches)
    (hm : v.nodeManifest = ackRows b.jobId u.nodeManifest ∧
      v.edgeManifest = ackRows b.jobId u.edgeManifest)
    (hp : v.producers = u.producers) : LedgerInv v := by
  refine ⟨fun kind => ?_, fun kind m hmem => ?_, fun p hpm kind => ?_⟩
  · rw [manifest_ack u b.jobId kind hm]
    exact (h.ledger kind).map (ackRow_same b.jobId)
  · rw [manifest_ack u b.jobId kind hm] at hmem
    obtain ⟨m, hm', rfl⟩ := mem_updateWhere.mp hmem
    obtain ⟨⟨c, hc, hj, hr, hack, hinv⟩, hver, hprod⟩ := h.rows kind m hm'
    have hsame := ackRow_same b.jobId m
    by_cases hcb : c.jobId = b.jobId
    · obtain rfl := hi.keys.batch_eq hc hb hcb
      have hdone : doneBatch c ∈ v.batches := by
        rw [hv]
        exact mem_updateWhere.mpr ⟨c, hc, by simp⟩
      refine ⟨⟨doneBatch c, hdone, by rw [hsame.jobId]; exact hj, by rw [hsame.runId]; exact hr, ?_,
        fun hbad => ?_⟩, ?_, by rw [hp, hsame.runId, hsame.producerId]; exact hprod⟩
      · have hst : (doneBatch c).status = .done := rfl
        by_cases hd : m.disposition = .stagedUnique
        · simp [hj, hd, hst]
        · have : m.acked = false := by
            by_contra hne
            exact hd (hack.mp (by simpa using hne)).1
          simp [hd, this]
      · rw [hsame.disposition] at hbad
        have := hinv hbad
        rw [not_rejected_of_held (hi.valid c hb) hs] at this
        cases this
      · split
        · rfl
        · exact hver
    · have hne : ¬ (m.jobId == b.jobId && m.disposition == .stagedUnique) = true := by
        rw [← hj]
        simp [hcb]
      rw [if_neg hne]
      refine ⟨⟨c, ?_, hj, hr, hack, hinv⟩, hver, hp ▸ hprod⟩
      rw [hv]
      exact mem_updateWhere.mpr ⟨c, hc, by simp [hcb]⟩
  · rw [manifest_ack u b.jobId kind hm, ackRows, updateWhere, ofRows_map (ackRow_same b.jobId)]
    exact h.counts p (hp ▸ hpm) kind

/-- A producer without a stored row has counted nothing. -/
theorem LedgerInv.rowsOf_nil (h : LedgerInv u) {runId producerId : String}
    (hn : ∀ p ∈ u.producers, (p.runId, p.producerId) ≠ (runId, producerId)) (kind : ManifestKind) :
    rowsOf (u.manifest kind) runId producerId = [] := by
  refine List.filter_eq_nil_iff.mpr fun m hm hsel => ?_
  simp only [Bool.and_eq_true, beq_iff_eq] at hsel
  obtain ⟨p, hp, hr, hpid⟩ := (h.rows kind m hm).producer
  exact hn p hp (by rw [hr, hpid, hsel.1, hsel.2])

theorem registerProducer_cases {ps : List Producer} {runId producerId : String} {p : Producer}
    (h : p ∈ registerProducer ps runId producerId) :
    p ∈ ps ∨ (p = { runId, producerId, status := .opened } ∧
      ∀ q ∈ ps, (q.runId, q.producerId) ≠ (runId, producerId)) := by
  unfold registerProducer at h
  split at h
  · exact .inl h
  · rename_i hn
    rcases List.mem_append.mp h with h | h
    · exact .inl h
    · refine .inr ⟨List.mem_singleton.mp h, lookup_eq_none.mp ?_⟩
      simpa using hn

theorem registerProducer_mem (ps : List Producer) (runId producerId : String) :
    (∀ p ∈ ps, p ∈ registerProducer ps runId producerId) ∧
      ∃ p ∈ registerProducer ps runId producerId, p.runId = runId ∧ p.producerId = producerId := by
  unfold registerProducer
  split
  · rename_i hs
    obtain ⟨p, hp⟩ := Option.isSome_iff_exists.mp hs
    have hkey := lookup_key hp
    exact ⟨fun _ h => h, p, lookup_mem hp, Prod.mk.inj hkey⟩
  · exact ⟨fun p hp => List.mem_append_left _ hp, _, List.mem_append_right _ List.mem_cons_self, rfl,
      rfl⟩

theorem rowsOf_append (rows rows' : List ManifestRow) (runId producerId : String) :
    rowsOf (rows ++ rows') runId producerId =
      rowsOf rows runId producerId ++ rowsOf rows' runId producerId := List.filter_append ..

theorem rowsOf_new {runId jobId producerId : String} {new : List ManifestRow}
    (h : ∀ m ∈ new, NewRow runId jobId producerId m) (r p : String) :
    rowsOf new r p = if (r, p) = (runId, producerId) then new else [] := by
  split
  · rename_i he
    obtain ⟨rfl, rfl⟩ := Prod.mk.inj he
    refine List.filter_eq_self.mpr fun m hm => ?_
    simp [(h m hm).runId_eq, (h m hm).producerId_eq]
  · rename_i hne
    refine List.filter_eq_nil_iff.mpr fun m hm hsel => hne ?_
    simp only [Bool.and_eq_true, beq_iff_eq] at hsel
    rw [← hsel.1, ← hsel.2, (h m hm).runId_eq, (h m hm).producerId_eq]

theorem add_empty (k : ManifestCounts) : k.add (ManifestCounts.ofRows []) = k := by
  simp [ManifestCounts.add, ManifestCounts.ofRows]

theorem LedgerInv.stage (h : LedgerInv u) {run : Run} {jobId producerId : String}
    {candidates : List Candidate} {failure : List (String × Nat)} {b : Batch}
    (hc : ∀ c ∈ candidates, c.Checked) (hsm : ∀ kind, s.manifest kind = u.manifest kind)
    (hsp : s.producers = u.producers)
    (hstage : stageManifests s run.runId jobId producerId candidates = .ok (failure, t))
    (hb : b.jobId = jobId ∧ b.runId = run.runId ∧ b.status ≠ .done)
    (hrej : failure ≠ [] → b.rejected = true) (hv : v.batches = u.batches ++ [b])
    (hm : ∀ kind, v.manifest kind = t.manifest kind) (hp : v.producers = t.producers) :
    LedgerInv v := by
  obtain ⟨-, k, w, hw, hfail, rfl⟩ := stageManifests_inv hstage
  have hwp : w.producers = registerProducer u.producers run.runId producerId :=
    (stageCandidates_frame hw).2.trans (by rw [hsp])
  have hsm' : ∀ kind, ({ s with
      producers := registerProducer s.producers run.runId producerId } : SQLiteJournal).manifest kind =
        u.manifest kind := fun kind => (by cases kind <;> rfl : _ = s.manifest kind).trans (hsm kind)
  have hl : ∀ kind, Ledger (({ s with
      producers := registerProducer s.producers run.runId producerId } : SQLiteJournal).manifest kind) :=
    fun kind => hsm' kind ▸ h.ledger kind
  obtain ⟨new, hnew⟩ := stageCandidates_spec hc hl hw
  have hvm : ∀ kind, v.manifest kind = u.manifest kind ++ new kind := by
    intro kind
    rw [hm, ← hsm' kind, ← (hnew kind).1]
    cases kind <;> rfl
  -- the producer rows of `v` are those of `u`, the registered one included, with the counters added
  have hvp : v.producers = updateWhere
      (fun p => decide ((p.runId, p.producerId) = (run.runId, producerId)))
      (fun p => { p with node := p.node.add k.node, edge := p.edge.add k.edge })
      (registerProducer u.producers run.runId producerId) := by
    rw [hp, ← hwp]
  have hkeep : ∀ p ∈ registerProducer u.producers run.runId producerId,
      ∃ p' ∈ v.producers, p'.runId = p.runId ∧ p'.producerId = p.producerId := by
    intro p hpm
    rw [hvp]
    refine ⟨_, mem_updateWhere.mpr ⟨p, hpm, rfl⟩, ?_⟩
    split <;> exact ⟨rfl, rfl⟩
  refine ⟨fun kind => ?_, fun kind m hmem => ?_, fun p hpm kind => ?_⟩
  · have := (hnew kind).2.2.1
    rwa [(hnew kind).1, hsm' kind, ← hvm] at this
  · rw [hvm] at hmem
    rcases List.mem_append.mp hmem with hmem | hmem
    · obtain ⟨⟨c, hcm, hrest⟩, hver, p, hpm, hpr, hpp⟩ := h.rows kind m hmem
      obtain ⟨p', hpm', hpr', hpp'⟩ := hkeep p ((registerProducer_mem _ _ _).1 p hpm)
      exact ⟨⟨c, hv ▸ List.mem_append_left _ hcm, hrest⟩, hver, p', hpm', hpr'.trans hpr,
        hpp'.trans hpp⟩
    · have hn := (hnew kind).2.2.2 m hmem
      obtain ⟨p, hpm, hpr, hpp⟩ := (registerProducer_mem u.producers run.runId producerId).2
      obtain ⟨p', hpm', hpr', hpp'⟩ := hkeep p hpm
      refine ⟨⟨b, hv ▸ List.mem_append_right _ List.mem_cons_self, hb.1.trans hn.jobId_eq.symm,
        hb.2.1.trans hn.runId_eq.symm, ?_, fun hbad => hrej fun hnil => ?_⟩,
        hn.verified.trans hn.acked.symm, p', hpm', hpr'.trans (hpr.trans hn.runId_eq.symm),
        hpp'.trans (hpp.trans hn.producerId_eq.symm)⟩
      · simp [hn.acked, hb.2.2]
      · -- an invalid row is counted, and then the staging fails
        obtain ⟨h₁, h₂⟩ := failure_nil (hfail.symm.trans hnil) kind
        rw [(hnew kind).2.1] at h₁ h₂
        have hz₁ := List.countP_eq_zero.mp h₁ m hmem
        have hz₂ := List.countP_eq_zero.mp h₂ m hmem
        cases hd : m.disposition <;> simp [hd, ManifestDisposition.invalid] at hz₁ hz₂ hbad
  · rw [hvp] at hpm
    obtain ⟨q, hq, rfl⟩ := mem_updateWhere.mp hpm
    have hqc : q.counts kind = ManifestCounts.ofRows (rowsOf (u.manifest kind) q.runId
        q.producerId) := by
      rcases registerProducer_cases hq with hq | ⟨rfl, hn⟩
      · exact h.counts q hq kind
      · rw [h.rowsOf_nil hn kind]
        cases kind <;> rfl
    rw [hvm, rowsOf_append, ofRows_append, rowsOf_new (hnew kind).2.2.2]
    by_cases hkey : (q.runId, q.producerId) = (run.runId, producerId)
    · rw [if_pos (by simpa using hkey)]
      simp only [if_pos hkey]
      rw [← hqc, ← (hnew kind).2.1]
      cases kind <;> rfl
    · rw [if_neg (by simpa using hkey)]
      simp only [if_neg hkey]
      rw [add_empty]
      exact hqc

/-- A batch without a replay descriptor stages nothing. -/
theorem LedgerInv.insert (h : LedgerInv u) {b : Batch} (hv : v.batches = u.batches ++ [b])
    (hm : ∀ kind, v.manifest kind = u.manifest kind) (hp : v.producers = u.producers) :
    LedgerInv v := by
  refine ⟨fun kind => hm kind ▸ h.ledger kind, fun kind m hmem => ?_, fun p hpm kind => ?_⟩
  · rw [hm] at hmem
    obtain ⟨⟨c, hc, hrest⟩, hver, hprod⟩ := h.rows kind m hmem
    exact ⟨⟨c, hv ▸ List.mem_append_left _ hc, hrest⟩, hver, hp ▸ hprod⟩
  · rw [hm]
    exact h.counts p (hp ▸ hpm) kind

theorem LedgerInv.enqueue (h : LedgerInv u) {run : Run} {spec : BatchSpec} {jobId : String}
    {rows : List Json} {failure : List (String × Nat)} {b : Batch} {artifacts : List Artifact}
    {batches : List Batch}
    (ht : stageBatch cfg { u with artifacts, batches } run spec jobId rows = .ok (failure, t))
    (hb : b.jobId = jobId ∧ b.runId = run.runId ∧ b.status ≠ .done)
    (hrej : failure ≠ [] → b.rejected = true) (hv : v.batches = u.batches ++ [b])
    (hm : ∀ kind, v.manifest kind = t.manifest kind) (hp : v.producers = t.producers) :
    LedgerInv v := by
  have hu : ∀ kind, ({ u with artifacts, batches } : SQLiteJournal).manifest kind = u.manifest kind :=
    fun kind => by cases kind <;> rfl
  rcases stageBatch_cases ht with ⟨-, rfl⟩ | ⟨producerId, candidates, hc, hstage⟩
  · exact h.insert hv (fun kind => (hm kind).trans (hu kind)) hp
  · refine h.stage (fun c hmem => ?_) hu rfl hstage hb hrej hv hm hp
    unfold manifestCandidates at hc
    split at hc
    · cases hc
    · cases hc
      exact candidatesFrom_checked _ _ _ _ _ _ c hmem

/-- The marker is one more producer, and the others keep their counters. -/
theorem LedgerInv.complete (h : LedgerInv u) {runId : String}
    (hn : u.getProducer runId producersCompleteId = none) (hb : v.batches = u.batches)
    (hm : ∀ kind, v.manifest kind = u.manifest kind)
    (hp : v.producers = closeProducers u.producers runId) : LedgerInv v := by
  refine ⟨fun kind => hm kind ▸ h.ledger kind, fun kind m hmem => ?_, fun p hpm kind => ?_⟩
  · rw [hm] at hmem
    obtain ⟨hbatch, hver, p, hpm, hpr, hpp⟩ := h.rows kind m hmem
    refine ⟨hb ▸ hbatch, hver, ?_⟩
    rw [hp]
    refine ⟨_, List.mem_append_left _ (mem_updateWhere.mpr ⟨p, hpm, rfl⟩), ?_⟩
    split <;> exact ⟨hpr, hpp⟩
  · rw [hp] at hpm
    rw [hm]
    rcases List.mem_append.mp hpm with hpm | hpm
    · obtain ⟨q, hq, rfl⟩ := mem_updateWhere.mp hpm
      have := h.counts q hq kind
      split <;> cases kind <;> exact this
    · rw [List.mem_singleton.mp hpm, h.rowsOf_nil (lookup_eq_none.mp hn) kind]
      cases kind <;> rfl

theorem manifest_delete (u : SQLiteJournal) (runId : String) (kind : ManifestKind) :
    (deleteRun u runId).manifest kind = (u.manifest kind).filter fun m => m.runId != runId := by
  cases kind <;> rfl

theorem LedgerInv.delete (h : LedgerInv u) (runId : String) : LedgerInv (deleteRun u runId) := by
  refine ⟨fun kind => ?_, fun kind m hmem => ?_, fun p hpm kind => ?_⟩
  · rw [manifest_delete]
    exact (h.ledger kind).filter runId
  · rw [manifest_delete] at hmem
    obtain ⟨hmem, hne⟩ := List.mem_filter.mp hmem
    obtain ⟨⟨b, hb, hj, hr, hrest⟩, hver, p, hp, hpr, hpp⟩ := h.rows kind m hmem
    exact ⟨⟨b, List.mem_filter.mpr ⟨hb, by rw [hr]; exact hne⟩, hj, hr, hrest⟩, hver, p,
      List.mem_filter.mpr ⟨hp, by rw [hpr]; exact hne⟩, hpr, hpp⟩
  · obtain ⟨hpm, hne⟩ := List.mem_filter.mp hpm
    have hrows : rowsOf ((u.manifest kind).filter fun m => m.runId != runId) p.runId p.producerId =
        rowsOf (u.manifest kind) p.runId p.producerId := by
      refine filter_filter_keep fun m _ hsel => ?_
      simp only [Bool.and_eq_true, beq_iff_eq] at hsel
      rw [hsel.1]
      exact hne
    rw [manifest_delete, hrows]
    exact h.counts p hpm kind

/-- **Every move of a call keeps the ledger.** -/
theorem Move.ledgerInv (h : Move cfg op u v) (hi : Inv u) (hl : LedgerInv u) : LedgerInv v := by
  have hk := hi.keys
  have hmk : ∀ {w w' : SQLiteJournal}, w'.nodeManifest = w.nodeManifest →
      w'.edgeManifest = w.edgeManifest → ∀ kind, w'.manifest kind = w.manifest kind := by
    intro w w' hn he kind
    cases kind
    · exact hn
    · exact he
  cases h with
  | rows f hf => exact hl.map (fun b hm => (hf b hm).sameCount) rfl (hmk rfl rfl) rfl
  | ack b token ms now barriers hop hm ho hd =>
    exact hl.ack hi hm (ownedBy_held ho).1 rfl ⟨rfl, rfl⟩ rfl
  | fail b b' token now g hop hm ho hf hg =>
    exact hl.map (fail_sameCount hk hm ho hf) rfl (hmk rfl rfl) rfl
  | quarantine runId g ha hg =>
    exact hl.map (fun c _ => quarantine_sameCount runId c) rfl (hmk rfl rfl) rfl
  | enqueue t run spec jobId rows now artifacts barriers h ht hp =>
    exact hl.enqueue (b := spec.batch run.runId jobId now) ht ⟨rfl, rfl, by simp [BatchSpec.batch]⟩
      (fun hne => absurd rfl hne) (stageBatch_frame ht).batches (hmk rfl rfl) rfl
  | reject t run spec jobId rows now artifacts failure g h ht hf hg =>
    exact hl.enqueue ht ⟨rfl, rfl, by simp [rejectBatch]⟩ (fun _ => rfl) rfl (hmk rfl rfl) rfl
  | complete runId now hop hr hn he hm => exact hl.complete hm rfl (hmk rfl rfl) rfl
  | delete runId hop => exact hl.delete runId
  | _ => exact hl.same rfl (hmk rfl rfl) rfl

theorem Reachable.ledgerInv (h : Reachable cfg s) : LedgerInv s :=
  h.of_move .empty fun _ _ _ hi hm hl => hm.ledgerInv hi hl

/-! ## Totals -/

theorem ofRows_classified (rows : List ManifestRow) :
    (ManifestCounts.ofRows rows).emitted =
      (ManifestCounts.ofRows rows).unique + (ManifestCounts.ofRows rows).duplicate +
        (ManifestCounts.ofRows rows).conflict + (ManifestCounts.ofRows rows).rejected := by
  induction rows with
  | nil => rfl
  | cons m rows ih =>
    simp only [ManifestCounts.ofRows, List.length_cons, List.countP_cons] at ih ⊢
    cases m.disposition <;> simp <;> omega

theorem totals_eq (rows : List ManifestRow) (runId : String) :
    ManifestCounts.ofRows (rows.filter fun m => m.runId == runId) =
      ⟨(totals rows runId).emitted, (totals rows runId).stagedUnique,
        (totals rows runId).declaredDuplicate, (totals rows runId).conflict,
        (totals rows runId).rejected⟩ := by
  simp only [ManifestCounts.ofRows, totals, dispositionCount, ← List.countP_eq_length_filter,
    List.countP_filter, Bool.and_comm]

/-- `SELECT SUM(f) FROM producer_completion WHERE run_id = ?`. -/
def producerSum (s : SQLiteJournal) (runId : String) (f : Producer → Nat) : Nat :=
  ((s.producers.filter fun p => p.runId == runId).map f).sum

theorem sum_rowsOf (hk : Keys s) (h : LedgerInv s) (kind : ManifestKind) (runId : String)
    (q : ManifestRow → Bool) :
    producerSum s runId (fun p => (rowsOf (s.manifest kind) p.runId p.producerId).countP q) =
      ((s.manifest kind).filter fun m => m.runId == runId).countP q := by
  have hnd : ((s.producers.filter fun p => p.runId == runId).map Producer.producerId).Nodup := by
    have hpair := hk.producers.filter fun p => p.runId == runId
    refine List.Nodup.of_map (fun pid => (runId, pid)) ?_
    rw [List.map_map]
    refine (List.map_congr_left fun p hp => ?_) ▸ hpair
    have hr : p.runId = runId := by simpa using (List.mem_filter.mp hp).2
    simp [hr]
  have hcover : ∀ m ∈ (s.manifest kind).filter (fun m => m.runId == runId),
      m.producerId ∈ (s.producers.filter fun p => p.runId == runId).map Producer.producerId := by
    intro m hm
    obtain ⟨hm, hr⟩ := List.mem_filter.mp hm
    obtain ⟨p, hp, hpr, hpp⟩ := (h.rows kind m hm).producer
    exact List.mem_map.mpr ⟨p, List.mem_filter.mpr ⟨hp, by rw [hpr]; exact hr⟩, hpp⟩
  rw [← sum_countP_groups hnd hcover q, producerSum, List.map_map]
  congr 1
  refine List.map_congr_left fun p hp => ?_
  have hr : p.runId = runId := by simpa using (List.mem_filter.mp hp).2
  simp only [rowsOf, Function.comp, List.countP_filter, hr]
  refine List.countP_congr fun m _ => ?_
  simp only [Bool.and_eq_true, decide_eq_true_eq, beq_iff_eq]
  tauto

/-- **The counters of the producers of a run add up to the totals of its rows.** -/
theorem producer_totals (hk : Keys s) (h : LedgerInv s) (kind : ManifestKind) (runId : String) :
    (⟨producerSum s runId fun p => (p.counts kind).emitted,
      producerSum s runId fun p => (p.counts kind).unique,
      producerSum s runId fun p => (p.counts kind).duplicate,
      producerSum s runId fun p => (p.counts kind).conflict,
      producerSum s runId fun p => (p.counts kind).rejected⟩ : ManifestCounts) =
      ManifestCounts.ofRows ((s.manifest kind).filter fun m => m.runId == runId) := by
  have hsum : ∀ (f : ManifestCounts → Nat) (q : ManifestRow → Bool),
      (∀ rows, f (ManifestCounts.ofRows rows) = rows.countP q) →
      producerSum s runId (fun p => f (p.counts kind)) =
        f (ManifestCounts.ofRows ((s.manifest kind).filter fun m => m.runId == runId)) := by
    intro f q hf
    rw [hf, ← sum_rowsOf hk h kind runId q, producerSum, producerSum]
    congr 1
    refine List.map_congr_left fun p hp => ?_
    rw [h.counts p (List.mem_of_mem_filter hp) kind, hf]
  rw [hsum ManifestCounts.emitted (fun _ => true) fun rows => by simp [ManifestCounts.ofRows],
    hsum ManifestCounts.unique _ fun _ => rfl, hsum ManifestCounts.duplicate _ fun _ => rfl,
    hsum ManifestCounts.conflict _ fun _ => rfl, hsum ManifestCounts.rejected _ fun _ => rfl]

/-! ## The whole -/

/-- What the manifests, the producer counters and the summary say in the state `s`. -/
structure ManifestLedger (cfg : Config) (s : SQLiteJournal) : Prop where
  /-- at most one staged row per run and identity -/
  unique : ∀ kind runId identity, (s.manifest kind).countP (stagedAs runId identity) ≤ 1
  /-- a duplicate carries the digest of the staged row of its identity -/
  duplicate : ∀ kind, ∀ m ∈ s.manifest kind, m.disposition = .declaredDuplicate →
    (∃ x ∈ s.manifest kind, stagedAs m.runId m.identity x = true) ∧
    ∀ x ∈ s.manifest kind, stagedAs m.runId m.identity x = true → x.payloadDigest = m.payloadDigest
  /-- a conflict carries another one -/
  conflict : ∀ kind, ∀ m ∈ s.manifest kind, m.disposition = .conflict →
    (∃ x ∈ s.manifest kind, stagedAs m.runId m.identity x = true) ∧
    ∀ x ∈ s.manifest kind, stagedAs m.runId m.identity x = true → x.payloadDigest ≠ m.payloadDigest
  /-- `emitted` is the sum of the dispositions in the summary -/
  summary : ∀ runId, (conservationSummary cfg s runId).node.classified = true ∧
    (conservationSummary cfg s runId).edge.classified = true
  /-- and over the producers -/
  producers : ∀ kind runId, producerSum s runId (fun p => (p.counts kind).emitted) =
    producerSum s runId (fun p => (p.counts kind).unique) +
      producerSum s runId (fun p => (p.counts kind).duplicate) +
      producerSum s runId (fun p => (p.counts kind).conflict) +
      producerSum s runId (fun p => (p.counts kind).rejected)
  /-- the two sets of totals agree -/
  agree : ∀ kind runId,
    (⟨producerSum s runId fun p => (p.counts kind).emitted,
      producerSum s runId fun p => (p.counts kind).unique,
      producerSum s runId fun p => (p.counts kind).duplicate,
      producerSum s runId fun p => (p.counts kind).conflict,
      producerSum s runId fun p => (p.counts kind).rejected⟩ : ManifestCounts) =
    ⟨(totals (s.manifest kind) runId).emitted, (totals (s.manifest kind) runId).stagedUnique,
      (totals (s.manifest kind) runId).declaredDuplicate, (totals (s.manifest kind) runId).conflict,
      (totals (s.manifest kind) runId).rejected⟩
  /-- a row is acknowledged and verified exactly when it is staged and its batch is done -/
  acked : ∀ kind, ∀ m ∈ s.manifest kind, m.graphVerified = m.acked ∧
    (m.acked = true ∧ m.graphVerified = true ↔
      m.disposition = .stagedUnique ∧ ∃ b ∈ s.batches, b.jobId = m.jobId ∧ b.status = .done)
  /-- an open, draining or drained run has no invalid row -/
  clean : ∀ r ∈ s.runs, r.status = .opened ∨ r.status = .draining ∨ r.status = .drained →
    ∀ kind, ∀ m ∈ s.manifest kind, m.runId = r.runId →
      m.disposition ≠ .conflict ∧ m.disposition ≠ .rejected

theorem not_rejected_of_run (hi : Inv s) {r : Run} (hr : r ∈ s.runs)
    (hs : r.status = .opened ∨ r.status = .draining ∨ r.status = .drained) {b : Batch}
    (hb : b ∈ s.batches) (hid : b.runId = r.runId) : b.rejected = false := by
  by_contra hne
  have hbl := (hi.valid b hb).detail ((Bool.not_eq_false _).mp hne)
  rcases hs with h | h | h
  · have := (hi.runs r hr).clean (by rw [h]; rfl) b hb hid (by rw [hbl]; rfl)
    rw [hbl] at this
    cases this
  · have := (hi.runs r hr).clean (by rw [h]; rfl) b hb hid (by rw [hbl]; rfl)
    rw [hbl] at this
    cases this
  · have := (hi.runs r hr).drained h b hb hid
    rw [hbl] at this
    cases this

/-- **The manifest ledger** in every reachable state. -/
theorem manifest_ledger (h : Reachable cfg s) : ManifestLedger cfg s := by
  have hi := h.inv
  have hl := h.ledgerInv
  have hone : ∀ {kind} {m x y : ManifestRow}, x ∈ s.manifest kind → y ∈ s.manifest kind →
      stagedAs m.runId m.identity x = true → stagedAs m.runId m.identity y = true → x = y :=
    fun {kind} {m} _ _ hx hy => eq_of_countP_le_one ((hl.ledger kind).unique m.runId m.identity) hx hy
  have hclass : ∀ kind runId, (totals (s.manifest kind) runId).classified = true := by
    intro kind runId
    have := ofRows_classified ((s.manifest kind).filter fun m => m.runId == runId)
    rw [totals_eq] at this
    simpa [Totals.classified] using this
  have hagree := fun kind runId =>
    (producer_totals hi.keys hl kind runId).trans (totals_eq (s.manifest kind) runId)
  refine ⟨fun kind => (hl.ledger kind).unique, fun kind m hm hd => ?_, fun kind m hm hd => ?_,
    fun runId => ⟨hclass .node runId, hclass .edge runId⟩, fun kind runId => ?_, hagree,
    fun kind m hm => ?_, fun r hr hs kind m hm hid => ?_⟩
  · obtain ⟨x, hx, hxs, hxd⟩ := (hl.ledger kind).duplicate m hm hd
    exact ⟨⟨x, hx, hxs⟩, fun y hy hys => hone hx hy hxs hys ▸ hxd⟩
  · obtain ⟨x, hx, hxs, hxd⟩ := (hl.ledger kind).conflict m hm hd
    exact ⟨⟨x, hx, hxs⟩, fun y hy hys => hone hx hy hxs hys ▸ hxd⟩
  · have hc := ofRows_classified ((s.manifest kind).filter fun m => m.runId == runId)
    rw [← producer_totals hi.keys hl kind runId] at hc
    exact hc
  · obtain ⟨⟨b, hb, hj, -, hack, -⟩, hver, -⟩ := hl.rows kind m hm
    refine ⟨hver, fun h => ?_, fun h => ?_⟩
    · obtain ⟨hd, hdone⟩ := hack.mp h.1
      exact ⟨hd, b, hb, hj, hdone⟩
    · obtain ⟨hd, c, hc, hcj, hdone⟩ := h
      rw [hi.keys.batch_eq hc hb (hcj.trans hj.symm)] at hdone
      have ha := hack.mpr ⟨hd, hdone⟩
      exact ⟨ha, hver.trans ha⟩
  · obtain ⟨⟨b, hb, -, hbr, -, hinv⟩, -, -⟩ := hl.rows kind m hm
    have hrej := not_rejected_of_run hi hr hs hb (hbr.trans hid)
    constructor <;> intro hd <;> simp [hd, ManifestDisposition.invalid, hrej] at hinv

/-! ## A sample ledger -/

/-- The SHA-256 of a file with the row `id = n1` twice. -/
def sampleRowsSha256 : String := "b14c0541563488f8b87fb837ed8f6aae5695c5d0c8f42491cdc203bf693e435a"

def sampleRowsJobId : String :=
  "job_503f5d52905d65c357886b372cc634bbda57c3c9457be32de28c7c77673e2b7e"

/-- The row of the sample file. -/
def sampleRow : Json := .obj [("id", .str "n1")]

/-- SHA-256 on the texts that staging the sample file hashes. -/
def sampleRowsHash (text : String) : String :=
  if text = Json.dumps (.obj [("run_fingerprint", .str sampleFingerprint), ("phase", .str "nodes"),
      ("operation_key", .str "op"), ("sequence", .int 0),
      ("payload_sha256", .str sampleRowsSha256)]) then
    "503f5d52905d65c357886b372cc634bbda57c3c9457be32de28c7c77673e2b7e"
  else if text = Json.dumps (.obj [("job_id", .str sampleRowsJobId), ("kind", .str "node"),
      ("row", .int 0)]) then
    "19d693bfbaedc48bf4a9d3565c2b2b12ea2f2d3633a333503f65a1e087e45c63"
  else if text = Json.dumps (.obj [("job_id", .str sampleRowsJobId), ("kind", .str "node"),
      ("row", .int 1)]) then
    "c7312b7842844254a1db3656cf00d99efc16f1fadf7067624f61e5039099771f"
  else if text = sampleRow.dumps then
    "d7d34873058238dc72bd1d18504ef85623b772c36b59e5dd95d3aff59ead57dc"
  else sampleSha256 text

def sampleRowsConfig : Config := { python := ⟨sampleRowsHash, fun _ => "", id, fun _ => .error ""⟩ }

/-- A batch of nodes with a replay descriptor. -/
def sampleRowsSpec : BatchSpec :=
  { sampleSpec 0 with
    artifact := ⟨sampleRowsSha256, sampleRunId ++ "/" ++ sampleRowsSha256 ++ ".jsonl", 24, 2⟩
    expectedCount := 2
    operation := [("reconciliation", .str "node_identity"), ("node_label", .str "Function"),
      ("identity_property", .str "id")] }

/-- Two sightings of one node, staged, leased and acknowledged. -/
def sampleStaged : List Op :=
  [.openRun (sampleMetadata "g1") 0 0 1000000000 0,
    .enqueueBatch sampleRunId sampleRowsSpec
      [⟨[sampleRunId, sampleRowsSha256 ++ ".jsonl"], 24, sampleRowsSha256,
        some [sampleRow, sampleRow]⟩] 1000000000 0,
    .claimBatch none 60 "a1" 0, .ackBatch sampleRowsJobId "a1" none 0]

theorem manifest_ledger_sample :
    Reachable sampleRowsConfig (runOps sampleRowsConfig .empty sampleStaged) ∧
    (runOps sampleRowsConfig .empty sampleStaged).nodeManifest.map
        (fun m => (m.disposition, m.acked)) =
      [(.stagedUnique, true), (.declaredDuplicate, false)] ∧
    ManifestLedger sampleRowsConfig (runOps sampleRowsConfig .empty sampleStaged) :=
  ⟨⟨_, rfl⟩, by decide +kernel, manifest_ledger ⟨_, rfl⟩⟩

end CortexHarness.Journal
