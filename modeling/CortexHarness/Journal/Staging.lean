import CortexHarness.Journal.Production

/-!
# What staging a batch changes

Inversion of `_stage_manifests_locked`: it writes the manifests, the endpoints and the counters of
one producer, and nothing else.

* `stageBatch_frame`: the other tables are untouched;
* `stageManifests_inv`: the producer row is there and open, the loop ran, and the counters of the
  loop were added to that row;
* `stageBatch_other`: the rows of the other runs are untouched.
-/

namespace CortexHarness.Journal

open Table

variable {cfg : Config} {runId jobId producerId : String}

/-- The tables staging does not touch are those of `s`. -/
structure StagingFrame (s t : SQLiteJournal) : Prop where
  runs : t.runs = s.runs
  artifacts : t.artifacts = s.artifacts
  batches : t.batches = s.batches
  barriers : t.barriers = s.barriers
  audits : t.endpointAudits = s.endpointAudits
  events : t.events = s.events

theorem StagingFrame.refl (s : SQLiteJournal) : StagingFrame s s := ⟨rfl, rfl, rfl, rfl, rfl, rfl⟩

theorem StagingFrame.trans {s t u : SQLiteJournal} (h : StagingFrame s t) (h' : StagingFrame t u) :
    StagingFrame s u :=
  ⟨h'.runs.trans h.runs, h'.artifacts.trans h.artifacts, h'.batches.trans h.batches,
    h'.barriers.trans h.barriers, h'.audits.trans h.audits, h'.events.trans h.events⟩

theorem stageCandidate_inv {s t : SQLiteJournal} {k k' : StagingCounts} {c : Candidate}
    (h : stageCandidate runId jobId producerId s k c = .ok (k', t)) :
    (∀ m ∈ s.manifest c.kind, ¬ (m.runId = runId ∧ m.manifestId = c.manifestId)) ∧
    k' = k.record c.kind (resolveDisposition (s.manifest c.kind) runId c) ∧
    ((c.kind = .node ∧ t = { s with nodeManifest := s.nodeManifest ++
        [c.row runId jobId producerId (resolveDisposition s.nodeManifest runId c)] }) ∨
     (c.kind = .edge ∧ t = { s with
        edgeManifest := s.edgeManifest ++
          [c.row runId jobId producerId (resolveDisposition s.edgeManifest runId c)]
        edgeEndpoints := s.edgeEndpoints ++ c.endpointRows runId })) := by
  unfold stageCandidate at h
  simp only at h
  split at h
  · cases h
  · rename_i hkey
    have hfresh : ∀ m ∈ s.manifest c.kind, ¬ (m.runId = runId ∧ m.manifestId = c.manifestId) := by
      intro m hm hc
      exact hkey (List.any_eq_true.mpr ⟨m, hm, by simp [hc.1, hc.2]⟩)
    cases hc : c.kind with
    | node =>
      simp only [hc, Except.ok.injEq, Prod.mk.injEq] at h hfresh
      exact ⟨hfresh, h.1.symm, .inl ⟨rfl, h.2.symm⟩⟩
    | edge =>
      simp only [hc, Except.ok.injEq, Prod.mk.injEq] at h hfresh
      exact ⟨hfresh, h.1.symm, .inr ⟨rfl, h.2.symm⟩⟩

/-- The loop keeps what every iteration keeps. -/
theorem stageCandidates_induct {P : SQLiteJournal → StagingCounts → Prop} {cs : List Candidate}
    (hstep : ∀ s k c t k', c ∈ cs → P s k →
      stageCandidate runId jobId producerId s k c = .ok (k', t) → P t k')
    {s t : SQLiteJournal} {k k' : StagingCounts} (hP : P s k)
    (h : stageCandidates runId jobId producerId s k cs = .ok (k', t)) : P t k' := by
  induction cs generalizing s k with
  | nil =>
    simp only [stageCandidates, Except.ok.injEq, Prod.mk.injEq] at h
    obtain ⟨rfl, rfl⟩ := h
    exact hP
  | cons c cs ih =>
    simp only [stageCandidates] at h
    split at h
    · cases h
    · rename_i k₁ s₁ hc
      refine ih (fun s k c' t k' hc' => ?_) (hstep s k c s₁ k₁ List.mem_cons_self hP hc) h
      exact hstep s k c' t k' (List.mem_cons_of_mem _ hc')

theorem stageCandidate_frame {s t : SQLiteJournal} {k k' : StagingCounts} {c : Candidate}
    (h : stageCandidate runId jobId producerId s k c = .ok (k', t)) :
    StagingFrame s t ∧ t.producers = s.producers := by
  obtain ⟨-, -, ⟨-, rfl⟩ | ⟨-, rfl⟩⟩ := stageCandidate_inv h
  · exact ⟨⟨rfl, rfl, rfl, rfl, rfl, rfl⟩, rfl⟩
  · exact ⟨⟨rfl, rfl, rfl, rfl, rfl, rfl⟩, rfl⟩

theorem stageCandidates_frame {s t : SQLiteJournal} {k k' : StagingCounts} {cs : List Candidate}
    (h : stageCandidates runId jobId producerId s k cs = .ok (k', t)) :
    StagingFrame s t ∧ t.producers = s.producers := by
  refine stageCandidates_induct (P := fun t _ => StagingFrame s t ∧ t.producers = s.producers)
    (fun u k c v k' _ hu hv => ?_) ⟨.refl s, rfl⟩ h
  obtain ⟨hf, hp⟩ := stageCandidate_frame hv
  exact ⟨hu.1.trans hf, hp.trans hu.2⟩

/-- `_stage_manifests_locked`, inverted. -/
theorem stageManifests_inv {s t : SQLiteJournal} {candidates : List Candidate}
    {failure : List (String × Nat)}
    (h : stageManifests s runId jobId producerId candidates = .ok (failure, t)) :
    (∀ p, s.getProducer runId producerId = some p → p.status = .opened) ∧
    ∃ k u, stageCandidates runId jobId producerId
        { s with producers := registerProducer s.producers runId producerId } {} candidates =
          .ok (k, u) ∧
      failure = k.failure ∧
      t = { u with
        producers := updateWhere (fun p => decide ((p.runId, p.producerId) = (runId, producerId)))
          (fun p => { p with node := p.node.add k.node, edge := p.edge.add k.edge }) u.producers } := by
  unfold stageManifests at h
  simp only at h
  split at h
  · cases h
  · rename_i hopen
    refine ⟨fun p hp => ?_, ?_⟩
    · by_contra hne
      exact hopen (by simp [hp, hne])
    · split at h
      · cases h
      · rename_i k u hu
        cases h
        exact ⟨k, u, hu, rfl, rfl⟩

theorem stageManifests_frame {s t : SQLiteJournal} {candidates : List Candidate}
    {failure : List (String × Nat)}
    (h : stageManifests s runId jobId producerId candidates = .ok (failure, t)) :
    StagingFrame s t := by
  obtain ⟨-, k, u, hu, -, rfl⟩ := stageManifests_inv h
  have hf := (stageCandidates_frame hu).1
  exact ⟨hf.runs, hf.artifacts, hf.batches, hf.barriers, hf.audits, hf.events⟩

theorem stageBatch_cases {s t : SQLiteJournal} {run : Run} {spec : BatchSpec} {rows : List Json}
    {failure : List (String × Nat)} (h : stageBatch cfg s run spec jobId rows = .ok (failure, t)) :
    (failure = [] ∧ t = s) ∨
    ∃ producerId candidates,
      manifestCandidates cfg.python run.metadata spec rows jobId = some (producerId, candidates) ∧
      stageManifests s run.runId jobId producerId candidates = .ok (failure, t) := by
  unfold stageBatch at h
  split at h
  · rename_i producerId candidates hc
    exact .inr ⟨producerId, candidates, hc, h⟩
  · simp only [Except.ok.injEq, Prod.mk.injEq] at h
    exact .inl ⟨h.1.symm, h.2.symm⟩

/-- Staging leaves every table but the manifests and the producers as it is. -/
theorem stageBatch_frame {s t : SQLiteJournal} {run : Run} {spec : BatchSpec} {rows : List Json}
    {failure : List (String × Nat)} (h : stageBatch cfg s run spec jobId rows = .ok (failure, t)) :
    StagingFrame s t := by
  rcases stageBatch_cases h with ⟨-, rfl⟩ | ⟨p, c, -, hs⟩
  · exact .refl _
  · exact stageManifests_frame hs

theorem keyed_registerProducer {producers : List Producer}
    (h : Keyed (fun p : Producer => (p.runId, p.producerId)) producers) :
    Keyed (fun p : Producer => (p.runId, p.producerId))
      (registerProducer producers runId producerId) := by
  unfold registerProducer
  split
  · exact h
  · rename_i hn
    refine h.append_singleton fun p hp he => hn ?_
    rw [Option.isSome_iff_exists]
    exact ⟨p, (lookup_eq_some h).mpr ⟨hp, he⟩⟩

theorem stageBatch_producers {s t : SQLiteJournal} {run : Run} {spec : BatchSpec} {rows : List Json}
    {failure : List (String × Nat)} (h : stageBatch cfg s run spec jobId rows = .ok (failure, t))
    (hk : Keyed (fun p : Producer => (p.runId, p.producerId)) s.producers) :
    Keyed (fun p : Producer => (p.runId, p.producerId)) t.producers := by
  rcases stageBatch_cases h with ⟨-, rfl⟩ | ⟨p, c, -, hs⟩
  · exact hk
  · obtain ⟨-, k, u, hu, -, rfl⟩ := stageManifests_inv hs
    refine Keyed.updateWhere ?_ fun p => rfl
    rw [(stageCandidates_frame hu).2]
    exact keyed_registerProducer hk

/-! ## Other runs -/

/-- The manifest, endpoint and producer rows of a run are those of `s`. -/
structure SameStaging (s t : SQLiteJournal) (runId : String) : Prop where
  nodes : t.nodeManifest.filter (fun m => m.runId == runId) =
    s.nodeManifest.filter fun m => m.runId == runId
  edges : t.edgeManifest.filter (fun m => m.runId == runId) =
    s.edgeManifest.filter fun m => m.runId == runId
  endpoints : t.edgeEndpoints.filter (fun e => e.runId == runId) =
    s.edgeEndpoints.filter fun e => e.runId == runId
  producers : t.producers.filter (fun p => p.runId == runId) =
    s.producers.filter fun p => p.runId == runId

theorem SameStaging.refl (s : SQLiteJournal) (runId : String) : SameStaging s s runId :=
  ⟨rfl, rfl, rfl, rfl⟩

theorem SameStaging.trans {s t u : SQLiteJournal} {r : String} (h : SameStaging s t r)
    (h' : SameStaging t u r) : SameStaging s u r :=
  ⟨h'.nodes.trans h.nodes, h'.edges.trans h.edges, h'.endpoints.trans h.endpoints,
    h'.producers.trans h.producers⟩

theorem stageCandidate_other {s t : SQLiteJournal} {k k' : StagingCounts} {c : Candidate}
    {r : String} (hne : runId ≠ r)
    (h : stageCandidate runId jobId producerId s k c = .ok (k', t)) : SameStaging s t r := by
  have hrow : ∀ d, ∀ m ∈ [c.row runId jobId producerId d], (m.runId == r) = false := by
    intro d m hm
    rw [List.mem_singleton.mp hm]
    exact beq_false_of_ne hne
  obtain ⟨-, -, ⟨-, rfl⟩ | ⟨-, rfl⟩⟩ := stageCandidate_inv h
  · exact ⟨filter_append_none (hrow _), rfl, rfl, rfl⟩
  · refine ⟨rfl, filter_append_none (hrow _), filter_append_none fun e he => ?_, rfl⟩
    obtain ⟨x, -, rfl⟩ := List.mem_map.mp he
    exact beq_false_of_ne hne

theorem registerProducer_other {producers : List Producer} {r : String} (hne : runId ≠ r) :
    (registerProducer producers runId producerId).filter (fun p => p.runId == r) =
      producers.filter fun p => p.runId == r := by
  unfold registerProducer
  split
  · rfl
  · refine filter_append_none fun p hp => ?_
    rw [List.mem_singleton.mp hp]
    exact beq_false_of_ne hne

/-- Staging a batch of one run leaves the rows of the other runs as they are. -/
theorem stageBatch_other {s t : SQLiteJournal} {run : Run} {spec : BatchSpec} {rows : List Json}
    {failure : List (String × Nat)} {r : String} (hne : run.runId ≠ r)
    (h : stageBatch cfg s run spec jobId rows = .ok (failure, t)) : SameStaging s t r := by
  rcases stageBatch_cases h with ⟨-, rfl⟩ | ⟨p, c, -, hs⟩
  · exact .refl _ _
  · obtain ⟨-, k, u, hu, -, rfl⟩ := stageManifests_inv hs
    have hloop := stageCandidates_induct (P := fun t _ => SameStaging
        { s with producers := registerProducer s.producers run.runId p } t r)
      (fun u k c v k' _ hu hv => hu.trans (stageCandidate_other hne hv)) (.refl _ _) hu
    refine ⟨hloop.nodes, hloop.edges, hloop.endpoints, ?_⟩
    refine Eq.trans (filter_map_fixed (fun x _ => ?_) fun x _ hx => ?_)
      (hloop.producers.trans (registerProducer_other hne))
    · split <;> rfl
    · refine if_neg ?_
      rw [decide_eq_true_eq, Prod.mk.injEq]
      exact fun hc => hne (hc.1.symm.trans (eq_of_beq hx))

end CortexHarness.Journal
