import CortexHarness.Journal.ArtifactStore

/-!
# Purging a run, interrupted anywhere

`purge_run` (`sqlite_store.py:2943-3015`) commits a marker, unlinks the files of the run and deletes
its rows in a second transaction. `World` is the journal with its artifact directory and the purges
that are between their two transactions; `WorldOp` is one step of anyone, so that a purge can stop
after any of its steps while the others go on.

Results:
* `World.Ok`: in every reachable world a purge in progress has its run marked, terminal, past
  retention and without fenced work, and the artifacts of the other runs verify;
* `purge_uninterrupted`: an uninterrupted purge is its steps one after the other;
* `purge_crash_safe`: **an interrupted purge does not disturb the reopening, can be completed later,
  and unlinks no file of another run or of a run that may not be purged**;
* `reopen_clean`: reopening raises nothing when every stored path is spelt as the store spells it.

Model notes: the exact-scope ownership lock, which `purge_run` requires its caller to hold, is that
no purge of a run begins while another one of that run is in progress. The rows of a `SELECT` come
in any order, so a purge unlinks the files of its references in any order.
-/

namespace CortexHarness.Journal

open Table

/-- A purge between its two transactions: its clock and the references it has still to remove. -/
structure Purge where
  runId : String
  now : Time
  remaining : List Artifact

/-- The journal, its artifact files, and the purges in progress. -/
structure World where
  journal : SQLiteJournal := .empty
  files : Files := []
  purges : List Purge := []

/-- One step. -/
inductive WorldOp where
  /-- a call of the journal; `enqueue_batch` reads the files there are -/
  | call (op : Op)
  | createArtifact (runId : String) (rows : List Json) (maxArtifactBytes : Nat) (free : Int)
  | cleanupOrphanArtifacts (ownershipConfirmed : Bool) (olderThanSeconds : Int)
      (aged : StoredFile → Bool)
  /-- the first transaction of `purge_run` -/
  | beginPurge (runId : String) (ownershipConfirmed : Bool) (now : Time)
  /-- `self.artifacts.remove(ref)` -/
  | unlink (runId : String) (ref : Artifact)
  /-- the second transaction of `purge_run` -/
  | commitPurge (runId : String)
  /-- the purge stops: its process crashed, or a removal raised -/
  | interrupt (runId : String)

/-- The call with the files of the world. -/
def Op.reading (files : Files) : Op → Op
  | .enqueueBatch runId spec _ free now => .enqueueBatch runId spec files free now
  | op => op

/-- The two transactions of a purge, which are steps of their own. -/
def Op.ofPurge : Op → Bool
  | .purgeRun _ _ _ => true
  | .deleteRun _ => true
  | _ => false

/-- The loop over the references. -/
def removeArtifacts (files : Files) (refs : List Artifact) : Files :=
  refs.foldl (fun files a => removeArtifact files a.relativePath) files

namespace World

variable (cfg : Config) (w : World)

/-- The purge of a run in progress. -/
def purging (runId : String) : Option Purge := lookup Purge.runId runId w.purges

/-- Stop the purge of a run. -/
def interrupt (runId : String) : World :=
  { w with purges := w.purges.filter fun p => p.runId != runId }

/-- `create_artifact`. -/
def createArtifact (runId : String) (rows : List Json) (maxArtifactBytes : Nat) (free : Int) :
    Except Failure ArtifactRef × World :=
  let written := writeJsonl cfg maxArtifactBytes free w.files runId rows
  match Journal.createArtifact w.journal runId written.1 with
  | .error e => (.error e, w)
  | .ok ref => (.ok ref, { w with files := written.2 })

/-- The first transaction of `purge_run`, under the ownership lock. -/
def beginPurge (runId : String) (ownershipConfirmed : Bool) (now : Time) : World :=
  match w.purging runId with
  | some _ => w
  | none =>
    match Journal.purgeRun w.journal runId ownershipConfirmed now with
    | .error _ => w
    | .ok (refs, journal) =>
      if w.journal.getRun runId = none then w
      else { w with journal, purges := w.purges ++ [⟨runId, now, refs⟩] }

/-- One turn of the loop of `purge_run`. -/
def unlink (runId : String) (ref : Artifact) : World :=
  match w.purging runId with
  | none => w
  | some p =>
    if ref ∈ p.remaining then
      { w with
        files := removeArtifact w.files ref.relativePath
        purges := updateWhere (fun p => decide (p.runId = runId))
          (fun p => { p with remaining := p.remaining.erase ref }) w.purges }
    else w

/-- The second transaction of `purge_run`. -/
def commitPurge (runId : String) : World :=
  match w.purging runId with
  | none => w
  | some p =>
    if p.remaining = [] then
      { w.interrupt runId with journal := deleteRun w.journal runId }
    else w

/-- The world after one step. -/
def step : WorldOp → World
  | .call op =>
    if op.ofPurge then w
    else { w with journal := Journal.step cfg w.journal (op.reading w.files) }
  | .createArtifact runId rows maxArtifactBytes free =>
    (w.createArtifact cfg runId rows maxArtifactBytes free).2
  | .cleanupOrphanArtifacts confirmed olderThanSeconds aged =>
    match cleanupOrphanArtifacts w.journal w.files confirmed olderThanSeconds aged with
    | .error _ => w
    | .ok files => { w with files }
  | .beginPurge runId confirmed now => w.beginPurge runId confirmed now
  | .unlink runId ref => w.unlink runId ref
  | .commitPurge runId => w.commitPurge runId
  | .interrupt runId => w.interrupt runId

/-- The world after a sequence of steps. -/
abbrev run (ops : List WorldOp) : World := Run.run (step cfg) w ops

@[simp] theorem run_nil : w.run cfg [] = w := rfl

@[simp] theorem run_cons (op : WorldOp) (ops : List WorldOp) :
    w.run cfg (op :: ops) = (w.step cfg op).run cfg ops := rfl

theorem run_append (ops ops' : List WorldOp) :
    w.run cfg (ops ++ ops') = (w.run cfg ops).run cfg ops' := Run.run_append ..

/-- A world that steps can bring about. -/
def Reachable : Prop := ∃ ops, w = run cfg {} ops

/-- What `SQLiteJournal(path)` does with the world when it opens the journal: the recovery of
expired leases, and the verification of the artifacts. -/
def reopen (now : Time) : Except Failure Unit × World :=
  let w := w.step cfg (.call (.recoverExpiredLeases now))
  (verifyReferencedArtifacts w.files w.journal, w)

/-- `purge_run`, uninterrupted. -/
def purgeRun (runId : String) (ownershipConfirmed : Bool) (now : Time) :
    Except Failure Nat × World :=
  match Journal.purgeRun w.journal runId ownershipConfirmed now with
  | .error e => (.error e, w)
  | .ok (refs, journal) =>
    if w.journal.getRun runId = none then (.ok 0, w)
    else
      (.ok refs.length, { w with
        journal := deleteRun journal runId
        files := removeArtifacts w.files refs })

end World

variable {cfg : Config} {w : World} {runId : String} {now : Time}

/-! ## The invariant -/

/-- What a purge in progress has checked and written. -/
structure Purge.Sound (s : SQLiteJournal) (p : Purge) : Prop where
  purgeable : Purgeable s p.runId p.now
  marked : s.purgeStarted p.runId = true
  own : ∀ a ∈ p.remaining, posixParts a.relativePath = [p.runId, a.sha256 ++ ".jsonl"]

/-- What every reachable world satisfies. -/
structure World.Ok (cfg : Config) (w : World) : Prop where
  journal : Journal.Reachable cfg w.journal
  paths : ∀ a ∈ w.journal.artifacts, posixParts a.relativePath = [a.runId, a.sha256 ++ ".jsonl"]
  kept : ∀ a ∈ w.journal.artifacts, w.journal.purgeStarted a.runId = false →
    Canonical a.relativePath → Verifies w.files a.ref
  purges : ∀ p ∈ w.purges, p.Sound w.journal
  locked : Keyed Purge.runId w.purges

namespace World.Ok

theorem empty : World.Ok cfg {} :=
  ⟨.empty cfg, fun _ h => absurd h List.not_mem_nil, fun _ h => absurd h List.not_mem_nil,
    fun _ h => absurd h List.not_mem_nil, List.nodup_nil⟩

theorem purging_sound (h : w.Ok cfg) {p : Purge} (hp : w.purging runId = some p) :
    p.runId = runId ∧ p.Sound w.journal :=
  ⟨lookup_key hp, h.purges p (lookup_mem hp)⟩

theorem path_of_same (h : w.Ok cfg) {a a' : Artifact} (ha : a ∈ w.journal.artifacts)
    (hs : SameArtifact a a') : posixParts a'.relativePath = [a'.runId, a'.sha256 ++ ".jsonl"] := by
  have hsha : a'.sha256 = a.sha256 := congrArg ArtifactRef.sha256 hs.2
  have hrel : a'.relativePath = a.relativePath := congrArg ArtifactRef.relativePath hs.2
  rw [hsha, hrel, hs.1]
  exact h.paths a ha

theorem call (h : w.Ok cfg) (op : Op) (hop : ∀ runId, op ≠ .deleteRun runId)
    (hread : op.reading w.files = op) :
    World.Ok cfg { w with journal := Journal.step cfg w.journal op } := by
  have hi := h.journal.inv
  refine ⟨h.journal.step cfg op, fun a ha => ?_, fun a ha hu hc => ?_, fun p hp => ?_, h.locked⟩
  · rcases step_artifacts cfg hi op ha with ⟨b, hb, hs⟩ | hr
    · exact h.path_of_same hb hs
    · exact hr.path
  · rcases step_artifacts cfg hi op ha with ⟨b, hb, hs⟩ | hr
    · have hrel : a.relativePath = b.relativePath := congrArg ArtifactRef.relativePath hs.2
      rw [hs.2]
      refine h.kept b hb ?_ (hrel ▸ hc)
      -- the marker of the run would still be there
      rw [Bool.eq_false_iff]
      intro hm
      rw [hs.1] at hu
      rw [step_purgeStarted cfg hi op (hop _) hm] at hu
      cases hu
    · obtain ⟨spec, files, free, now, rfl, hv⟩ := hr.call
      rw [Op.reading, Op.enqueueBatch.injEq] at hread
      rw [hread.2.2.1]
      exact hv
  · have hp := h.purges p hp
    exact ⟨step_purgeable cfg hi op (hop _) hp.purgeable,
      step_purgeStarted cfg hi op (hop _) hp.marked, hp.own⟩

theorem createArtifact (h : w.Ok cfg) (runId : String) (rows : List Json)
    (maxArtifactBytes : Nat) (free : Int) :
    World.Ok cfg (w.createArtifact cfg runId rows maxArtifactBytes free).2 := by
  unfold World.createArtifact
  simp only
  split
  · exact h
  · exact ⟨h.journal, h.paths, fun a ha hu hc => verifies_write cfg (h.kept a ha hu hc), h.purges,
      h.locked⟩

theorem cleanup (h : w.Ok cfg) (aged : StoredFile → Bool) :
    World.Ok cfg { w with files := w.files.filter fun f => !orphaned w.journal aged f } :=
  ⟨h.journal, h.paths, fun a ha hu hc => verifies_cleanup ha hc (h.kept a ha hu hc), h.purges,
    h.locked⟩

theorem interrupt (h : w.Ok cfg) (runId : String) : World.Ok cfg (w.interrupt runId) :=
  ⟨h.journal, h.paths, h.kept, fun p hp => h.purges p (List.mem_filter.mp hp).1,
    h.locked.filter _⟩

/-- The first transaction has checked the run and marked it. -/
theorem beginPurge (h : w.Ok cfg) (runId : String) (confirmed : Bool) (now : Time) :
    World.Ok cfg (w.beginPurge runId confirmed now) := by
  unfold World.beginPurge
  split
  · exact h
  · rename_i hnone
    split
    · exact h
    · rename_i refs journal hp
      split
      · exact h
      · rename_i hr
        have hstep : Journal.step cfg w.journal (.purgeRun runId confirmed now) = journal := by
          simp only [Journal.step, exec, hp, transaction]
        have hok := h.call (.purgeRun runId confirmed now) (fun _ => Op.noConfusion) rfl
        rw [hstep] at hok
        obtain ⟨hpur, rfl, rfl⟩ := purgeRun_inv h.journal.inv.keys hp hr
        refine ⟨hok.journal, hok.paths, hok.kept, fun p hp => ?_, h.locked.append_singleton ?_⟩
        · rcases List.mem_append.mp hp with hp | hp
          · exact hok.purges p hp
          · rw [List.mem_singleton.mp hp]
            refine ⟨?_, markPurge_started _ _ _, fun a ha => ?_⟩
            · rw [← hstep]
              exact step_purgeable cfg h.journal.inv _ Op.noConfusion hpur
            · obtain ⟨ha, hid⟩ := List.mem_filter.mp ha
              rw [← eq_of_beq hid]
              exact h.paths a ha
        · exact lookup_eq_none.mp hnone

/-- The files of a purge are those of its run, so the artifacts of the other runs still verify. -/
theorem unlink (h : w.Ok cfg) (runId : String) (ref : Artifact) :
    World.Ok cfg (w.unlink runId ref) := by
  unfold World.unlink
  split
  · exact h
  · rename_i p hp
    obtain ⟨rfl, hs⟩ := h.purging_sound hp
    split
    · rename_i href
      refine ⟨h.journal, h.paths, fun a ha hu hc => ?_, fun q hq => ?_, h.locked.updateWhere
        fun _ => rfl⟩
      · refine verifies_remove (h.kept a ha hu hc) fun he => ?_
        have hid : a.runId = p.runId := by
          rw [Artifact.ref, h.paths a ha, hs.own ref href] at he
          exact (List.cons.inj he).1
        rw [hid, hs.marked] at hu
        cases hu
      · obtain ⟨q, hm, rfl⟩ := mem_updateWhere.mp hq
        have hq := h.purges q hm
        split
        · exact ⟨hq.purgeable, hq.marked, fun a ha => hq.own a (List.mem_of_mem_erase ha)⟩
        · exact hq
    · exact h

/-- The second transaction deletes the rows of its run and no others. -/
theorem commitPurge (h : w.Ok cfg) (runId : String) : World.Ok cfg (w.commitPurge runId) := by
  unfold World.commitPurge
  split
  · exact h
  · split
    · have hi := h.journal.inv
      refine ⟨h.journal.step cfg (.deleteRun runId), fun a ha => h.paths a (List.mem_filter.mp ha).1,
        fun a ha hu hc => ?_, fun q hq => ?_, (h.interrupt runId).locked⟩
      · obtain ⟨ha, hne⟩ := List.mem_filter.mp ha
        refine h.kept a ha ?_ hc
        rw [Bool.eq_false_iff]
        intro hm
        have hop : Op.deleteRun runId ≠ .deleteRun a.runId := fun he => by
          simp [Op.deleteRun.inj he] at hne
        have hs := step_purgeStarted cfg hi (.deleteRun runId) hop hm
        rw [show (Journal.step cfg w.journal (.deleteRun runId)).purgeStarted a.runId = false
          from hu] at hs
        cases hs
      · obtain ⟨hq, hne⟩ := List.mem_filter.mp hq
        have hop : Op.deleteRun runId ≠ .deleteRun q.runId := fun he => by
          simp [Op.deleteRun.inj he] at hne
        have hs := h.purges q hq
        exact ⟨step_purgeable cfg hi _ hop hs.purgeable,
          step_purgeStarted cfg hi _ hop hs.marked, hs.own⟩
    · exact h

theorem step (h : w.Ok cfg) (op : WorldOp) : World.Ok cfg (w.step cfg op) := by
  cases op with
  | call op =>
    simp only [World.step]
    split
    · exact h
    · rename_i hop
      refine h.call (op.reading w.files) (fun runId he => hop ?_) (by cases op <;> rfl)
      cases op <;> cases he
      rfl
  | createArtifact runId rows maxArtifactBytes free =>
    exact h.createArtifact runId rows maxArtifactBytes free
  | cleanupOrphanArtifacts confirmed olderThanSeconds aged =>
    simp only [World.step]
    split
    · exact h
    · rename_i files hf
      rw [cleanupOrphanArtifacts_inv hf]
      exact h.cleanup aged
  | beginPurge runId confirmed now => exact h.beginPurge runId confirmed now
  | unlink runId ref => exact h.unlink runId ref
  | commitPurge runId => exact h.commitPurge runId
  | interrupt runId => exact h.interrupt runId

theorem run (h : w.Ok cfg) (ops : List WorldOp) : World.Ok cfg (w.run cfg ops) :=
  Run.run_invariant (A := fun _ => True) (fun _ op _ h => h.step op) h ops fun _ _ => trivial

end World.Ok

/-- **The invariant holds in every reachable world.** -/
theorem World.Reachable.ok (h : w.Reachable cfg) : w.Ok cfg := by
  obtain ⟨ops, rfl⟩ := h
  exact World.Ok.empty.run ops

/-! ## A purge that has begun -/

/-- The run passed the checks of a purge at `now`, and the marker is committed. -/
structure World.Marked (w : World) (runId : String) (now : Time) : Prop where
  purgeable : Purgeable w.journal runId now
  started : w.journal.purgeStarted runId = true

theorem World.step_journal (h : w.Ok cfg) (op : WorldOp) :
    (w.step cfg op).journal = w.journal ∨
      ∃ o, (w.step cfg op).journal = Journal.step cfg w.journal o ∧
        ∀ runId, o = .deleteRun runId → op = .commitPurge runId := by
  cases op with
  | call o =>
    simp only [World.step]
    split
    · exact .inl rfl
    · rename_i ho
      refine .inr ⟨_, rfl, fun runId he => absurd ?_ ho⟩
      cases o <;> cases he
      rfl
  | createArtifact runId rows maxArtifactBytes free =>
    left
    simp only [World.step, World.createArtifact]
    split <;> rfl
  | cleanupOrphanArtifacts confirmed olderThanSeconds aged =>
    left
    simp only [World.step]
    split <;> rfl
  | beginPurge runId confirmed now =>
    simp only [World.step, World.beginPurge]
    split
    · exact .inl rfl
    · split
      · exact .inl rfl
      · rename_i refs journal hp
        split
        · exact .inl rfl
        · refine .inr ⟨.purgeRun runId confirmed now, ?_, fun _ => Op.noConfusion⟩
          simp only [Journal.step, exec, hp, transaction]
  | unlink runId ref =>
    left
    simp only [World.step, World.unlink]
    split
    · rfl
    · split <;> rfl
  | commitPurge runId =>
    simp only [World.step, World.commitPurge]
    split
    · exact .inl rfl
    · split
      · exact .inr ⟨.deleteRun runId, rfl, fun _ he => by rw [Op.deleteRun.inj he]⟩
      · exact .inl rfl
  | interrupt runId => exact .inl rfl

/-- A begun purge stays begun until its second transaction. -/
theorem World.Marked.step (hm : w.Marked runId now) (h : w.Ok cfg) {op : WorldOp}
    (hop : op ≠ .commitPurge runId) : (w.step cfg op).Marked runId now := by
  rcases World.step_journal h op with he | ⟨o, he, ho⟩
  · exact ⟨he ▸ hm.purgeable, he ▸ hm.started⟩
  · have hne : o ≠ .deleteRun runId := fun h => hop (ho runId h)
    exact ⟨he ▸ step_purgeable cfg h.journal.inv o hne hm.purgeable,
      he ▸ step_purgeStarted cfg h.journal.inv o hne hm.started⟩

theorem World.Marked.run (hm : w.Marked runId now) (h : w.Ok cfg) {ops : List WorldOp}
    (hops : .commitPurge runId ∉ ops) : (w.run cfg ops).Marked runId now :=
  (Run.run_invariant (I := fun w => World.Ok cfg w ∧ w.Marked runId now)
    (A := fun op => op ≠ .commitPurge runId)
    (fun _ op hop hw => ⟨hw.1.step op, hw.2.step hw.1 hop⟩) ⟨h, hm⟩ ops
    fun op hop he => hops (he ▸ hop)).2

/-- The first transaction of a purge was committed. -/
structure World.Begins (w : World) (runId : String) (now : Time) : Prop where
  /-- the ownership lock is free -/
  free : w.purging runId = none
  stored : w.journal.getRun runId ≠ none
  commits : ∃ p, Journal.purgeRun w.journal runId true now = .ok p

theorem World.Begins.marked (hb : w.Begins runId now) (h : w.Ok cfg) :
    (w.step cfg (.beginPurge runId true now)).Marked runId now := by
  obtain ⟨⟨refs, journal⟩, hp⟩ := hb.commits
  obtain ⟨hpur, rfl, rfl⟩ := purgeRun_inv h.journal.inv.keys hp hb.stored
  have hj : (w.step cfg (.beginPurge runId true now)).journal = w.journal.markPurge runId now := by
    simp only [World.step, World.beginPurge, hb.free, hp, if_neg hb.stored]
  refine ⟨?_, ?_⟩
  · have hstep : Journal.step cfg w.journal (.purgeRun runId true now) =
        w.journal.markPurge runId now := by
      simp only [Journal.step, exec, hp, transaction]
    rw [hj, ← hstep]
    exact step_purgeable cfg h.journal.inv _ Op.noConfusion hpur
  · rw [hj]
    exact markPurge_started _ _ _

/-! ## Reopening -/

/-- Reopening the journal reads no file of the run, and what it raises is about another one. -/
structure World.Silent (cfg : Config) (w : World) (runId : String) : Prop where
  unread : ∀ now, ∀ a ∈ referencedArtifacts (w.reopen cfg now).2.journal, a.runId ≠ runId
  raises : ∀ now e, (w.reopen cfg now).1 = .error e →
    ∃ a ∈ referencedArtifacts (w.reopen cfg now).2.journal, a.runId ≠ runId ∧
      verifyArtifact (w.reopen cfg now).2.files a.ref = .error e

theorem World.silent_of_unread
    (h : ∀ now, ∀ a ∈ referencedArtifacts (w.reopen cfg now).2.journal, a.runId ≠ runId) :
    w.Silent cfg runId := by
  refine ⟨h, fun now e he => ?_⟩
  obtain ⟨a, ha, hv⟩ := verifyReferencedArtifacts_error he
  exact ⟨a, ha, h now a ha, hv⟩

theorem World.Marked.silent (hm : w.Marked runId now) (h : w.Ok cfg) : w.Silent cfg runId := by
  refine World.silent_of_unread fun now' a ha he => ?_
  obtain ⟨-, -, hu⟩ := mem_referencedArtifacts.mp ha
  have hs : (w.step cfg (.call (.recoverExpiredLeases now'))).Marked runId now :=
    hm.step h WorldOp.noConfusion
  rw [he, show (w.reopen cfg now').2.journal.purgeStarted runId = true from hs.started] at hu
  cases hu

/-- **Reopening raises nothing** when every stored path is spelt as the store spells it. -/
theorem World.reopen_clean (h : w.Reachable cfg)
    (hc : ∀ a ∈ w.journal.artifacts, Canonical a.relativePath) (now : Time) :
    (w.reopen cfg now).1 = .ok () := by
  have hr : World.Ok cfg (w.reopen cfg now).2 := h.ok.step (.call (.recoverExpiredLeases now))
  refine verifyReferencedArtifacts_ok fun a ha => ?_
  obtain ⟨ha, -, hu⟩ := mem_referencedArtifacts.mp ha
  refine hr.kept a ha hu ?_
  rcases step_artifacts cfg h.ok.journal.inv (.recoverExpiredLeases now) ha with ⟨b, hb, hs⟩ | hnew
  · rw [show a.relativePath = b.relativePath from congrArg ArtifactRef.relativePath hs.2]
    exact hc b hb
  · obtain ⟨spec, files, free, now', he, -⟩ := hnew.call
    cases he

/-! ## Completing a purge -/

theorem mem_removeArtifacts {files : Files} {refs : List Artifact} {f : StoredFile} :
    f ∈ removeArtifacts files refs ↔
      f ∈ files ∧ ∀ a ∈ refs, f.relativePath ≠ posixParts a.relativePath := by
  induction refs generalizing files with
  | nil => simp [removeArtifacts]
  | cons a refs ih =>
    rw [show removeArtifacts files (a :: refs) =
      removeArtifacts (removeArtifact files a.relativePath) refs from rfl, ih]
    simp only [removeArtifact, List.mem_filter, decide_eq_true_eq, List.forall_mem_cons]
    exact and_assoc

theorem deleteRun_markPurge (s : SQLiteJournal) (runId : String) (now : Time) :
    deleteRun (s.markPurge runId now) runId = deleteRun s runId := by
  unfold SQLiteJournal.markPurge
  split
  · rfl
  · simp only [deleteRun, SQLiteJournal.addEvent, List.filter_append]
    congr 1
    rw [List.append_right_eq_self, List.filter_eq_nil_iff]
    intro e he
    rw [List.mem_singleton] at he
    rw [he]
    split <;> simp

/-- A purge removes the rows of its run and the files they name, and nothing else. -/
structure World.Completes (w : World) (runId : String) (now : Time) : Prop where
  returns : (w.purgeRun runId true now).1 =
    .ok (w.journal.artifacts.countP fun a => a.runId == runId)
  rows : (w.purgeRun runId true now).2.journal = deleteRun w.journal runId
  files : ∀ f, f ∈ (w.purgeRun runId true now).2.files ↔ f ∈ w.files ∧
    ∀ a ∈ w.journal.artifacts, a.runId = runId → f.relativePath ≠ posixParts a.relativePath

theorem World.completes (h : w.Ok cfg) (hp : Purgeable w.journal runId now) :
    w.Completes runId now := by
  have hr : w.journal.getRun runId ≠ none := fun hn => by
    obtain ⟨r, hr, hid, -, -⟩ := hp.run
    exact getRun_none.mp hn r hr hid
  have he : w.purgeRun runId true now =
      (.ok (w.journal.artifacts.filter fun a => a.runId == runId).length, { w with
        journal := deleteRun (w.journal.markPurge runId now) runId
        files := removeArtifacts w.files (w.journal.artifacts.filter fun a => a.runId == runId) }) := by
    simp only [World.purgeRun, purgeRun_of_purgeable h.journal.inv.keys hp, if_neg hr]
  refine ⟨?_, ?_, fun f => ?_⟩
  · rw [he, List.countP_eq_length_filter]
  · rw [he]
    exact deleteRun_markPurge _ _ _
  · rw [he, mem_removeArtifacts]
    simp [List.mem_filter]

theorem Purgeable.later {s : SQLiteJournal} {later : Time} (h : Purgeable s runId now)
    (hl : now ≤ later) : Purgeable s runId later := by
  obtain ⟨⟨r, hr, hid, hs, hret⟩, hb⟩ := h
  exact ⟨⟨r, hr, hid, hs, hret.trans hl⟩, hb⟩

section Steps

variable (hfree : w.purging runId = none)

include hfree

theorem World.run_idle (refs : List Artifact) : w.run cfg (refs.map (.unlink runId)) = w := by
  induction refs with
  | nil => rfl
  | cons a refs ih =>
    rw [List.map_cons, World.run_cons,
      show w.step cfg (.unlink runId a) = w by simp only [World.step, World.unlink, hfree]]
    exact ih

theorem World.purging_append (now : Time) (refs : List Artifact) :
    lookup Purge.runId runId (w.purges ++ [⟨runId, now, refs⟩]) = some ⟨runId, now, refs⟩ := by
  rw [lookup_append, show lookup Purge.runId runId w.purges = none from hfree]
  simp [lookup_singleton]

theorem World.run_unlink (refs : List Artifact) (journal : SQLiteJournal) (files : Files) :
    World.run cfg ⟨journal, files, w.purges ++ [⟨runId, now, refs⟩]⟩ (refs.map (.unlink runId)) =
      ⟨journal, removeArtifacts files refs, w.purges ++ [⟨runId, now, []⟩]⟩ := by
  induction refs generalizing files with
  | nil => rfl
  | cons a refs ih =>
    have hothers : ∀ q ∈ w.purges, decide (q.runId = runId) = false := fun q hq =>
      decide_eq_false (lookup_eq_none.mp hfree q hq)
    have hupdate : updateWhere (fun p => decide (p.runId = runId))
        (fun p => { p with remaining := p.remaining.erase a })
        (w.purges ++ [⟨runId, now, a :: refs⟩]) = w.purges ++ [⟨runId, now, refs⟩] := by
      simp only [updateWhere, List.map_append, List.map_singleton, decide_true, if_true,
        List.erase_cons_head]
      congr 1
      exact (List.map_congr_left fun q hq => by simp [hothers q hq]).trans (List.map_id _)
    rw [List.map_cons, World.run_cons]
    refine Eq.trans (congrArg (World.run cfg · _) ?_) (ih (removeArtifact files a.relativePath))
    simp only [World.step, World.unlink, World.purging, World.purging_append hfree,
      List.mem_cons_self, if_true, hupdate]

/-- **An uninterrupted purge** is its steps one after the other. -/
theorem World.purgeRun_eq_steps (hk : Keys w.journal) (confirmed : Bool) (now : Time) :
    w.run cfg (.beginPurge runId confirmed now ::
      (w.journal.artifacts.filter fun a => a.runId == runId).map (.unlink runId) ++
      [.commitPurge runId]) = (w.purgeRun runId confirmed now).2 := by
  have hidle : ∀ refs : List Artifact,
      w.run cfg (refs.map (.unlink runId) ++ [.commitPurge runId]) = w := fun refs => by
    rw [World.run_append, World.run_idle hfree]
    simp only [World.run_cons, World.run_nil, World.step, World.commitPurge, hfree]
  rw [List.cons_append, World.run_cons]
  simp only [World.step, World.beginPurge, World.purgeRun, hfree]
  cases hp : Journal.purgeRun w.journal runId confirmed now with
  | error e => exact hidle _
  | ok p =>
    obtain ⟨refs, journal⟩ := p
    by_cases hr : w.journal.getRun runId = none
    · simp only [if_pos hr]
      exact hidle _
    · obtain ⟨-, rfl, rfl⟩ := purgeRun_inv hk hp hr
      simp only [if_neg hr]
      rw [World.run_append, World.run_unlink hfree]
      have hothers : (w.purges ++ [(⟨runId, now, []⟩ : Purge)]).filter (fun p => p.runId != runId) =
          w.purges := by
        rw [List.filter_append, List.filter_eq_self.mpr fun q hq => by
          simpa using lookup_eq_none.mp hfree q hq]
        simp
      simp only [World.run_cons, World.run_nil, World.step, World.commitPurge, World.purging,
        World.purging_append hfree, if_true, World.interrupt, hothers]

end Steps

/-- The file is a file of the run alone, and a purge in progress has found the run terminal and past
its retention. -/
def World.MayRemove (w : World) (runId : String) (f : StoredFile) : Prop :=
  ∃ p ∈ w.purges, p.runId = runId ∧
    (∃ r ∈ w.journal.runs, r.runId = runId ∧ r.status.active = false ∧ r.retentionUntil ≤ p.now) ∧
    ∀ a ∈ w.journal.artifacts, posixParts a.relativePath = f.relativePath → a.runId = runId

theorem World.unlink_exact (h : w.Ok cfg) {ref : Artifact} {f : StoredFile} (hf : f ∈ w.files)
    (hf' : f ∉ (w.unlink runId ref).files) : w.MayRemove runId f := by
  unfold World.unlink at hf'
  split at hf'
  · exact absurd hf hf'
  · rename_i p hp
    obtain ⟨rfl, hs⟩ := h.purging_sound hp
    split at hf'
    · rename_i href
      refine ⟨p, lookup_mem hp, rfl, hs.purgeable.run, fun a ha hpath => ?_⟩
      have hown : f.relativePath = [p.runId, ref.sha256 ++ ".jsonl"] := by
        rw [← hs.own ref href]
        by_contra hne
        exact hf' (List.mem_filter.mpr ⟨hf, by simpa using hne⟩)
      rw [h.paths a ha, hown] at hpath
      exact (List.cons.inj hpath).1
    · exact absurd hf hf'

theorem World.removed (h : w.Ok cfg) {op : WorldOp} {f : StoredFile} (hf : f ∈ w.files)
    (hf' : f ∉ (w.step cfg op).files) :
    (∃ runId ref, op = .unlink runId ref ∧ w.MayRemove runId f) ∨
      ∃ confirmed olderThanSeconds aged,
        op = .cleanupOrphanArtifacts confirmed olderThanSeconds aged ∧
        ∀ a ∈ w.journal.artifacts, a.relativePath ≠ "/".intercalate f.relativePath := by
  cases op with
  | call o =>
    simp only [World.step] at hf'
    split at hf' <;> exact absurd hf hf'
  | createArtifact runId rows maxArtifactBytes free =>
    simp only [World.step, World.createArtifact] at hf'
    split at hf'
    · exact absurd hf hf'
    · exact absurd (mem_write cfg hf) hf'
  | cleanupOrphanArtifacts confirmed olderThanSeconds aged =>
    refine .inr ⟨_, _, _, rfl, fun a ha hpath => ?_⟩
    simp only [World.step] at hf'
    split at hf'
    · exact hf' hf
    · rename_i files hc
      rw [cleanupOrphanArtifacts_inv hc] at hf'
      exact hf' (List.mem_filter.mpr ⟨hf, by rw [not_orphaned ha hpath]; rfl⟩)
  | beginPurge runId confirmed now =>
    simp only [World.step, World.beginPurge] at hf'
    split at hf'
    · exact absurd hf hf'
    · split at hf'
      · exact absurd hf hf'
      · split at hf' <;> exact absurd hf hf'
  | unlink runId ref => exact .inl ⟨runId, ref, rfl, World.unlink_exact h hf hf'⟩
  | commitPurge runId =>
    simp only [World.step, World.commitPurge] at hf'
    split at hf'
    · exact absurd hf hf'
    · split at hf' <;> exact absurd hf hf'
  | interrupt runId => exact absurd hf hf'

/-! ## The whole -/

theorem World.commit_artifacts (hm : w.Marked runId now)
    (hgone : (w.step cfg (.commitPurge runId)).journal.getRun runId = none) :
    ∀ a ∈ (w.step cfg (.commitPurge runId)).journal.artifacts, a.runId ≠ runId := by
  have hstored : w.journal.getRun runId ≠ none := fun hn => by
    obtain ⟨r, hr, hid, -, -⟩ := hm.purgeable.run
    exact getRun_none.mp hn r hr hid
  simp only [World.step, World.commitPurge] at hgone ⊢
  split at hgone
  · exact absurd hgone hstored
  · split at hgone
    · rename_i hrem
      simp only [if_pos hrem]
      intro a ha
      simpa using (List.mem_filter.mp ha).2
    · exact absurd hgone hstored

/-- Without rows there is nothing left to purge. -/
structure World.Purged (cfg : Config) (w : World) (runId : String) : Prop where
  silent : w.Silent cfg runId
  purge : ∀ reopened later, (w.reopen cfg reopened).2.purgeRun runId true later =
    (.ok 0, (w.reopen cfg reopened).2)

theorem World.purged (h : w.Ok cfg) (hgone : w.journal.getRun runId = none)
    (ha : ∀ a ∈ w.journal.artifacts, a.runId ≠ runId) : w.Purged cfg runId := by
  refine ⟨World.silent_of_unread fun now' a hm => ?_, fun reopened later => ?_⟩
  · obtain ⟨hm, -, -⟩ := mem_referencedArtifacts.mp hm
    rcases step_artifacts cfg h.journal.inv (.recoverExpiredLeases now') hm with ⟨b, hb, hs⟩ | hr
    · rw [hs.1]
      exact ha b hb
    · obtain ⟨spec, files, free, now, he, -⟩ := hr.call
      cases he
  · have hnone : (w.reopen cfg reopened).2.journal.getRun runId = none := by
      obtain ⟨es, he⟩ := recoverExpiredLocked_eq w.journal reopened
      change (recoverExpiredLocked w.journal reopened).2.getRun runId = none
      rw [he]
      exact hgone
    simp only [World.purgeRun, purgeRun_absent hnone, if_pos hnone]

/-- **An interrupted purge is harmless and can be completed.** From any reachable world:

* after its first transaction, whatever part of the files is unlinked and whatever the others do in
  between, reopening reads none of the files of the run, and a later purge completes;
* after its second one the run has no row left, and a later purge finds nothing to do;
* a file that a step removes is a file of one run, which is terminal and past retention and whose
  purge is in progress, or it is an orphan. -/
theorem purge_crash_safe (h : w.Reachable cfg) :
    (∀ runId now, w.Begins runId now → ∀ ops, .commitPurge runId ∉ ops →
      let v := (w.step cfg (.beginPurge runId true now)).run cfg ops
      let d := v.step cfg (.commitPurge runId)
      (v.interrupt runId).Silent cfg runId ∧
      (∀ reopened later, now ≤ later →
        ((v.interrupt runId).reopen cfg reopened).2.Completes runId later) ∧
      (d.journal.getRun runId = none → d.Purged cfg runId)) ∧
    ∀ op, ∀ f ∈ w.files, f ∉ (w.step cfg op).files →
      (∃ runId ref, op = .unlink runId ref ∧ w.MayRemove runId f) ∨
        ∃ confirmed olderThanSeconds aged,
          op = .cleanupOrphanArtifacts confirmed olderThanSeconds aged ∧
          ∀ a ∈ w.journal.artifacts, a.relativePath ≠ "/".intercalate f.relativePath := by
  have hok := h.ok
  refine ⟨fun runId now hb ops hops => ?_, fun op f hf hf' => World.removed hok hf hf'⟩
  have hbegun := hok.step (.beginPurge runId true now)
  have hv := hbegun.run ops
  have hm := (hb.marked hok).run hbegun hops
  -- stopping a purge changes neither the journal nor the files
  have hstop := hv.interrupt runId
  have hstopped : World.Marked (World.interrupt _ runId) runId now := ⟨hm.purgeable, hm.started⟩
  refine ⟨hstopped.silent hstop, fun reopened later hl => ?_, fun hgone => ?_⟩
  · have hr : World.Marked (World.step cfg _ (.call (.recoverExpiredLeases reopened))) runId now :=
      hstopped.step hstop WorldOp.noConfusion
    exact World.completes (hstop.step (.call (.recoverExpiredLeases reopened)))
      (hr.purgeable.later hl)
  · exact World.purged (hv.step _) hgone (World.commit_artifacts hm hgone)

/-- The sample with the hash of an empty artifact. -/
def samplePurgeConfig : Config :=
  { python := { sampleConfig.python with
      sha256Hex := fun text => if text = "" then emptySha256 else sampleSha256 text } }

/-- A run with one artifact, which a run of another generation supersedes. -/
def samplePurgeWorld : World :=
  World.run samplePurgeConfig {}
    [.call (.openRun (sampleMetadata "g1") 0 0 1000000000 0),
      .createArtifact sampleRunId [] 1000000 1000000000,
      .call (.enqueueBatch sampleRunId (sampleSpec 0) [] 1000000000 0),
      .call (.openRun (sampleMetadata "g2") 0 0 1000000000 0)]

theorem samplePurge_facts : (samplePurgeWorld.purging sampleRunId).isNone = true ∧
    samplePurgeWorld.journal.artifacts.length = 1 ∧
    ∀ a ∈ samplePurgeWorld.journal.artifacts, Canonical a.relativePath := by
  decide +kernel

theorem reopen_clean_sample : samplePurgeWorld.journal.artifacts.length = 1 ∧
    (samplePurgeWorld.reopen samplePurgeConfig 0).1 = .ok () :=
  ⟨samplePurge_facts.2.1, World.reopen_clean ⟨_, rfl⟩ samplePurge_facts.2.2 0⟩

/-- A purge of the sample, a week later, that stops after its only file is unlinked. -/
def sampleInterrupted : World :=
  ((samplePurgeWorld.step samplePurgeConfig
    (.beginPurge sampleRunId true (seconds 604800))).run samplePurgeConfig
    (samplePurgeWorld.journal.artifacts.map (.unlink sampleRunId))).interrupt sampleRunId

theorem purge_crash_safe_sample :
    samplePurgeWorld.files.length = 1 ∧ sampleInterrupted.files.length = 0 ∧
      sampleInterrupted.Silent samplePurgeConfig sampleRunId ∧
      (sampleInterrupted.reopen samplePurgeConfig 0).2.Completes sampleRunId (seconds 604800) := by
  have hrun : samplePurgeWorld.files.length = 1 ∧ sampleInterrupted.files.length = 0 ∧
      (samplePurgeWorld.purging sampleRunId).isNone = true ∧
      (samplePurgeWorld.journal.getRun sampleRunId).isSome = true ∧
      (Journal.purgeRun samplePurgeWorld.journal sampleRunId true
        (seconds 604800)).toOption.isSome = true := by decide +kernel
  obtain ⟨hfile, hgone, hfree, hstored, hpurge⟩ := hrun
  have hb : samplePurgeWorld.Begins sampleRunId (seconds 604800) := by
    refine ⟨Option.isNone_iff_eq_none.mp hfree, Option.isSome_iff_ne_none.mp hstored, ?_⟩
    cases hp : Journal.purgeRun samplePurgeWorld.journal sampleRunId true (seconds 604800) with
    | ok p => exact ⟨p, rfl⟩
    | error e =>
      rw [hp] at hpurge
      cases hpurge
  have hops : WorldOp.commitPurge sampleRunId ∉
      samplePurgeWorld.journal.artifacts.map (.unlink sampleRunId) := fun h => by
    obtain ⟨a, -, ha⟩ := List.mem_map.mp h
    cases ha
  have h := (purge_crash_safe ⟨_, rfl⟩).1 sampleRunId (seconds 604800) hb _ hops
  exact ⟨hfile, hgone, h.1, h.2.1 0 _ le_rfl⟩

end CortexHarness.Journal
