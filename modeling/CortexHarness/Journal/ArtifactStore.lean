import CortexHarness.Journal.Client
import CortexHarness.Journal.Runs

/-!
# The artifact directory as the journal writes it

Model of `ArtifactStore.write_jsonl` and `remove` (`artifacts.py:288-351`, `400-412`), of
`verify_referenced_artifacts` and of `cleanup_orphan_artifacts` (`sqlite_store.py:2747-2769`,
`3017-3060`). A file is written under its content hash and never overwritten, so the table of
files is keyed by the resolved path and a written file stays what it was until it is removed.

Results:
* `verifies_write`, `verifies_remove`, `verifies_cleanup`: what writing, removing and cleaning
  leave verifiable;
* `verifyReferencedArtifacts_error`: what the verification raises is raised for a row it reads;
* `step_artifacts`: a row of `artifacts` comes from an `enqueue_batch` that verified its file;
* `step_purgeStarted`, `step_purgeable`: the purge marker stays, and so does everything `purge_run`
  checks, until the run is deleted.

Model notes: `write_jsonl` goes through a temporary file and `os.replace`, so a file appears whole
or not at all. What the file system itself refuses (a failing `fsync`, a full disk) is a call that
stops early. `json.loads` of a line of canonical JSON is the value the line was made of.
-/

namespace CortexHarness.Journal

open Table

variable (cfg : Config)

/-! ## Writing -/

/-- One row of an artifact. -/
def jsonLine (row : Json) : String := row.dumps ++ "\n"

/-- The text of an artifact. -/
def jsonLines (rows : List Json) : String := String.join (rows.map jsonLine)

/-- The loop of `write_jsonl`: the bytes written, within the admitted size. -/
def admitRows (byteLimit maxArtifactBytes : Nat) : Nat → List Json → Except Failure Nat
  | byteCount, [] => .ok byteCount
  | byteCount, row :: rows =>
    let byteCount := byteCount + (jsonLine row).utf8ByteSize
    if byteCount > byteLimit then
      .error (.journal (if byteCount > maxArtifactBytes then .admissionRejected else .diskFull)
        "artifact exceeds its bounded storage admission" [])
    else admitRows byteLimit maxArtifactBytes byteCount rows

/-- The reference `write_jsonl` returns. -/
def artifactRef (runId : String) (byteCount : Nat) (rows : List Json) : ArtifactRef :=
  let digest := cfg.python.sha256Hex (jsonLines rows)
  ⟨digest, runId ++ "/" ++ digest ++ ".jsonl", byteCount, rows.length⟩

/-- `write_jsonl`: a file that exists is verified and kept. -/
def writeJsonl (maxArtifactBytes : Nat) (free : Int) (files : Files) (runId : String)
    (rows : List Json) : Except Failure ArtifactRef × Files :=
  if free < cfg.limits.minFreeBytes then
    (.error (.journal .diskFull "artifact admission would violate disk headroom" []), files)
  else
    match admitRows (min maxArtifactBytes (free - cfg.limits.minFreeBytes).toNat) maxArtifactBytes 0
        rows with
    | .error e => (.error e, files)
    | .ok byteCount =>
      let ref := artifactRef cfg runId byteCount rows
      match lookup StoredFile.relativePath (posixParts ref.relativePath) files with
      | some _ => ((verifyArtifact files ref).map fun _ => ref, files)
      | none =>
        (.ok ref, files ++ [⟨posixParts ref.relativePath, byteCount, ref.sha256, some rows⟩])

/-- `remove`: `unlink(missing_ok=True)`. -/
def removeArtifact (files : Files) (relativePath : String) : Files :=
  files.filter fun f => decide (f.relativePath ≠ posixParts relativePath)

/-- The reference a row of `artifacts` is read back as. -/
def Artifact.ref (a : Artifact) : ArtifactRef := ⟨a.sha256, a.relativePath, a.byteCount, a.rowCount⟩

/-- What `cleanup_orphan_artifacts` removes: an aged file of a run directory whose path is not the
text of a stored one. `aged` are the files older than the cutoff. -/
def orphaned (s : SQLiteJournal) (aged : StoredFile → Bool) (f : StoredFile) : Bool :=
  f.relativePath.length == 2 && aged f &&
    !(s.artifacts.map Artifact.relativePath).contains ("/".intercalate f.relativePath)

/-- `cleanup_orphan_artifacts`. -/
def cleanupOrphanArtifacts (s : SQLiteJournal) (files : Files) (ownershipConfirmed : Bool)
    (olderThanSeconds : Int) (aged : StoredFile → Bool) : Except Failure Files :=
  if ownershipConfirmed = false then
    .error (.journal .invalidTransition
      "artifact cleanup requires the exact-scope ownership lock" [])
  else if olderThanSeconds ≤ 0 then .error (.value "older_than_seconds must be positive")
  else .ok (files.filter fun f => !orphaned s aged f)

/-! ## Verification -/

/-- The run has a `run_purge_started` event. -/
def SQLiteJournal.purgeStarted (s : SQLiteJournal) (runId : String) : Bool :=
  s.events.any fun e => e.runId == runId && e.eventType == .runPurgeStarted

/-- The rows `verify_referenced_artifacts` reads: referenced, and of no run that is being purged. -/
def referencedArtifacts (s : SQLiteJournal) : List Artifact :=
  s.artifacts.filter fun a => decide (0 < a.refCount) && !s.purgeStarted a.runId

/-- The loop of `verify_referenced_artifacts`. -/
def verifyAll (files : Files) : List Artifact → Except Failure Unit
  | [] => .ok ()
  | a :: rest =>
    match verifyArtifact files a.ref with
    | .error e => .error e
    | .ok _ => verifyAll files rest

/-- `verify_referenced_artifacts`. -/
def verifyReferencedArtifacts (files : Files) (s : SQLiteJournal) : Except Failure Unit :=
  verifyAll files (referencedArtifacts s)

/-- The file of a reference is there and is what the reference says. -/
def Verifies (files : Files) (ref : ArtifactRef) : Prop := ∃ f, verifyArtifact files ref = .ok f

variable {files : Files} {ref : ArtifactRef} {s u v : SQLiteJournal} {op : Op}

theorem verifyAll_error {rows : List Artifact} {e : Failure} (h : verifyAll files rows = .error e) :
    ∃ a ∈ rows, verifyArtifact files a.ref = .error e := by
  induction rows with
  | nil => cases h
  | cons a rows ih =>
    simp only [verifyAll] at h
    split at h
    · rename_i e' he
      cases h
      exact ⟨a, List.mem_cons_self, he⟩
    · obtain ⟨b, hb, he⟩ := ih h
      exact ⟨b, List.mem_cons_of_mem _ hb, he⟩

/-- What the verification raises is raised for a row it reads. -/
theorem verifyReferencedArtifacts_error {e : Failure}
    (h : verifyReferencedArtifacts files s = .error e) :
    ∃ a ∈ referencedArtifacts s, verifyArtifact files a.ref = .error e :=
  verifyAll_error h

theorem verifyReferencedArtifacts_ok (h : ∀ a ∈ referencedArtifacts s, Verifies files a.ref) :
    verifyReferencedArtifacts files s = .ok () := by
  cases hv : verifyReferencedArtifacts files s with
  | ok => rfl
  | error e =>
    obtain ⟨a, ha, he⟩ := verifyReferencedArtifacts_error hv
    obtain ⟨f, hf⟩ := h a ha
    rw [he] at hf
    cases hf

theorem mem_referencedArtifacts {a : Artifact} :
    a ∈ referencedArtifacts s ↔ a ∈ s.artifacts ∧ 0 < a.refCount ∧ s.purgeStarted a.runId = false := by
  simp [referencedArtifacts]

/-! ## What the files keep -/

theorem verifyArtifact_congr {files' : Files}
    (h : lookup StoredFile.relativePath (posixParts ref.relativePath) files' =
      lookup StoredFile.relativePath (posixParts ref.relativePath) files) :
    verifyArtifact files' ref = verifyArtifact files ref := by
  unfold verifyArtifact
  rw [h]

theorem Verifies.exists_file (h : Verifies files ref) :
    ∃ f, lookup StoredFile.relativePath (posixParts ref.relativePath) files = some f := by
  obtain ⟨f, hf⟩ := h
  unfold verifyArtifact at hf
  split at hf
  · cases hf
  · exact ⟨_, by assumption⟩

/-- A selection that keeps the file of a reference keeps the reference verifiable. -/
theorem Verifies.filter {p : StoredFile → Bool} (h : Verifies files ref)
    (hp : ∀ f ∈ files, f.relativePath = posixParts ref.relativePath → p f = true) :
    Verifies (files.filter p) ref := by
  obtain ⟨f, hf⟩ := h
  exact ⟨f, (verifyArtifact_congr (lookup_filter hp)).trans hf⟩

theorem verifies_remove {path : String} (h : Verifies files ref)
    (hne : posixParts ref.relativePath ≠ posixParts path) :
    Verifies (removeArtifact files path) ref :=
  h.filter fun f _ hf => by simpa [hf] using hne

/-- Writing changes no file that is there. -/
theorem verifies_write {maxArtifactBytes : Nat} {free : Int} {runId : String} {rows : List Json}
    (h : Verifies files ref) :
    Verifies (writeJsonl cfg maxArtifactBytes free files runId rows).2 ref := by
  unfold writeJsonl
  split
  · exact h
  · split
    · exact h
    · simp only
      split
      · exact h
      · obtain ⟨g, hg⟩ := h.exists_file
        obtain ⟨f, hf⟩ := h
        refine ⟨f, (verifyArtifact_congr ?_).trans hf⟩
        rw [lookup_append, hg]
        rfl

theorem mem_write {maxArtifactBytes : Nat} {free : Int} {runId : String} {rows : List Json}
    {f : StoredFile} (hf : f ∈ files) :
    f ∈ (writeJsonl cfg maxArtifactBytes free files runId rows).2 := by
  unfold writeJsonl
  split
  · exact hf
  · split
    · exact hf
    · simp only
      split
      · exact hf
      · exact List.mem_append_left _ hf

/-- The stored text of the path is the one its parts spell. -/
def Canonical (path : String) : Prop := "/".intercalate (posixParts path) = path

instance (path : String) : Decidable (Canonical path) :=
  inferInstanceAs (Decidable ("/".intercalate (posixParts path) = path))

theorem not_orphaned {aged : StoredFile → Bool} {f : StoredFile} {a : Artifact}
    (ha : a ∈ s.artifacts) (hpath : a.relativePath = "/".intercalate f.relativePath) :
    orphaned s aged f = false := by
  have hr : (s.artifacts.map Artifact.relativePath).contains
      ("/".intercalate f.relativePath) = true := by
    rw [← hpath]
    exact List.contains_iff_mem.mpr (List.mem_map_of_mem ha)
  simp only [orphaned, hr, Bool.not_true, Bool.and_false]

theorem cleanupOrphanArtifacts_inv {confirmed : Bool} {olderThanSeconds : Int}
    {aged : StoredFile → Bool} {files' : Files}
    (h : cleanupOrphanArtifacts s files confirmed olderThanSeconds aged = .ok files') :
    files' = files.filter fun f => !orphaned s aged f := by
  unfold cleanupOrphanArtifacts at h
  split at h
  · cases h
  · split at h
    · cases h
    · cases h
      rfl

/-- Cleaning keeps the file of a stored path that is spelt as the store spells it. -/
theorem verifies_cleanup {aged : StoredFile → Bool} {a : Artifact} (ha : a ∈ s.artifacts)
    (hc : Canonical a.relativePath) (hv : Verifies files a.ref) :
    Verifies (files.filter fun f => !orphaned s aged f) a.ref :=
  hv.filter fun f _ hf => by
    rw [not_orphaned ha (by rw [hf]; exact hc.symm)]
    rfl

/-! ## Where the rows of `artifacts` come from -/

/-- Two rows are the same artifact; only the reference count may differ. -/
def SameArtifact (a a' : Artifact) : Prop := a'.runId = a.runId ∧ a'.ref = a.ref

theorem referenceArtifact_artifacts {t : SQLiteJournal} {runId : String} {ref : ArtifactRef}
    (h : referenceArtifact s runId ref = .ok t) {a' : Artifact} (ha : a' ∈ t.artifacts) :
    (∃ a ∈ s.artifacts, SameArtifact a a') ∨ (a'.runId = runId ∧ a'.ref = ref) := by
  unfold referenceArtifact at h
  split at h
  · cases h
    rcases List.mem_append.mp ha with ha | ha
    · exact .inl ⟨a', ha, rfl, rfl⟩
    · rw [List.mem_singleton.mp ha]
      exact .inr ⟨rfl, rfl⟩
  · split at h
    · cases h
    · cases h
      obtain ⟨a, hm, rfl⟩ := mem_updateWhere.mp ha
      refine .inl ⟨a, hm, ?_⟩
      split <;> exact ⟨rfl, rfl⟩

variable {cfg}

theorem insertBatch_artifacts {t : SQLiteJournal} {run : Run} {spec : BatchSpec} {jobId : String}
    {rows : List Json} {now : Time} {r : Batch × List (String × Nat)} (hk : Keys s)
    (h : insertBatch cfg s run spec jobId rows now = .ok (r, t)) {a' : Artifact}
    (ha : a' ∈ t.artifacts) :
    (∃ a ∈ s.artifacts, SameArtifact a a') ∨ (a'.runId = run.runId ∧ a'.ref = spec.artifact) := by
  unfold insertBatch at h
  split at h
  · cases h
  · rename_i w hw
    refine referenceArtifact_artifacts hw ?_
    have hbars : w.barriers = s.barriers := by
      obtain ⟨as, rfl⟩ := referenceArtifact_inv hw
      rfl
    simp only at h
    split at h
    · cases h
    · rename_i failure x hx
      have hf := stageBatch_frame hx
      have hkx : Keyed (fun b : Barrier => (b.runId, b.name)) x.barriers := by
        rw [hf.barriers]
        exact hbars ▸ hk.barriers
      split at h
      · split at h
        · cases h
        · rename_i y hy
          cases h
          obtain ⟨bs, rfl, -⟩ := produceBarriers_inv (nodup_sortedSet _) hkx hy
          exact hf.artifacts ▸ ha
      · cases h
        exact hf.artifacts ▸ ha

/-- The row of a new artifact and the file it was verified against. -/
structure Referenced (op : Op) (a : Artifact) : Prop where
  call : ∃ spec files free now, op = .enqueueBatch a.runId spec files free now ∧
    Verifies files a.ref
  path : posixParts a.relativePath = [a.runId, a.sha256 ++ ".jsonl"]

theorem verifies_of_readJsonl {rows : List Json} (h : readJsonl files ref = .ok rows) :
    Verifies files ref := by
  unfold readJsonl at h
  split at h
  · cases h
  · rename_i f hf
    exact ⟨f, hf⟩

theorem enqueueBatch_artifacts {t : SQLiteJournal} {runId : String} {spec : BatchSpec}
    {files : Files} {free : Int} {now : Time} {r : Batch × List (String × Nat)} (hk : Keys s)
    (h : enqueueBatch cfg s runId spec files free now = .ok (r, t)) {a' : Artifact}
    (ha : a' ∈ t.artifacts) :
    (∃ a ∈ s.artifacts, SameArtifact a a') ∨
      Referenced (.enqueueBatch runId spec files free now) a' := by
  have hpath : posixParts spec.artifact.relativePath = [runId, spec.artifact.sha256 ++ ".jsonl"] := by
    unfold enqueueBatch at h
    split at h
    · cases h
    · split at h
      · cases h
      · rename_i hp
        exact not_not.mp hp
  obtain ⟨run, -, rfl, -, ⟨b, -, -, rfl⟩ | ⟨-, -, rows, hrows, hin⟩⟩ := enqueueBatch_inv h
  · exact .inl ⟨a', ha, rfl, rfl⟩
  · rcases insertBatch_artifacts hk hin ha with h | ⟨hrun, href⟩
    · exact .inl h
    · refine .inr ⟨⟨spec, files, free, now, by rw [hrun], ?_⟩, ?_⟩
      · rw [href]
        exact verifies_of_readJsonl hrows
      · have hsha : a'.sha256 = spec.artifact.sha256 := congrArg ArtifactRef.sha256 href
        have hrel : a'.relativePath = spec.artifact.relativePath :=
          congrArg ArtifactRef.relativePath href
        rw [hrun, hsha, hrel]
        exact hpath

/-- Only `enqueue_batch` inserts an artifact. -/
theorem Move.artifacts (h : Move cfg op u v) {a : Artifact} (ha : a ∈ v.artifacts) :
    a ∈ u.artifacts ∨ ∃ runId spec files free now, op = .enqueueBatch runId spec files free now := by
  cases h with
  | enqueue t run spec jobId rows now artifacts barriers h ht hp =>
    obtain ⟨files, free, hop⟩ := h.call
    exact .inr ⟨_, spec, files, free, now, hop⟩
  | reject t run spec jobId rows now artifacts failure g h ht hf hg =>
    obtain ⟨files, free, hop⟩ := h.call
    exact .inr ⟨_, spec, files, free, now, hop⟩
  | delete runId hop => exact .inl (List.mem_filter.mp ha).1
  | _ => exact .inl ha

/-- A row of `artifacts` was there before the call, or the call verified its file. -/
theorem step_artifacts (cfg : Config) (hi : Inv s) (op : Op) {a' : Artifact}
    (ha : a' ∈ (step cfg s op).artifacts) :
    (∃ a ∈ s.artifacts, SameArtifact a a') ∨ Referenced op a' := by
  by_cases hop : ∃ runId spec files free now, op = .enqueueBatch runId spec files free now
  · obtain ⟨runId, spec, files, free, now, rfl⟩ := hop
    simp only [step, exec] at ha
    cases he : enqueueBatch cfg s runId spec files free now with
    | error e =>
      rw [he] at ha
      exact .inl ⟨a', ha, rfl, rfl⟩
    | ok p =>
      obtain ⟨⟨b, failure⟩, t⟩ := p
      refine enqueueBatch_artifacts hi.keys he ?_
      rw [he] at ha
      cases failure <;> exact ha
  · refine .inl ⟨a', ?_, rfl, rfl⟩
    refine step_of_move (I := fun t => ∀ a ∈ t.artifacts, a ∈ s.artifacts) hi op
      (fun u v _ hm h a ha => ?_) (fun _ h => h) a' ha
    exact h a ((hm.artifacts ha).resolve_right hop)

/-! ## What `purge_run` relies on -/

theorem Move.purgeStarted (h : Move cfg op u v) {runId : String} (hop : op ≠ .deleteRun runId)
    (hs : u.purgeStarted runId = true) : v.purgeStarted runId = true := by
  have hkeep : ∀ w : SQLiteJournal, (∀ e ∈ u.events, e.runId = runId → e ∈ w.events) →
      w.purgeStarted runId = true := fun w hw => by
    obtain ⟨e, he, hp⟩ := List.any_eq_true.mp hs
    have hid : e.runId = runId := by simpa using (Bool.and_eq_true_iff.mp hp).1
    exact List.any_eq_true.mpr ⟨e, hw e he hid, hp⟩
  cases h with
  | log events => exact hkeep _ fun e he _ => List.mem_append_left _ he
  | enqueue t run spec jobId rows now artifacts barriers h ht hp =>
    exact hkeep _ fun e he _ => by
      change e ∈ t.events
      rw [(stageBatch_frame ht).events]
      exact he
  | reject t run spec jobId rows now artifacts failure g h ht hf hg =>
    exact hkeep _ fun e he _ => by
      change e ∈ t.events
      rw [(stageBatch_frame ht).events]
      exact he
  | delete runId' hdel =>
    refine hkeep _ fun e he hid => List.mem_filter.mpr ⟨he, ?_⟩
    rw [bne_iff_ne, hid]
    exact fun h => hop (h ▸ hdel)
  | _ => exact hkeep _ fun e he _ => he

/-- What `purge_run` checks: the run is terminal and past its retention, and none of its batches is
fenced. -/
structure Purgeable (s : SQLiteJournal) (runId : String) (now : Time) : Prop where
  run : ∃ r ∈ s.runs, r.runId = runId ∧ r.status.active = false ∧ r.retentionUntil ≤ now
  unfenced : ∀ b ∈ s.batches, b.runId = runId → b.fencingToken = none

/-- A batch of an inactive run is not leased, and one without a token stays without one. -/
theorem RowStep.unfenced {b b' : Batch} (h : RowStep op u b b') (ht : b.fencingToken = none)
    (ha : u.runActive b.runId ≠ true) : b'.fencingToken = none := by
  have hown : ∀ {token : String} {now : Time}, b.ownedBy token now = true → False := fun ho => by
    rw [(ownedBy_held ho).2] at ht
    cases ht
  cases h with
  | move h =>
    cases h with
    | keep => exact ht
    | lease _ _ hact => exact absurd hact ha
    | readback _ _ _ hact => exact absurd hact ha
    | renew _ _ ho => exact (hown ho).elim
    | recover => rfl
    | release => rfl
    | mark _ _ ho => exact (hown ho).elim
    | retry _ ho => exact (hown ho).elim
    | backOff _ ho => exact (hown ho).elim
  | ack _ ho => exact (hown ho).elim
  | fail _ ho => exact (hown ho).elim
  | quarantine hact => exact absurd hact ha

theorem Move.inactive_run (h : Move cfg op u v) (hk : Keys u) {r : Run} (hr : r ∈ u.runs)
    (hs : r.status.active = false) (hb : ∀ b ∈ u.batches, b.runId = r.runId → b.fencingToken = none)
    (hop : op ≠ .deleteRun r.runId) : r ∈ v.runs := by
  have hother : ∀ {runId : String} {g : Run → Run}, r.runId ≠ runId →
      r ∈ updateWhere (fun r => decide (r.runId = runId)) g u.runs := fun hne =>
    mem_updateWhere.mpr ⟨r, hr, by simp [hne]⟩
  have hstatus : ∀ {runId : String} {status : RunStatus}, u.runStatus runId = some status →
      status.active = true → r.runId ≠ runId := fun h ha =>
    runId_ne hk hr h fun he => by simp [← he, ha] at hs
  cases h with
  | fail b b' token now g hop' hm ho hf hg =>
    refine hother fun he => ?_
    have ht := (ownedBy_held ho).2
    rw [hb b hm he.symm] at ht
    cases ht
  | quarantine runId g ha hg =>
    refine hother fun he => ?_
    rw [← he] at ha
    rw [active_of_runActive hk hr ha] at hs
    cases hs
  | insertRun run items bytes free now hop' hid hget hst hl => exact List.mem_append_left _ hr
  | enqueue t run spec jobId rows now artifacts barriers h ht hp =>
    change r ∈ t.runs
    rw [(stageBatch_frame ht).runs]
    exact hr
  | reject t run spec jobId rows now artifacts failure g h ht hf hg =>
    refine hother fun he => ?_
    rw [eq_of_keyed hk.runs hr h.mem he, h.opened] at hs
    cases hs
  | closeProduction runId g hrun hg => exact hother (hstatus hrun rfl)
  | drain runId g hrun hp hbar hg => exact hother (hstatus hrun rfl)
  | delete runId hdel =>
    refine List.mem_filter.mpr ⟨hr, ?_⟩
    rw [bne_iff_ne]
    exact fun he => hop (he ▸ hdel)
  | _ => exact hr

/-- **What `purge_run` checks stays true**, whatever is called, until the run is deleted. -/
theorem Move.purgeable (h : Move cfg op u v) (hi : Inv u) {runId : String} {now : Time}
    (hop : op ≠ .deleteRun runId) (hp : Purgeable u runId now) : Purgeable v runId now := by
  obtain ⟨⟨r, hr, rfl, hs, hret⟩, hb⟩ := hp
  refine ⟨⟨r, h.inactive_run hi.keys hr hs hb hop, rfl, hs, hret⟩, fun b' hb' hid => ?_⟩
  rcases h.batch_backward hi.keys hb' with ⟨b, hm, hstep⟩ | ⟨run, spec, jobId, now', ha, hn⟩
  · have hid' : b.runId = r.runId := by rw [← hid, hstep.core]
    refine hstep.unfenced (hb b hm hid') fun hact => ?_
    rw [active_of_runActive hi.keys hr (hid' ▸ hact)] at hs
    cases hs
  · have hrun : run.runId = r.runId := by rcases hn with rfl | ⟨d, rfl⟩ <;> exact hid
    rw [← eq_of_keyed hi.keys.runs ha.mem hr hrun, ha.opened] at hs
    cases hs

theorem step_purgeable (cfg : Config) (hi : Inv s) (op : Op) {runId : String} {now : Time}
    (hop : op ≠ .deleteRun runId) (hp : Purgeable s runId now) :
    Purgeable (step cfg s op) runId now :=
  step_of_move hi op (fun _ _ hu hm h => hm.purgeable hu hop h) hp

theorem step_purgeStarted (cfg : Config) (hi : Inv s) (op : Op) {runId : String}
    (hop : op ≠ .deleteRun runId) (hs : s.purgeStarted runId = true) : (step cfg s op).purgeStarted runId = true :=
  step_of_move hi op (fun _ _ _ hm h => hm.purgeStarted hop h) hs

/-! ## The first transaction -/

/-- The journal after the first transaction of a purge. -/
def SQLiteJournal.markPurge (s : SQLiteJournal) (runId : String) (now : Time) : SQLiteJournal :=
  if s.purgeStarted runId then s
  else s.addEvent
    { runId, eventType := .runPurgeStarted,
      counters := [("artifacts", (s.artifacts.filter fun a => a.runId == runId).length)],
      createdAt := now }

theorem markPurge_started (s : SQLiteJournal) (runId : String) (now : Time) :
    (s.markPurge runId now).purgeStarted runId = true := by
  unfold SQLiteJournal.markPurge
  split
  · assumption
  · simp only [SQLiteJournal.purgeStarted, SQLiteJournal.addEvent, List.any_append,
      Bool.or_eq_true]
    refine .inr ?_
    split <;> simp

theorem purgeRun_absent {runId : String} {now : Time} (h : s.getRun runId = none) :
    purgeRun s runId true now = .ok ([], s) := by
  simp [purgeRun, h]

/-- The first transaction of a purge whose checks hold. -/
theorem purgeRun_of_purgeable (hk : Keys s) {runId : String} {now : Time}
    (hp : Purgeable s runId now) :
    purgeRun s runId true now =
      .ok (s.artifacts.filter (fun a => a.runId == runId), s.markPurge runId now) := by
  obtain ⟨⟨r, hr, rfl, hs, hret⟩, hb⟩ := hp
  have hget : s.getRun r.runId = some r := lookup_of_mem hk.runs hr
  have hcount : s.batches.countP (fun b => b.runId == r.runId && b.fencingToken.isSome) = 0 := by
    rw [List.countP_eq_zero]
    intro b hm
    rw [Bool.and_eq_true, beq_iff_eq]
    rintro ⟨hid, ht⟩
    rw [hb b hm hid] at ht
    cases ht
  by_cases hm : s.purgeStarted r.runId = true
  · have hany : (s.events.any fun e => e.runId == r.runId && e.eventType == .runPurgeStarted) =
      true := hm
    simp [purgeRun, hget, hs, not_lt.mpr hret, hcount, SQLiteJournal.markPurge, hm, hany]
  · have hany : ¬ (s.events.any fun e => e.runId == r.runId && e.eventType == .runPurgeStarted) =
      true := hm
    simp only [purgeRun, hget, hs, not_lt.mpr hret, hcount, SQLiteJournal.markPurge, if_neg hm,
      if_neg hany]
    rfl

/-- A first transaction that commits has checked the run. -/
theorem purgeable_of_purgeRun (hk : Keys s) {runId : String} {confirmed : Bool} {now : Time}
    {refs : List Artifact} {t : SQLiteJournal} (h : purgeRun s runId confirmed now = .ok (refs, t))
    (hr : s.getRun runId ≠ none) : Purgeable s runId now := by
  unfold purgeRun at h
  split at h
  · cases h
  · split at h
    · exact absurd (by assumption) hr
    · rename_i r hget
      split at h
      · cases h
      · rename_i hs
        split at h
        · cases h
        · rename_i hret
          split at h
          · cases h
          · rename_i hcount
            refine ⟨⟨r, lookup_mem hget, lookup_key hget, ?_, not_lt.mp hret⟩, fun b hb hid => ?_⟩
            · simpa using hs
            · have := List.countP_eq_zero.mp (not_not.mp hcount) b hb
              simpa [hid] using this

/-- The first transaction of a purge, inverted. -/
theorem purgeRun_inv (hk : Keys s) {runId : String} {confirmed : Bool} {now : Time}
    {refs : List Artifact} {t : SQLiteJournal} (h : purgeRun s runId confirmed now = .ok (refs, t))
    (hr : s.getRun runId ≠ none) :
    Purgeable s runId now ∧ refs = s.artifacts.filter (fun a => a.runId == runId) ∧
      t = s.markPurge runId now := by
  have hp := purgeable_of_purgeRun hk h hr
  have hc : confirmed = true := by
    by_contra hc
    rw [Bool.not_eq_true] at hc
    simp [purgeRun, hc] at h
  rw [hc, purgeRun_of_purgeable hk hp] at h
  cases h
  exact ⟨hp, rfl, rfl⟩

end CortexHarness.Journal
