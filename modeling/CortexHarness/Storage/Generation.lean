import CortexHarness.Library.Run
import Mathlib.Logic.Function.Basic

/-!
# Generations: publication, pins and retirement

Model of `GenerationManager` (`generation.py:28-470`) for one physical target. Threads take the
publication lock for single steps, so a run is a list of such steps in any order: `publish` is its
checks, the tombstone check, the generation record and the pointer swap, and `retire` is its fence,
the removal of the directory and the release. What a call has done so far is an `Operation` in
flight; a reader between `pin_active` and its release is one too.

An I/O failure can end `publish` at any of its steps. `_validate_paths` and
`_validate_storage_target` resolve links and read the topology; their outcome is part of a step, as
it is nondeterministic for the manager. Temporary files and the contents of the markers are left
out.

Results:
* `Action.clean`: no publication fails between the replacement of the pointer and the update of the
  cache;
* `step_inv`: clean steps keep the cache, the pointer, the tombstones and the pins consistent;
* `generation_safety`: what this means for the directories, the pointer and the pins;
* `failed_publication_retires_active`: without it, the active generation can be removed.
-/

namespace CortexHarness.Storage

/-! ## The manager -/

/-- `GenerationState`. -/
inductive GenerationState where
  | building | validating | published | failed | cancelled | retiring | retired
  deriving Repr, DecidableEq

/-- The fields of `GenerationManifest` that decide anything here. -/
structure GenerationManifest where
  generationId : String
  target : String
  state : GenerationState
  deriving Repr, DecidableEq

/-- How far a call has come. -/
inductive Operation where
  /-- `publish`, after its checks and the caller's validation -/
  | checked (published : GenerationManifest)
  /-- after the tombstone check -/
  | admitted (published : GenerationManifest)
  /-- after the generation record is written -/
  | recorded (published : GenerationManifest)
  /-- `retire`, after its fence -/
  | fenced (manifest : GenerationManifest)
  /-- after the directory is gone -/
  | removed (manifest : GenerationManifest)
  /-- inside `pin_active` -/
  | pinned (manifest : GenerationManifest)
  | ended
  deriving Repr, DecidableEq

/-- `GenerationManager` with the files below its root. -/
structure GenerationManager where
  target : String
  /-- `active-generation.json` -/
  pointer : Option GenerationManifest := none
  /-- the generation directories -/
  directories : List String := []
  /-- the `generation.json` files -/
  records : List String := []
  /-- `retired-generations` -/
  tombstones : List String := []
  /-- `generation-compatibility` -/
  incompatible : List String := []
  /-- `_references` -/
  references : String → Nat := fun _ => 0
  /-- `_retiring` -/
  retiring : List String := []
  /-- `_active_cache` -/
  activeCache : Option GenerationManifest := none
  /-- `_active_cache_loaded` -/
  activeCacheLoaded : Bool := false
  operations : List Operation := []

namespace GenerationManager

variable (s : GenerationManager)

/-- `_load_active_unlocked`; `none` when it raises. `valid` is what the checks of the paths and of
the storage target say. -/
def loadActiveUnlocked (valid : Bool) : Option (Option GenerationManifest × GenerationManager) :=
  if s.activeCacheLoaded then some (s.activeCache, s)
  else
    match s.pointer with
    | none => some (none, { s with activeCache := none, activeCacheLoaded := true })
    | some manifest =>
      if manifest.target ≠ s.target ∨ manifest.state ≠ .published then none
      else if valid = false then none
      else if manifest.generationId ∈ s.incompatible then none
      else some (some manifest,
        { s with activeCache := some manifest, activeCacheLoaded := true })

/-- The entry of `pin_active`. -/
def pinActive (valid : Bool) : GenerationManager :=
  match s.loadActiveUnlocked valid with
  | none => s
  | some (none, s) => s
  | some (some manifest, s) =>
    let current := s.references manifest.generationId
    { s with
      references := Function.update s.references manifest.generationId (current + 1)
      operations := s.operations ++ [.pinned manifest] }

/-- The exit of `pin_active`. -/
def unpin (manifest : GenerationManifest) : GenerationManager :=
  let current := s.references manifest.generationId
  let left := if current ≤ 1 then 0 else current - 1
  { s with references := Function.update s.references manifest.generationId left }

/-- Where an I/O failure ends a step of `publish`. -/
inductive Fault where
  /-- before anything is visible -/
  | early
  /-- after the directory is made, before its record is replaced -/
  | partway
  /-- after the file is replaced: the directory cannot be opened or synced -/
  | late
  deriving Repr, DecidableEq

/-- `_write_generation_record`, and whether it returned. -/
def writeGenerationRecord (generationId : String) : Option Fault → Bool × GenerationManager
  | some .early => (false, s)
  | some .partway => (false, { s with directories := generationId :: s.directories })
  | some .late => (false, { s with
      directories := generationId :: s.directories, records := generationId :: s.records })
  | none => (true, { s with
      directories := generationId :: s.directories, records := generationId :: s.records })

/-- The checks of `publish` under its second lock. -/
def publishable (published : GenerationManifest) (valid : Bool) : Bool :=
  valid && !s.retiring.contains published.generationId &&
    !s.tombstones.contains published.generationId && s.records.contains published.generationId &&
    !s.incompatible.contains published.generationId

/-- The pointer swap of `publish`: an early or partial failure leaves the pointer, a late one comes
after `os.replace` and before the cache is updated. -/
def swapPointer (published : GenerationManifest) : Option Fault → GenerationManager
  | some .early => s
  | some .partway => s
  | some .late => { s with pointer := some published }
  | none =>
    { s with pointer := some published, activeCache := some published, activeCacheLoaded := true }

/-- The fence of `retire`: `none` when it raises or returns `False`. -/
def fence (manifest : GenerationManifest) (valid : Bool) : Option GenerationManager :=
  match s.loadActiveUnlocked valid with
  | none => none
  | some (active, s) =>
    if active.map GenerationManifest.generationId = some manifest.generationId then none
    else if s.references manifest.generationId ≠ 0 then none
    else if manifest.generationId ∈ s.retiring then none
    else some { s with
      tombstones := manifest.generationId :: s.tombstones
      retiring := manifest.generationId :: s.retiring
      operations := s.operations ++ [.fenced manifest] }

/-- `mark_incompatible`. -/
def markIncompatible (generationId : String) : GenerationManager :=
  if s.activeCache.map GenerationManifest.generationId = some generationId then
    { s with incompatible := generationId :: s.incompatible, activeCache := none,
             activeCacheLoaded := false }
  else { s with incompatible := generationId :: s.incompatible }

/-- `recover`; where the load raises, the reset of the cache stays. -/
def recover (valid : Bool) : GenerationManager :=
  let s := { s with activeCache := none, activeCacheLoaded := false }
  match s.loadActiveUnlocked valid with
  | none => s
  | some (_, s) => s

/-- `load_active`. -/
def loadActive (valid : Bool) : GenerationManager :=
  match s.loadActiveUnlocked valid with
  | none => s
  | some (_, s) => s

/-! ## Steps -/

/-- One step of one thread; `n` names an operation in flight. -/
inductive Action where
  | pin (valid : Bool)
  | unpin (n : Nat)
  /-- `publish`, up to the caller's validation -/
  | publish (manifest : GenerationManifest) (valid : Bool)
  | checkTombstone (n : Nat)
  | writeRecord (n : Nat) (fault : Option Fault)
  | swap (n : Nat) (valid : Bool) (fault : Option Fault)
  | retire (manifest : GenerationManifest) (valid : Bool)
  | remove (n : Nat)
  | release (n : Nat)
  | markIncompatible (generationId : String)
  | recover (valid : Bool)
  | loadActive (valid : Bool)
  /-- `allocate` -/
  | allocate (generationId : String)
  deriving Repr, DecidableEq

/-- The operation `n` goes on as `op`. -/
def goOn (s : GenerationManager) (n : Nat) (op : Operation) : GenerationManager :=
  { s with operations := s.operations.set n op }

/-- The operation `n` ends. -/
def finish (s : GenerationManager) (n : Nat) : GenerationManager := s.goOn n .ended

def step : Action → GenerationManager
  | .pin valid => s.pinActive valid
  | .unpin n =>
    match s.operations[n]? with
    | some (.pinned manifest) => (s.unpin manifest).finish n
    | _ => s
  | .publish manifest valid =>
    if manifest.target = s.target ∧ valid = true ∧ manifest.generationId ∉ s.incompatible then
      { s with operations := s.operations ++ [.checked { manifest with state := .published }] }
    else s
  | .checkTombstone n =>
    match s.operations[n]? with
    | some (.checked published) =>
      if published.generationId ∈ s.tombstones then s.finish n else s.goOn n (.admitted published)
    | _ => s
  | .writeRecord n fault =>
    match s.operations[n]? with
    | some (.admitted published) =>
      match s.writeGenerationRecord published.generationId fault with
      | (true, s) => s.goOn n (.recorded published)
      | (false, s) => s.finish n
    | _ => s
  | .swap n valid fault =>
    match s.operations[n]? with
    | some (.recorded published) =>
      if s.publishable published valid then (s.swapPointer published fault).finish n
      else s.finish n
    | _ => s
  | .retire manifest valid =>
    match s.fence manifest valid with
    | some s => s
    | none => s.loadActive valid
  | .remove n =>
    match s.operations[n]? with
    | some (.fenced manifest) =>
      { s with
        directories := s.directories.filter (· != manifest.generationId)
        records := s.records.filter (· != manifest.generationId) }.goOn n (.removed manifest)
    | _ => s
  | .release n =>
    match s.operations[n]? with
    | some (.removed manifest) =>
      { s with retiring := s.retiring.filter (· != manifest.generationId) }.finish n
    | _ => s
  | .markIncompatible generationId => s.markIncompatible generationId
  | .recover valid => s.recover valid
  | .loadActive valid => s.loadActive valid
  | .allocate generationId => (s.writeGenerationRecord generationId none).2

/-- The generation is pinned by a reader. -/
def Pinned (s : GenerationManager) (generationId : String) : Prop :=
  ∃ manifest, .pinned manifest ∈ s.operations ∧ manifest.generationId = generationId

/-- The generation is selected by the durable pointer. -/
def Selected (s : GenerationManager) (generationId : String) : Prop :=
  s.pointer.map GenerationManifest.generationId = some generationId

instance (s : GenerationManager) (generationId : String) : Decidable (s.Selected generationId) :=
  inferInstanceAs (Decidable (_ = _))

/-- No publication fails after the pointer is replaced and before the cache is updated. -/
def Action.clean : Action → Bool
  | .swap _ _ (some .late) => false
  | _ => true

/-! ## The invariant -/

/-- The operation is a pin of the generation. -/
def pins (generationId : String) : Operation → Bool
  | .pinned manifest => manifest.generationId == generationId
  | _ => false

/-- The cache is the pointer, and what is tombstoned is neither selected nor pinned. -/
structure Inv (s : GenerationManager) : Prop where
  loaded : s.activeCacheLoaded = true → s.activeCache = s.pointer
  unloaded : s.activeCacheLoaded = false → s.activeCache = none
  compatible : ∀ m, s.activeCache = some m → m.generationId ∉ s.incompatible
  selected : ∀ m, s.pointer = some m → m.generationId ∉ s.tombstones
  counted : ∀ g, s.references g = s.operations.countP (pins g)
  pinned : ∀ m, .pinned m ∈ s.operations → m.generationId ∉ s.tombstones
  fenced : ∀ m, .fenced m ∈ s.operations → m.generationId ∈ s.tombstones

variable {s : GenerationManager} {n : Nat} {op : Operation}

theorem inv_init (target : String) : Inv { target } where
  loaded h := by cases h
  unloaded _ := rfl
  compatible m h := by cases h
  selected m h := by cases h
  counted g := rfl
  pinned m h := absurd h List.not_mem_nil
  fenced m h := absurd h List.not_mem_nil

theorem load_inv (hi : Inv s) {valid : Bool} {active : Option GenerationManifest}
    {t : GenerationManager} (h : s.loadActiveUnlocked valid = some (active, t)) :
    t = { s with activeCache := active, activeCacheLoaded := true } ∧ active = s.pointer ∧
      ∀ m, active = some m → m.generationId ∉ s.incompatible := by
  unfold loadActiveUnlocked at h
  split at h
  · rename_i hl
    cases h
    refine ⟨?_, hi.loaded hl, hi.compatible⟩
    rw [← hl]
  · split at h
    · rename_i hp
      cases h
      exact ⟨rfl, hp.symm, fun m hm => by cases hm⟩
    · rename_i m hp
      split at h
      · cases h
      · split at h
        · cases h
        · split at h
          · cases h
          · rename_i hc
            cases h
            refine ⟨rfl, hp.symm, fun m' hm => ?_⟩
            cases hm
            exact hc

theorem Inv.fill (hi : Inv s) {active : Option GenerationManifest} (ha : active = s.pointer)
    (hc : ∀ m, active = some m → m.generationId ∉ s.incompatible) :
    Inv { s with activeCache := active, activeCacheLoaded := true } :=
  { hi with
    loaded := fun _ => ha
    unloaded := fun h => by cases h
    compatible := hc }

theorem loadActive_inv (hi : Inv s) (valid : Bool) : Inv (s.loadActive valid) := by
  unfold loadActive
  split
  · exact hi
  · rename_i active t hl
    obtain ⟨rfl, ha, hc⟩ := load_inv hi hl
    exact hi.fill ha hc

/-- No part of the invariant is about the directories. -/
theorem Inv.files (hi : Inv s) (directories records retiring : List String) :
    Inv { s with directories, records, retiring } := { hi with }

theorem Inv.goOn (hi : Inv s) (hop : s.operations[n]? = some op) (op' : Operation)
    (hp : ∀ g, pins g op = false) (hp' : ∀ g, pins g op' = false)
    (hf : ∀ m, op' = .fenced m → m.generationId ∈ s.tombstones) : Inv (s.goOn n op') where
  loaded := hi.loaded
  unloaded := hi.unloaded
  compatible := hi.compatible
  selected := hi.selected
  counted g := by
    obtain ⟨hn, hget⟩ := List.getElem?_eq_some_iff.mp hop
    rw [GenerationManager.goOn, List.countP_set hn, hget, hp, hp', hi.counted g]
    simp
  pinned m hm := by
    rcases List.mem_or_eq_of_mem_set hm with hm | rfl
    · exact hi.pinned m hm
    · have := hp' m.generationId
      simp [pins] at this
  fenced m hm := by
    rcases List.mem_or_eq_of_mem_set hm with hm | rfl
    · exact hi.fenced m hm
    · exact hf m rfl

theorem Inv.finish (hi : Inv s) (hop : s.operations[n]? = some op) (hp : ∀ g, pins g op = false) :
    Inv (s.finish n) :=
  hi.goOn hop .ended hp (fun _ => rfl) fun m h => by cases h

theorem Inv.start (hi : Inv s) (hp : ∀ g, pins g op = false)
    (hf : ∀ m, op = .fenced m → m.generationId ∈ s.tombstones) :
    Inv { s with operations := s.operations ++ [op] } :=
  { hi with
    counted := fun g => by simp [List.countP_append, hp, hi.counted g]
    pinned := fun m hm => by
      rcases List.mem_append.mp hm with hm | hm
      · exact hi.pinned m hm
      · have := hp m.generationId
        rw [← List.mem_singleton.mp hm] at this
        simp [pins] at this
    fenced := fun m hm => by
      rcases List.mem_append.mp hm with hm | hm
      · exact hi.fenced m hm
      · exact hf m (List.mem_singleton.mp hm).symm }

theorem pinActive_inv (hi : Inv s) (valid : Bool) : Inv (s.pinActive valid) := by
  unfold pinActive
  split
  · exact hi
  · rename_i t hl
    obtain ⟨rfl, ha, hc⟩ := load_inv hi hl
    exact hi.fill ha hc
  · rename_i manifest t hl
    obtain ⟨rfl, ha, hc⟩ := load_inv hi hl
    have hfill := hi.fill ha hc
    refine { hfill with
      counted := fun g => ?_
      pinned := fun m hm => ?_
      fenced := fun m hm => ?_ }
    · dsimp only
      rw [Function.update_apply, List.countP_append, List.countP_singleton, hi.counted]
      by_cases hg : g = manifest.generationId
      · simp [hg, pins]
      · have hne : (manifest.generationId == g) = false := by simpa using fun h => hg h.symm
        simp [hg, pins, hne, hi.counted]
    · rcases List.mem_append.mp hm with hm | hm
      · exact hi.pinned m hm
      · cases List.mem_singleton.mp hm
        exact hi.selected manifest ha.symm
    · rcases List.mem_append.mp hm with hm | hm
      · exact hi.fenced m hm
      · cases List.mem_singleton.mp hm

theorem unpin_inv (hi : Inv s) {manifest : GenerationManifest}
    (hop : s.operations[n]? = some (.pinned manifest)) : Inv ((s.unpin manifest).finish n) where
  loaded := hi.loaded
  unloaded := hi.unloaded
  compatible := hi.compatible
  selected := hi.selected
  counted g := by
    obtain ⟨hn, hget⟩ := List.getElem?_eq_some_iff.mp hop
    have hcount := List.countP_set (p := pins g) (a := .ended) hn
    simp only [GenerationManager.finish, GenerationManager.goOn, unpin]
    rw [hcount, hget, Function.update_apply]
    by_cases hg : g = manifest.generationId
    · simp only [hg, if_true, pins, beq_self_eq_true, hi.counted]
      split
      · simp
        omega
      · simp
    · have hne : (manifest.generationId == g) = false := by simpa using fun h => hg h.symm
      simp [hg, pins, hne, hi.counted]
  pinned m hm := by
    rcases List.mem_or_eq_of_mem_set hm with hm | hm
    · exact hi.pinned m hm
    · cases hm
  fenced m hm := by
    rcases List.mem_or_eq_of_mem_set hm with hm | hm
    · exact hi.fenced m hm
    · cases hm

/-- The fence finds the generation neither selected nor pinned. -/
theorem fence_inv (hi : Inv s) {manifest : GenerationManifest} {valid : Bool} {t : GenerationManager}
    (h : s.fence manifest valid = some t) : Inv t := by
  unfold fence at h
  split at h
  · cases h
  · rename_i active u hl
    obtain ⟨rfl, ha, hc⟩ := load_inv hi hl
    have hfill := hi.fill ha hc
    split at h
    · cases h
    · rename_i hactive
      split at h
      · cases h
      · rename_i href
        split at h
        · cases h
        · cases h
          have hzero : s.operations.countP (pins manifest.generationId) = 0 := by
            rw [← hi.counted]
            simpa using href
          have hfence : Inv { s with
              activeCache := active, activeCacheLoaded := true
              tombstones := manifest.generationId :: s.tombstones
              retiring := manifest.generationId :: s.retiring } := by
            refine { hfill with selected := fun m hm => ?_, pinned := fun m hm => ?_,
                                fenced := fun m hm => ?_ }
            · rw [List.mem_cons, not_or]
              refine ⟨fun he => hactive ?_, hi.selected m hm⟩
              rw [ha, show s.pointer = some m from hm, ← he]
              rfl
            · rw [List.mem_cons, not_or]
              refine ⟨fun he => ?_, hi.pinned m hm⟩
              have := List.countP_eq_zero.mp hzero _ hm
              simp [pins, he] at this
            · exact List.mem_cons_of_mem _ (hi.fenced m hm)
          exact hfence.start (fun _ => rfl) fun m hm => by cases hm; exact List.mem_cons_self

theorem markIncompatible_inv (hi : Inv s) (g : String) : Inv (s.markIncompatible g) := by
  unfold markIncompatible
  split
  · exact { hi with
      loaded := fun h => by cases h
      unloaded := fun _ => rfl
      compatible := fun m h => by cases h }
  · rename_i hne
    refine { hi with compatible := fun m hm => ?_ }
    rw [List.mem_cons, not_or]
    refine ⟨fun he => hne ?_, hi.compatible m hm⟩
    rw [show s.activeCache = some m from hm, ← he]
    rfl

theorem recover_inv (hi : Inv s) (valid : Bool) : Inv (s.recover valid) := by
  have hreset : Inv { s with activeCache := none, activeCacheLoaded := false } :=
    { hi with
      loaded := fun h => by cases h
      unloaded := fun _ => rfl
      compatible := fun m h => by cases h }
  exact loadActive_inv hreset valid

theorem publishable_iff {published : GenerationManifest} {valid : Bool}
    (h : s.publishable published valid = true) :
    published.generationId ∉ s.tombstones ∧ published.generationId ∉ s.incompatible := by
  simp only [publishable, Bool.and_eq_true, Bool.not_eq_true', List.contains_eq_mem,
    decide_eq_false_iff_not] at h
  exact ⟨h.1.1.2, h.2⟩

theorem swapPointer_inv (hi : Inv s) {published : GenerationManifest} {valid : Bool}
    {fault : Option Fault} (hp : s.publishable published valid = true) (hf : fault ≠ some .late) :
    Inv (s.swapPointer published fault) := by
  obtain ⟨ht, hc⟩ := publishable_iff hp
  cases fault with
  | none =>
    exact { hi with
      loaded := fun _ => rfl
      unloaded := fun h => by cases h
      compatible := fun m h => by cases h; exact hc
      selected := fun m h => by cases h; exact ht }
  | some f =>
    cases f with
    | late => exact absurd rfl hf
    | _ => exact hi

/-- **Every clean step keeps the invariant.** -/
theorem step_inv (hi : Inv s) {a : Action} (ha : a.clean = true) : Inv (s.step a) := by
  cases a with
  | pin valid => exact pinActive_inv hi valid
  | unpin n =>
    simp only [step]
    split
    · exact unpin_inv hi ‹_›
    · exact hi
  | publish manifest valid =>
    simp only [step]
    split
    · exact hi.start (fun _ => rfl) fun m h => by cases h
    · exact hi
  | checkTombstone n =>
    simp only [step]
    split
    · split
      · exact hi.finish ‹_› fun _ => rfl
      · exact hi.goOn ‹_› _ (fun _ => rfl) (fun _ => rfl) fun m h => by cases h
    · exact hi
  | writeRecord n fault =>
    simp only [step]
    split
    · rename_i published hop
      rcases fault with _ | _ | _ | _
      · have hfiles := hi.files (published.generationId :: s.directories)
          (published.generationId :: s.records) s.retiring
        exact hfiles.goOn hop (.recorded published) (fun _ => rfl) (fun _ => rfl)
          fun m h => by cases h
      · exact hi.finish hop fun _ => rfl
      · exact (hi.files _ s.records s.retiring).finish hop fun _ => rfl
      · exact (hi.files _ _ s.retiring).finish hop fun _ => rfl
    · exact hi
  | swap n valid fault =>
    have hf : fault ≠ some .late := by
      rintro rfl
      cases ha
    simp only [step]
    split
    · rename_i published hop
      split
      · rename_i hp
        have hop' : (s.swapPointer published fault).operations[n]? = some (.recorded published) := by
          rcases fault with _ | _ | _ | _ <;> exact hop
        exact (swapPointer_inv hi hp hf).finish hop' fun _ => rfl
      · exact hi.finish hop fun _ => rfl
    · exact hi
  | retire manifest valid =>
    simp only [step]
    split
    · exact fence_inv hi ‹_›
    · exact loadActive_inv hi valid
  | remove n =>
    simp only [step]
    split
    · rename_i manifest hop
      have hfiles := hi.files (s.directories.filter (· != manifest.generationId))
        (s.records.filter (· != manifest.generationId)) s.retiring
      exact hfiles.goOn hop (.removed manifest) (fun _ => rfl) (fun _ => rfl)
        fun m h => by cases h
    · exact hi
  | release n =>
    simp only [step]
    split
    · rename_i manifest hop
      exact (hi.files s.directories s.records _).finish hop fun _ => rfl
    · exact hi
  | markIncompatible g => exact markIncompatible_inv hi g
  | recover valid => exact recover_inv hi valid
  | loadActive valid => exact loadActive_inv hi valid
  | allocate g => exact { hi with }

/-! ## Safety -/

/-- What a state guarantees, and what the next step does to it. -/
structure Safe (s : GenerationManager) (a : Action) : Prop where
  /-- the directory of a pinned generation is not removed -/
  pinned : ∀ g, s.Pinned g → g ∈ s.directories → g ∈ (s.step a).directories
  /-- nor is that of the selected one -/
  selected : ∀ g, s.Selected g → g ∈ s.directories → g ∈ (s.step a).directories
  /-- the selected generation is not tombstoned -/
  untombstoned : ∀ g, s.Selected g → g ∉ s.tombstones ∧ g ∉ (s.step a).tombstones
  /-- a tombstoned generation does not become active -/
  tombstoned : ∀ g ∈ s.tombstones, ¬ (s.step a).Selected g ∧
    (s.step a).activeCache.map GenerationManifest.generationId ≠ some g
  /-- an incompatible generation is not newly pinned -/
  incompatible : ∀ g ∈ s.incompatible,
    (s.step a).operations.countP (pins g) ≤ s.operations.countP (pins g)

/-- What a step leaves alone. -/
structure Frame (s t : GenerationManager) : Prop where
  directories : ∀ g ∈ s.directories,
    g ∈ t.directories ∨ ∃ m, .fenced m ∈ s.operations ∧ m.generationId = g
  tombstones : ∀ g ∈ s.tombstones, g ∈ t.tombstones
  swaps : t.pointer = s.pointer ∨ t.tombstones = s.tombstones
  pins : ∀ g ∈ s.incompatible, t.operations.countP (pins g) ≤ s.operations.countP (pins g)

/-- The files are left alone and no pin is added. -/
theorem Frame.of_pins {t : GenerationManager} (hd : t.directories = s.directories)
    (ht : t.tombstones = s.tombstones)
    (hp : ∀ g, t.operations.countP (GenerationManager.pins g) ≤
      s.operations.countP (GenerationManager.pins g)) : Frame s t :=
  ⟨fun _ hg => .inl (hd ▸ hg), fun _ hg => ht ▸ hg, .inr ht, fun g _ => hp g⟩

theorem pins_set_le {g : String} {op' : Operation} (h : pins g op' = false) (l : List Operation)
    (n : Nat) : (l.set n op').countP (pins g) ≤ l.countP (pins g) := by
  by_cases hn : n < l.length
  · rw [List.countP_set hn, h]
    split <;> simp
  · exact Nat.le_of_eq (congrArg _ (List.set_eq_of_length_le (by omega)))

theorem pins_append_le {g : String} {op' : Operation} (h : pins g op' = false)
    (l : List Operation) : (l ++ [op']).countP (pins g) ≤ l.countP (pins g) := by
  simp [List.countP_append, h]

theorem loadActive_frame (hi : Inv s) (valid : Bool) : Frame s (s.loadActive valid) := by
  unfold loadActive
  split
  · exact .of_pins rfl rfl fun _ => Nat.le_refl _
  · rename_i active t hl
    obtain ⟨rfl, -, -⟩ := load_inv hi hl
    exact .of_pins rfl rfl fun _ => Nat.le_refl _

theorem pinActive_frame (hi : Inv s) (valid : Bool) : Frame s (s.pinActive valid) := by
  unfold pinActive
  split
  · exact .of_pins rfl rfl fun _ => Nat.le_refl _
  · rename_i t hl
    obtain ⟨rfl, -, -⟩ := load_inv hi hl
    exact .of_pins rfl rfl fun _ => Nat.le_refl _
  · rename_i manifest t hl
    obtain ⟨rfl, -, hc⟩ := load_inv hi hl
    refine ⟨fun g hg => .inl hg, fun g hg => hg, .inl rfl, fun g hg => ?_⟩
    have hne : manifest.generationId ≠ g := fun he => hc manifest rfl (he ▸ hg)
    exact pins_append_le (by simpa [GenerationManager.pins] using hne) _

theorem fence_frame (hi : Inv s) {manifest : GenerationManifest} {valid : Bool}
    {t : GenerationManager} (h : s.fence manifest valid = some t) : Frame s t := by
  unfold fence at h
  split at h
  · cases h
  · rename_i active u hl
    obtain ⟨rfl, -, -⟩ := load_inv hi hl
    split at h
    · cases h
    · split at h
      · cases h
      · split at h
        · cases h
        · cases h
          exact ⟨fun g hg => .inl hg, fun g hg => List.mem_cons_of_mem _ hg, .inl rfl,
            fun g _ => pins_append_le rfl _⟩

/-- What every step leaves alone. -/
theorem step_frame (hi : Inv s) (a : Action) : Frame s (s.step a) := by
  have hsame : Frame s s := .of_pins rfl rfl fun _ => Nat.le_refl _
  cases a with
  | pin valid => exact pinActive_frame hi valid
  | unpin n =>
    simp only [step]
    split
    · exact .of_pins rfl rfl fun _ => pins_set_le rfl _ _
    · exact hsame
  | publish manifest valid =>
    simp only [step]
    split
    · exact .of_pins rfl rfl fun _ => pins_append_le rfl _
    · exact hsame
  | checkTombstone n =>
    simp only [step]
    split
    · split <;> exact .of_pins rfl rfl fun _ => pins_set_le rfl _ _
    · exact hsame
  | writeRecord n fault =>
    simp only [step]
    split
    · rcases fault with _ | _ | _ | _
      · exact ⟨fun g hg => .inl (List.mem_cons_of_mem _ hg), fun g hg => hg, .inl rfl,
          fun g _ => pins_set_le rfl _ _⟩
      · exact .of_pins rfl rfl fun _ => pins_set_le rfl _ _
      · exact ⟨fun g hg => .inl (List.mem_cons_of_mem _ hg), fun g hg => hg, .inl rfl,
          fun g _ => pins_set_le rfl _ _⟩
      · exact ⟨fun g hg => .inl (List.mem_cons_of_mem _ hg), fun g hg => hg, .inl rfl,
          fun g _ => pins_set_le rfl _ _⟩
    · exact hsame
  | swap n valid fault =>
    simp only [step]
    split
    · split
      · rcases fault with _ | _ | _ | _ <;> exact .of_pins rfl rfl fun _ => pins_set_le rfl _ _
      · exact .of_pins rfl rfl fun _ => pins_set_le rfl _ _
    · exact hsame
  | retire manifest valid =>
    simp only [step]
    split
    · exact fence_frame hi ‹_›
    · exact loadActive_frame hi valid
  | remove n =>
    simp only [step]
    split
    · rename_i manifest hop
      refine ⟨fun g hg => ?_, fun g hg => hg, .inl rfl, fun g _ => pins_set_le rfl _ _⟩
      by_cases he : manifest.generationId = g
      · exact .inr ⟨manifest, List.mem_of_getElem? hop, he⟩
      · exact .inl (List.mem_filter.mpr ⟨hg, by simpa using fun h => he h.symm⟩)
    · exact hsame
  | release n =>
    simp only [step]
    split
    · exact .of_pins rfl rfl fun _ => pins_set_le rfl _ _
    · exact hsame
  | markIncompatible g =>
    simp only [step, markIncompatible]
    split <;> exact .of_pins rfl rfl fun _ => Nat.le_refl _
  | recover valid =>
    have hreset : Inv { s with activeCache := none, activeCacheLoaded := false } :=
      { hi with
        loaded := fun h => by cases h
        unloaded := fun _ => rfl
        compatible := fun m h => by cases h }
    have hf := loadActive_frame hreset valid
    exact ⟨hf.directories, hf.tombstones, hf.swaps, hf.pins⟩
  | loadActive valid => exact loadActive_frame hi valid
  | allocate g =>
    exact ⟨fun g hg => .inl (List.mem_cons_of_mem _ hg), fun g hg => hg, .inl rfl,
      fun g _ => Nat.le_refl _⟩

/-- The invariant makes the next clean step safe. -/
theorem Inv.safe (hi : Inv s) {a : Action} (ha : a.clean = true) : s.Safe a := by
  have hf := step_frame hi a
  have hi' := step_inv hi ha
  have hselected : ∀ t : GenerationManager, Inv t → ∀ g, t.Selected g → g ∉ t.tombstones := by
    intro t ht g hg
    obtain ⟨m, hm, rfl⟩ := Option.map_eq_some_iff.mp hg
    exact ht.selected m hm
  have hkept : ∀ g, g ∉ s.tombstones → g ∈ s.directories → g ∈ (s.step a).directories := by
    intro g ht hg
    rcases hf.directories g hg with hg | ⟨m, hm, rfl⟩
    · exact hg
    · exact absurd (hi.fenced m hm) ht
  refine ⟨fun g hp => ?_, fun g hs => hkept g (hselected s hi g hs), fun g hs => ?_,
    fun g hg => ?_, hf.pins⟩
  · obtain ⟨m, hm, rfl⟩ := hp
    exact hkept _ (hi.pinned m hm)
  · refine ⟨hselected s hi g hs, ?_⟩
    rcases hf.swaps with he | he
    · exact hselected _ hi' g (by rw [Selected, he]; exact hs)
    · rw [he]
      exact hselected s hi g hs
  · have hnot : ¬ (s.step a).Selected g := fun h => hselected _ hi' g h (hf.tombstones g hg)
    refine ⟨hnot, fun hc => ?_⟩
    cases hl : (s.step a).activeCacheLoaded with
    | false =>
      rw [hi'.unloaded hl] at hc
      cases hc
    | true =>
      rw [hi'.loaded hl] at hc
      exact hnot hc

end GenerationManager

open GenerationManager in
/-- **Generation safety**, in every run in which no publication fails between the replacement of the
pointer and the update of the cache. -/
theorem generation_safety (target : String) (actions : List Action)
    (h : ∀ a ∈ actions, a.clean = true) (a : Action) (ha : a.clean = true) :
    (Run.run GenerationManager.step { target } actions).Safe a := by
  have hi : Inv (Run.run GenerationManager.step { target } actions) :=
    Run.run_invariant (I := Inv) (A := fun a => a.clean = true) (fun _ _ ha hs => step_inv hs ha)
      (inv_init target) actions h
  exact hi.safe ha

/-- Build, publish and select a generation. -/
def sampleManifest (generationId : String) : GenerationManifest :=
  ⟨generationId, "store", .building⟩

open GenerationManager in
/-- The steps of a publication that is the operation `n`. -/
def samplePublish (generationId : String) (n : Nat) (fault : Option Fault) : List Action :=
  [.publish (sampleManifest generationId) true, .checkTombstone n, .writeRecord n none,
    .swap n true fault]

/-- A reader keeps the first generation while the second is published and the first retired. -/
theorem generation_safety_sample :
    (Run.run GenerationManager.step { target := "store" }
      (samplePublish "g1" 0 none ++ [.pin true] ++ samplePublish "g2" 2 none)).Safe
        (.retire (sampleManifest "g1") true) :=
  generation_safety "store" _ (by decide) _ rfl

open GenerationManager in
/-- **A late failure lets the active generation be removed**: the pointer selects the second
generation, the cache still holds the first, and `retire` fences and removes the second. -/
theorem failed_publication_retires_active :
    ¬ ∀ (target : String) (actions : List Action) (a : Action),
      (Run.run GenerationManager.step { target } actions).Safe a := by
  intro h
  have hs := (h "store" (samplePublish "g1" 0 none ++ samplePublish "g2" 1 (some .late) ++
    [.retire (sampleManifest "g2") true]) (.remove 2)).selected "g2" (by decide) (by decide)
  exact absurd hs (by decide)

end CortexHarness.Storage
