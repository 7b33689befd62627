import CortexHarness.Library.Pointers
import CortexHarness.Library.Python
import CortexHarness.Library.Table

/-!
# The processes that a stop ends

Model of `cortex_harness/sync_processes.py` up to the order in which `stop_sync_processes` ends
processes: `sync_processes` with its matchers, `_descendants`, `_depth` and the sorted targets.

* A process table is what one snapshot gives: every pid once, and any parent for it.
* Where a path leads in the file system is a parameter (`Paths`).
* The two loops run with fuel (`Loops.Ends`).

Results:
* `targetOrder_ends`: without a cycle among the targets the order is computed, and a child is ended
  before its parent;
* `targets_scoped_iff`: the computation ends, and stays with what is connected to a matched process,
  iff no target is its own ancestor and nothing hangs below an excluded process.
-/

namespace CortexHarness.Sync.Processes

open Table Pointers Loops

/-! ## The process table -/

inductive Owner where
  | code | doc | link
  deriving DecidableEq

def Owner.text : Owner → String
  | .code => "code"
  | .doc => "doc"
  | .link => "link"

structure ProcessRecord where
  pid : Nat
  ppid : Nat
  argv : List String
  deriving DecidableEq

/-- What `process_table` returns. -/
structure ProcessTable where
  records : List ProcessRecord
  keyed : Keyed ProcessRecord.pid records

/-- Where paths lead, as lists of parts. -/
structure Paths where
  /-- `_resolved_argument` -/
  argument : String → Option (List String)
  /-- `(root / …).resolve(strict=False)` -/
  under : List String → List String

/-! ## The matchers -/

section Matchers

variable (paths : Paths) (owner : Owner)

/-- `_is_dev_sync` on the arguments that are left. -/
def isDevSync : List String → Bool
  | [] => false
  | argument :: tail =>
    if paths.argument argument ≠ some (paths.under ["cortex_harness", "dev.py"]) then
      isDevSync tail
    else
      decide (2 ≤ tail.length) && tail.take 2 == ["sync", owner.text] && !(tail.drop 2).elem "stop"

/-- `explicit_names` -/
def explicitNames : List String :=
  ["build_owner_manifests.py", "clang_worker.py", "incremental_sync.py"]

/-- `_is_code_worker` -/
def isCodeWorker (argv : List String) : Bool :=
  let codeRoot := paths.under ["code-tiny"]
  argv.any fun argument =>
    match paths.argument argument with
    | none => false
    | some path =>
      let name := path.getLast?.getD ""
      codeRoot.isPrefixOf path && decide (codeRoot.length < path.length) &&
        (explicitNames.elem name || endsWith name "_analyzer.py")

/-- `_is_doc_worker` -/
def isDocWorker (argv : List String) : Bool :=
  argv.any fun argument =>
    paths.argument argument == some (paths.under ["doc-tiny", "graphrag_ingest_langextract.py"])

/-- `_is_link_worker` -/
def isLinkWorker (argv : List String) : Bool :=
  argv.any fun argument =>
    paths.argument argument == some (paths.under ["link-tiny", "link_worker.py"])

/-- `_WORKER_MATCHERS` -/
def isWorker : Owner → List String → Bool
  | .code => isCodeWorker paths
  | .doc => isDocWorker paths
  | .link => isLinkWorker paths

/-- `sync_processes` -/
def syncProcesses (table : ProcessTable) (excluded : List Nat) (includeLaunchers : Bool) :
    List ProcessRecord :=
  (table.records.filter fun record =>
    !excluded.elem record.pid &&
      (includeLaunchers && isDevSync paths owner record.argv ||
        isWorker paths owner record.argv)).mergeSort fun r r' => r.pid ≤ r'.pid

end Matchers

/-! ## The targets -/

/-- `_descendants` -/
def descendants (table : ProcessTable) (fuel : Nat) (roots : List Nat) : Option (List Nat) :=
  closure ProcessRecord.pid ProcessRecord.ppid table.records fuel roots

/-- `processes[current].ppid`, while it is selected. -/
def selectedParent (table : ProcessTable) (selected : List Nat) (current : Nat) : Option Nat :=
  (lookup ProcessRecord.pid current table.records).bind fun record =>
    if record.ppid ∈ selected then some record.ppid else none

/-- `_depth` -/
def depth (table : ProcessTable) (selected : List Nat) (fuel pid : Nat) : Option Nat :=
  climb (selectedParent table selected) fuel pid

/-- The order of `sorted(…, reverse=True)` on pairs. -/
def later (a b : Nat × Nat) : Bool := decide (b.1 < a.1) || a.1 == b.1 && decide (b.2 ≤ a.2)

/-- The arguments of `stop_sync_processes`, the snapshot and the process it runs in. -/
structure Request where
  paths : Paths
  owner : Owner
  table : ProcessTable
  getpid : Nat
  excludePids : List Nat
  includeLaunchers : Bool

namespace Request

variable (request : Request)

def excluded : List Nat := request.getpid :: request.excludePids

def matched : List Nat :=
  (syncProcesses request.paths request.owner request.table request.excluded
    request.includeLaunchers).map ProcessRecord.pid

/-- `ordered` in `stop_sync_processes` -/
def targetOrder (fuel : Nat) : Option (List Nat) :=
  (descendants request.table fuel request.matched).bind fun selected =>
    let targets := selected.filter fun pid => !request.excluded.elem pid
    (targets.mapM fun pid =>
      (depth request.table targets fuel pid).map fun d => (d, pid)).map fun keyed =>
        (keyed.mergeSort later).map Prod.snd

/-! ## What the order promises -/

/-- A matched process, or a child of such a descendant. -/
def Descendant (pid : Nat) : Prop :=
  Descends ProcessRecord.pid ProcessRecord.ppid request.table.records request.matched pid

def Target (pid : Nat) : Prop := request.Descendant pid ∧ pid ∉ request.excluded

open Classical in
/-- The parent of a process, where it is a target. -/
noncomputable def targetParent (pid : Nat) : Option Nat :=
  (lookup ProcessRecord.pid pid request.table.records).bind fun record =>
    if request.Target record.ppid then some record.ppid else none

/-- `processes[pid].ppid` -/
def parent (pid : Nat) : Option Nat :=
  (lookup ProcessRecord.pid pid request.table.records).map ProcessRecord.ppid

/-- A chain of parents to a matched process, through no excluded one. -/
inductive Connected : Nat → Prop
  | matched {pid : Nat} (h : pid ∈ request.matched) : Connected pid
  | child {record : ProcessRecord} (hrecord : record ∈ request.table.records)
      (hexcluded : record.pid ∉ request.excluded) (h : Connected record.ppid) :
      Connected record.pid

/-- **The order of a stop.** -/
structure Scoped (ordered : List Nat) : Prop where
  once : ordered.Nodup
  targets : ∀ pid, pid ∈ ordered ↔ request.Target pid
  /-- a child is ended before its parent -/
  childFirst : (∀ pid, ¬ Cyclic request.parent pid) → ∀ record ∈ request.table.records,
    record.pid ∈ ordered → record.ppid ∈ ordered → [record.pid, record.ppid].Sublist ordered
  unexcluded : ∀ pid ∈ ordered, pid ∉ request.excluded
  connected : ∀ pid ∈ ordered, request.Connected pid

variable {request}

theorem matched_nodup : request.matched.Nodup := by
  have hperm := ((List.mergeSort_perm (request.table.records.filter fun record =>
    !request.excluded.elem record.pid &&
      (request.includeLaunchers && isDevSync request.paths request.owner record.argv ||
        isWorker request.paths request.owner record.argv)) fun r r' => r.pid ≤ r'.pid).map
    ProcessRecord.pid)
  exact hperm.nodup_iff.mpr (request.table.keyed.sublist (List.filter_sublist.map _))

theorem unexcluded_of_matched {pid : Nat} (h : pid ∈ request.matched) :
    pid ∉ request.excluded := by
  obtain ⟨record, hrecord, rfl⟩ := List.mem_map.mp h
  have hmatch := (List.mem_filter.mp (List.mem_mergeSort.mp hrecord)).2
  rw [Bool.and_eq_true, Bool.not_eq_true'] at hmatch
  simpa using hmatch.1

theorem lookup_record {record : ProcessRecord} (h : record ∈ request.table.records) :
    lookup ProcessRecord.pid record.pid request.table.records = some record :=
  lookup_of_mem request.table.keyed h

theorem Connected.unexcluded {pid : Nat} (h : request.Connected pid) :
    pid ∉ request.excluded := by
  cases h with
  | matched h => exact unexcluded_of_matched h
  | child _ hexcluded _ => exact hexcluded

theorem descendant_child (record : ProcessRecord) (h : record ∈ request.table.records)
    (hparent : request.Descendant record.ppid) : request.Descendant record.pid :=
  .child h hparent

theorem targetParent_eq {record : ProcessRecord} (h : record ∈ request.table.records)
    (hparent : request.Target record.ppid) :
    request.targetParent record.pid = some record.ppid := by
  rw [targetParent, lookup_record h]
  exact if_pos hparent

theorem targetParent_some {pid ppid : Nat} (h : request.targetParent pid = some ppid) :
    request.parent pid = some ppid ∧ request.Target ppid := by
  obtain ⟨record, hrecord, h⟩ := Option.bind_eq_some_iff.mp h
  split at h
  · next htarget =>
    cases h
    exact ⟨by rw [parent, hrecord]; rfl, htarget⟩
  · cases h

theorem selectedParent_eq {targets : List Nat} (h : ∀ pid, pid ∈ targets ↔ request.Target pid) :
    selectedParent request.table targets = request.targetParent := by
  funext pid
  unfold selectedParent targetParent
  congr 1
  funext record
  by_cases htarget : request.Target record.ppid
  · rw [if_pos htarget, if_pos ((h _).mpr htarget)]
  · rw [if_neg htarget, if_neg fun hin => htarget ((h _).mp hin)]

theorem exists_targets (request : Request) : ∃ targets : List Nat, targets.Nodup ∧
    (∀ pid, pid ∈ targets ↔ request.Target pid) ∧ ∃ n, ∀ fuel, n ≤ fuel →
      request.targetOrder fuel = (targets.mapM fun pid =>
        (climb request.targetParent fuel pid).map fun d => (d, pid)).map fun keyed =>
          (keyed.mergeSort later).map Prod.snd := by
  obtain ⟨selected, ⟨n, hn⟩, hnodup, hmem⟩ := closure_ends ProcessRecord.pid ProcessRecord.ppid
    request.table.records request.matched_nodup
  have htargets : ∀ pid, pid ∈ selected.filter (fun pid => !request.excluded.elem pid) ↔
      request.Target pid := by
    intro pid
    rw [List.mem_filter, hmem]
    simp [Target, Descendant]
  refine ⟨_, hnodup.filter _, htargets, n, fun fuel hfuel => ?_⟩
  have hselected : descendants request.table fuel request.matched = some selected := hn fuel hfuel
  rw [targetOrder, hselected, ← selectedParent_eq htargets]
  rfl

theorem later_trans (a b c : Nat × Nat) (hab : later a b = true) (hbc : later b c = true) :
    later a c = true := by
  simp only [later, Bool.or_eq_true, Bool.and_eq_true, decide_eq_true_eq, beq_iff_eq] at *
  omega

theorem later_total (a b : Nat × Nat) : (later a b || later b a) = true := by
  simp only [later, Bool.or_eq_true, Bool.and_eq_true, decide_eq_true_eq, beq_iff_eq]
  omega

/-- Of two elements of a sorted list the one that is not after the other comes first. -/
theorem sublist_of_pairwise {α : Type} {R : α → α → Prop} {l : List α} (h : l.Pairwise R) {a b : α}
    (ha : a ∈ l) (hb : b ∈ l) (hne : a ≠ b) (hnot : ¬ R b a) : [a, b].Sublist l := by
  induction l with
  | nil => cases ha
  | cons x l ih =>
    rw [List.pairwise_cons] at h
    rcases List.mem_cons.mp ha with rfl | hal
    · have hbl := (List.mem_cons.mp hb).resolve_left (Ne.symm hne)
      exact List.cons_sublist_cons.mpr (List.singleton_sublist.mpr hbl)
    · rcases List.mem_cons.mp hb with rfl | hbl
      · exact absurd (h.1 a hal) hnot
      · exact (ih h.2 hal hbl).trans (List.sublist_cons_self x l)

/-- **Without a cycle among the targets the order is computed**, with every child before its
parent. -/
theorem targetOrder_ends (h : ∀ pid, request.Target pid → ¬ Cyclic request.targetParent pid) :
    ∃ ordered, Ends request.targetOrder ordered ∧ ordered.Nodup ∧
      (∀ pid, pid ∈ ordered ↔ request.Target pid) ∧ ∀ record ∈ request.table.records,
        record.pid ∈ ordered → record.ppid ∈ ordered →
          [record.pid, record.ppid].Sublist ordered := by
  obtain ⟨targets, hnodup, htargets, n, horder⟩ := exists_targets request
  have hclosed : ∀ pid ∈ targets, ∀ ppid, request.targetParent pid = some ppid → ppid ∈ targets :=
    fun pid _ ppid hp => (htargets ppid).mpr (targetParent_some hp).2
  have hdepth : ∀ pid, ∃ d, pid ∈ targets → Depth request.targetParent pid d := by
    intro pid
    by_cases hpid : pid ∈ targets
    · obtain ⟨d, hd⟩ := exists_depth hclosed (fun a ha => h a ((htargets a).mp ha)) hpid
      exact ⟨d, fun _ => hd⟩
    · exact ⟨0, fun hin => absurd hin hpid⟩
  choose depthOf hdepthOf using hdepth
  have hkeyed : Ends (fun fuel => targets.mapM fun pid =>
      (climb request.targetParent fuel pid).map fun d => (d, pid))
      (targets.map fun pid => (depthOf pid, pid)) :=
    Ends.mapM fun pid hpid => (climb_of_depth (hdepthOf pid hpid)).map fun d => (d, pid)
  obtain ⟨m, hm⟩ := hkeyed.map fun keyed => (keyed.mergeSort later).map Prod.snd
  have hmem : ∀ pid, pid ∈ ((targets.map fun pid => (depthOf pid, pid)).mergeSort later).map
      Prod.snd ↔ pid ∈ targets := by
    intro pid
    simp only [List.mem_map, List.mem_mergeSort]
    constructor
    · rintro ⟨_, ⟨pid', hpid', rfl⟩, rfl⟩
      exact hpid'
    · exact fun hpid => ⟨_, ⟨pid, hpid, rfl⟩, rfl⟩
  refine ⟨_, ⟨max n m, fun fuel hfuel => ?_⟩, ?_, fun pid => (hmem pid).trans (htargets pid), ?_⟩
  · rw [horder fuel (by omega)]
    exact hm fuel (by omega)
  · refine ((List.mergeSort_perm _ later).map Prod.snd).nodup_iff.mpr ?_
    rw [List.map_map]
    exact (List.map_id targets).symm ▸ hnodup
  · intro record hrecord hpid hppid
    rw [hmem] at hpid hppid
    have hpointer := targetParent_eq hrecord ((htargets _).mp hppid)
    obtain ⟨d, hd, hparent⟩ := (depth_succ hpointer).mp (hdepthOf _ hpid)
    have hsucc : depthOf record.pid = depthOf record.ppid + 1 := by
      rw [hd, hparent.unique (hdepthOf _ hppid)]
    have hin : ∀ {pid}, pid ∈ targets → (depthOf pid, pid) ∈
        (targets.map fun pid => (depthOf pid, pid)).mergeSort later := fun hpid =>
      List.mem_mergeSort.mpr (List.mem_map_of_mem hpid)
    refine (sublist_of_pairwise (List.pairwise_mergeSort later_trans later_total _) (hin hpid)
      (hin hppid) ?_ ?_).map Prod.snd
    · intro he
      have := congrArg Prod.fst he
      simp only [] at this
      omega
    · simp only [later, Bool.or_eq_true, Bool.and_eq_true, decide_eq_true_eq, beq_iff_eq]
      omega

theorem not_cyclic_of_ends {ordered : List Nat} (h : Ends request.targetOrder ordered) {pid : Nat}
    (hpid : request.Target pid) : ¬ Cyclic request.targetParent pid := by
  obtain ⟨targets, -, htargets, n, horder⟩ := exists_targets request
  obtain ⟨m, hm⟩ := h
  have hsome := hm (max n m) (by omega)
  rw [horder (max n m) (by omega)] at hsome
  obtain ⟨keyed, hkeyed, -⟩ := Option.map_eq_some_iff.mp hsome
  obtain ⟨_, hitem⟩ := exists_of_mapM hkeyed pid ((htargets pid).mpr hpid)
  obtain ⟨d, hd, -⟩ := Option.map_eq_some_iff.mp hitem
  exact fun hcyclic => not_depth_of_cyclic hcyclic (depth_of_climb hd)

theorem connected_iff (request : Request) : (∀ pid, request.Target pid → request.Connected pid) ↔
    ∀ record ∈ request.table.records, record.pid ∉ request.excluded →
      record.ppid ∈ request.excluded → request.Descendant record.ppid →
        record.pid ∈ request.matched := by
  constructor
  · intro h record hrecord hpid hppid hdescendant
    have hconnected := h record.pid ⟨.child hrecord hdescendant, hpid⟩
    generalize hsame : record.pid = pid at hconnected
    cases hconnected with
    | matched hmatched => exact hmatched
    | @child record' hrecord' _ hparent =>
      rw [eq_of_keyed request.table.keyed hrecord hrecord' hsame] at hppid
      exact absurd hppid hparent.unexcluded
  · rintro h pid ⟨hdescendant, hpid⟩
    induction hdescendant with
    | root hmatched => exact .matched hmatched
    | @child record hrecord hdescendant ih =>
      by_cases hppid : record.ppid ∈ request.excluded
      · exact .matched (h record hrecord hpid hppid hdescendant)
      · exact .child hrecord hpid (ih hppid)

/-- **The order of a stop is computed, and stays with what is connected to a matched process, iff no
target is its own ancestor among the targets and nothing hangs below an excluded process.** -/
theorem targets_scoped_iff (request : Request) :
    (∃ ordered, Ends request.targetOrder ordered ∧ request.Scoped ordered) ↔
      (∀ pid, request.Target pid → ¬ Cyclic request.targetParent pid) ∧
        ∀ record ∈ request.table.records, record.pid ∉ request.excluded →
          record.ppid ∈ request.excluded → request.Descendant record.ppid →
            record.pid ∈ request.matched := by
  rw [← connected_iff]
  constructor
  · rintro ⟨ordered, hends, hscoped⟩
    exact ⟨fun pid hpid => not_cyclic_of_ends hends hpid,
      fun pid hpid => hscoped.connected pid ((hscoped.targets pid).mpr hpid)⟩
  · rintro ⟨hacyclic, hconnected⟩
    obtain ⟨ordered, hends, honce, htargets, hfirst⟩ := targetOrder_ends hacyclic
    exact ⟨ordered, hends, honce, htargets, fun _ => hfirst,
      fun pid hpid => ((htargets pid).mp hpid).2,
      fun pid hpid => hconnected pid ((htargets pid).mp hpid)⟩

end Request

/-! ## Two snapshots -/

/-- A launcher, as `stop code` finds it. -/
def launcher (pid ppid : Nat) : ProcessRecord := ⟨pid, ppid, ["python", "dev.py", "sync", "code"]⟩

def snapshot (records : List ProcessRecord) (keyed : Keyed ProcessRecord.pid records)
    (getpid : Nat) : Request where
  paths := ⟨fun argument => if argument = "dev.py" then some ["cortex_harness", "dev.py"] else none,
    id⟩
  owner := .code
  table := ⟨records, keyed⟩
  getpid := getpid
  excludePids := []
  includeLaunchers := true

/-- Two pids that were used again, each as the other's parent. -/
def crossedSnapshot : Request := snapshot [launcher 101 102, ⟨102, 101, ["python"]⟩]
  (by unfold Keyed; decide) 7

/-- The stop itself runs below the launcher, and has started a process of its own. -/
def nestedSnapshot : Request :=
  snapshot [launcher 101 1, ⟨102, 101, ["python"]⟩, ⟨103, 102, ["git"]⟩]
    (by unfold Keyed; decide) 102

theorem mem_matched (request : Request) (record : ProcessRecord)
    (h : record ∈ request.table.records)
    (hmatch : (!request.excluded.elem record.pid &&
      (request.includeLaunchers && isDevSync request.paths request.owner record.argv ||
        isWorker request.paths request.owner record.argv)) = true) :
    record.pid ∈ request.matched :=
  List.mem_map_of_mem (List.mem_mergeSort.mpr (List.mem_filter.mpr ⟨h, hmatch⟩))

/-- Crossed pids are climbed for ever, and what hangs below the stop is a target. -/
theorem snapshots_not_scoped :
    (¬ ∃ ordered, Ends crossedSnapshot.targetOrder ordered ∧ crossedSnapshot.Scoped ordered) ∧
      ¬ ∃ ordered, Ends nestedSnapshot.targetOrder ordered ∧ nestedSnapshot.Scoped ordered := by
  constructor
  · rintro ⟨ordered, hends, -⟩
    have hmatched : 101 ∈ crossedSnapshot.matched :=
      mem_matched crossedSnapshot (launcher 101 102) (by decide) (by decide)
    have hfirst : crossedSnapshot.Target 101 := ⟨.root hmatched, by decide⟩
    have hsecond : crossedSnapshot.Target 102 :=
      ⟨Request.descendant_child ⟨102, 101, ["python"]⟩ (by decide) hfirst.1, by decide⟩
    have hup : crossedSnapshot.targetParent 101 = some 102 :=
      @Request.targetParent_eq crossedSnapshot (launcher 101 102) (by decide) hsecond
    have hback : crossedSnapshot.targetParent 102 = some 101 :=
      @Request.targetParent_eq crossedSnapshot ⟨102, 101, ["python"]⟩ (by decide) hfirst
    refine Request.not_cyclic_of_ends hends hfirst ⟨2, by decide, ?_⟩
    rw [steps, hup]
    show steps crossedSnapshot.targetParent 1 102 = some 101
    rw [steps, hback]
    rfl
  · rintro ⟨ordered, -, hscoped⟩
    have hmatched : 101 ∈ nestedSnapshot.matched :=
      mem_matched nestedSnapshot (launcher 101 1) (by decide) (by decide)
    have hself : nestedSnapshot.Descendant 102 :=
      Request.descendant_child ⟨102, 101, ["python"]⟩ (by decide) (.root hmatched)
    have hbelow := (Request.connected_iff nestedSnapshot).mp
      (fun pid hpid => hscoped.connected pid ((hscoped.targets pid).mpr hpid))
      ⟨103, 102, ["git"]⟩ (by decide) (by decide) (by decide) hself
    obtain ⟨record, hrecord, hpid⟩ := List.mem_map.mp hbelow
    have hmatch := (List.mem_filter.mp (List.mem_mergeSort.mp hrecord))
    have hnone : ∀ record ∈ nestedSnapshot.table.records, record.pid = 103 →
        isDevSync nestedSnapshot.paths nestedSnapshot.owner record.argv = false ∧
          isWorker nestedSnapshot.paths nestedSnapshot.owner record.argv = false := by
      decide
    obtain ⟨hdev, hworker⟩ := hnone record hmatch.1 hpid
    have hor := (Bool.and_eq_true _ _ ▸ hmatch.2).2
    rw [hdev, hworker] at hor
    cases hor

end CortexHarness.Sync.Processes
