import CortexHarness.Library.Run
import CortexHarness.Library.Total

/-!
# Bounded admission to a lane

Model of `BoundedLane` (`admission.py:29-150`). A call of `run` is a task that runs from one
suspension to the next; everything in between is one step, as the event loop performs it. The
suspension points are the waits of `run`: on the semaphore, on the operation, and on the state lock
whenever another task holds it. A cancellation is delivered at whichever of them the task is at.

`asyncio.Lock` and `asyncio.Semaphore` are modelled by what they promise: a free lock is taken
without a suspension, and a waiter gets a permit only when one is there. A deadline can elapse at
any time. The clock readings of the queue-wait statistics are left out.

Results:
* `step_accounts`: every step keeps the counters in step with the tasks, and no task is ever
  suspended on the lock;
* `bounded_lane_accounting`: what the counters and the idle event say in every state.
-/

namespace CortexHarness.Storage

open Total

/-! ## The lane -/

/-- `LaneLimits`, with what `__post_init__` checks. -/
structure LaneLimits where
  concurrency : Nat := 1
  maxQueueItems : Nat := 32
  maxQueueBytes : Nat := 4 * 1024 * 1024
  concurrency_pos : 1 ≤ concurrency

/-- Where a call of `run` is suspended, or that it has ended. -/
inductive Point where
  /-- the lock before the admission check -/
  | lockAdmission
  /-- the semaphore -/
  | waiting
  /-- the lock before the elapsed deadline is counted -/
  | lockTimedOut
  /-- the lock between the semaphore and the operation -/
  | lockStart
  /-- the operation -/
  | running
  /-- the lock before a completion is counted -/
  | lockCompleted
  /-- the lock before a cancellation is counted -/
  | lockCancelled
  /-- the lock in the `finally` block of a call that has the semaphore -/
  | lockExitActive
  /-- the lock in the `finally` block of a call that does not -/
  | lockExitQueued
  | ended
  deriving Repr, DecidableEq

/-- One call of `run`. -/
structure Task where
  estimatedBytes : Int
  point : Point
  deriving Repr, DecidableEq

/-- `BoundedLane`, with its semaphore and its lock. -/
structure BoundedLane where
  permits : Nat
  locked : Bool := false
  queuedItems : Int := 0
  queuedBytes : Int := 0
  active : Int := 0
  accepted : Nat := 0
  completed : Nat := 0
  rejected : Nat := 0
  timedOut : Nat := 0
  cancelled : Nat := 0
  idle : Bool := true
  tasks : List Task := []
  deriving Repr

/-- `__init__`. -/
def BoundedLane.init (limits : LaneLimits) : BoundedLane := { permits := limits.concurrency }

namespace BoundedLane

/-- The task `n` is suspended at `point`, or has ended. -/
def goto (s : BoundedLane) (n : Nat) (point : Point) : BoundedLane :=
  match s.tasks[n]? with
  | some t => { s with tasks := s.tasks.set n { t with point } }
  | none => s

/-- `async with self._lock: body`, then go on with `next`: a task that finds the lock held is
suspended at `point`. -/
def withLock (s : BoundedLane) (n : Nat) (point : Point) (body : BoundedLane → BoundedLane)
    (next : BoundedLane → BoundedLane) : BoundedLane :=
  if s.locked then s.goto n point
  else
    let s := body { s with locked := true }
    next { s with locked := false }

variable (limits : LaneLimits)

/-- `if not self._active and not self._queued_items: self._idle.set()`. -/
def setIdle (s : BoundedLane) : BoundedLane :=
  if s.active = 0 ∧ s.queuedItems = 0 then { s with idle := true } else s

/-- The `finally` block with the semaphore. -/
def exitActive (s : BoundedLane) (n : Nat) : BoundedLane :=
  s.withLock n .lockExitActive (fun s => { s with active := s.active - 1 }.setIdle)
    fun s => { s with permits := s.permits + 1 }.goto n .ended

/-- The `finally` block without the semaphore. -/
def exitQueued (s : BoundedLane) (n : Nat) (estimatedBytes : Int) : BoundedLane :=
  s.withLock n .lockExitQueued
    (fun s => { s with
      queuedItems := s.queuedItems - 1
      queuedBytes := s.queuedBytes - estimatedBytes }.setIdle)
    fun s => s.goto n .ended

/-- `except TimeoutError`. -/
def timeOut (s : BoundedLane) (n : Nat) (estimatedBytes : Int) : BoundedLane :=
  s.withLock n .lockTimedOut (fun s => { s with timedOut := s.timedOut + 1 })
    fun s => s.exitQueued n estimatedBytes

/-- The semaphore is acquired: from the queue to the operation. -/
def start (s : BoundedLane) (n : Nat) (estimatedBytes : Int) : BoundedLane :=
  s.withLock n .lockStart
    (fun s => { s with
      queuedItems := s.queuedItems - 1
      queuedBytes := s.queuedBytes - estimatedBytes
      active := s.active + 1 })
    fun s => s.goto n .running

/-- The operation has returned. -/
def complete (s : BoundedLane) (n : Nat) : BoundedLane :=
  s.withLock n .lockCompleted (fun s => { s with completed := s.completed + 1 }) fun s =>
    s.exitActive n

/-- The operation was cancelled. -/
def cancelRunning (s : BoundedLane) (n : Nat) : BoundedLane :=
  s.withLock n .lockCancelled (fun s => { s with cancelled := s.cancelled + 1 }) fun s =>
    s.exitActive n

/-- The queue has no room for the call. -/
def full (s : BoundedLane) (estimatedBytes : Int) : Bool :=
  decide (s.queuedItems ≥ limits.maxQueueItems ∨
    s.queuedBytes + estimatedBytes > limits.maxQueueBytes)

/-- The admission check; a refused call raises `OVERLOADED` and ends. -/
def admission (s : BoundedLane) (n : Nat) (estimatedBytes : Int) : BoundedLane :=
  s.withLock n .lockAdmission
    (fun s =>
      if s.full limits estimatedBytes then
        { s with rejected := s.rejected + 1 }.goto n .ended
      else
        { s with
          queuedItems := s.queuedItems + 1
          queuedBytes := s.queuedBytes + estimatedBytes
          accepted := s.accepted + 1
          idle := false }.goto n .waiting)
    id

/-! ## Steps -/

/-- What the event loop does next. -/
inductive Event where
  /-- `run` is called -/
  | call (estimatedBytes : Int)
  /-- the semaphore lets the task in -/
  | grant (n : Nat)
  /-- the deadline of a waiting task elapses -/
  | elapse (n : Nat)
  /-- the operation of the task returns -/
  | finish (n : Nat)
  /-- the operation of the task raises -/
  | fail (n : Nat)
  /-- the task is cancelled -/
  | cancel (n : Nat)
  /-- the lock lets the task in -/
  | lock (n : Nat)
  deriving Repr

/-- A cancellation at the point where the task is suspended. One that reaches a `finally` block at
its lock leaves the block. -/
def cancel (s : BoundedLane) (n : Nat) (t : Task) : BoundedLane :=
  match t.point with
  | .lockAdmission => s.goto n .ended
  | .waiting => s.exitQueued n t.estimatedBytes
  | .lockTimedOut => s.exitQueued n t.estimatedBytes
  | .lockStart => s.exitActive n
  | .running => s.cancelRunning n
  | .lockCompleted => s.exitActive n
  | .lockCancelled => s.exitActive n
  | .lockExitActive => s.goto n .ended
  | .lockExitQueued => s.goto n .ended
  | .ended => s

/-- The lock is free again and the task goes on. -/
def resume (s : BoundedLane) (n : Nat) (t : Task) : BoundedLane :=
  match t.point with
  | .lockAdmission => s.admission limits n t.estimatedBytes
  | .lockTimedOut => s.timeOut n t.estimatedBytes
  | .lockStart => s.start n t.estimatedBytes
  | .lockCompleted => s.complete n
  | .lockCancelled => s.cancelRunning n
  | .lockExitActive => s.exitActive n
  | .lockExitQueued => s.exitQueued n t.estimatedBytes
  | _ => s

/-- One step of the event loop; an event that cannot happen changes nothing. -/
def step (s : BoundedLane) : Event → BoundedLane
  | .call estimatedBytes =>
    -- a negative estimate raises `ValueError` before anything else
    if estimatedBytes < 0 then s
    else { s with tasks := s.tasks ++ [Task.mk estimatedBytes .lockAdmission] }.admission limits
      s.tasks.length estimatedBytes
  | .grant n =>
    match s.tasks[n]? with
    | some t =>
      if t.point = .waiting ∧ 0 < s.permits then
        { s with permits := s.permits - 1 }.start n t.estimatedBytes
      else s
    | none => s
  | .elapse n =>
    match s.tasks[n]? with
    | some t => if t.point = .waiting then s.timeOut n t.estimatedBytes else s
    | none => s
  | .finish n =>
    match s.tasks[n]? with
    | some t => if t.point = .running then s.complete n else s
    | none => s
  | .fail n =>
    match s.tasks[n]? with
    | some t => if t.point = .running then s.exitActive n else s
    | none => s
  | .cancel n =>
    match s.tasks[n]? with
    | some t => s.cancel n t
    | none => s
  | .lock n =>
    match s.tasks[n]? with
    | some t => if s.locked then s else s.resume limits n t
    | none => s

/-! ## The accounts -/

end BoundedLane

/-- What a task adds to `active`: its operation executes. -/
def Task.executing (t : Task) : Int := if t.point = .running then 1 else 0

/-- What a task adds to `queued_items`: it waits for the semaphore. -/
def Task.waits (t : Task) : Int := if t.point = .waiting then 1 else 0

/-- What a task adds to `queued_bytes`. -/
def Task.waitingBytes (t : Task) : Int := if t.point = .waiting then t.estimatedBytes else 0

theorem Task.waits_nonneg (t : Task) : 0 ≤ t.waits := by
  unfold Task.waits
  split <;> omega

theorem Task.executing_nonneg (t : Task) : 0 ≤ t.executing := by
  unfold Task.executing
  split <;> omega

namespace BoundedLane

variable {limits : LaneLimits} {s : BoundedLane} {n : Nat} {t : Task}

/-- The counters are in step with the tasks. -/
structure Accounts (limits : LaneLimits) (s : BoundedLane) : Prop where
  unlocked : s.locked = false
  /-- no task is suspended on the lock -/
  points : ∀ t ∈ s.tasks, t.point = .waiting ∨ t.point = .running ∨ t.point = .ended
  estimates : ∀ t ∈ s.tasks, 0 ≤ t.estimatedBytes
  permits : s.permits + s.active = limits.concurrency
  active : s.active = total Task.executing s.tasks
  queuedItems : s.queuedItems = total Task.waits s.tasks
  queuedBytes : s.queuedBytes = total Task.waitingBytes s.tasks
  items_le : s.queuedItems ≤ limits.maxQueueItems
  bytes_le : s.queuedBytes ≤ limits.maxQueueBytes
  idle_iff : s.idle = true ↔ s.active = 0 ∧ s.queuedItems = 0

theorem accounts_init (limits : LaneLimits) : Accounts limits (.init limits) where
  unlocked := rfl
  points t ht := absurd ht List.not_mem_nil
  estimates t ht := absurd ht List.not_mem_nil
  permits := by simp [init]
  active := rfl
  queuedItems := rfl
  queuedBytes := rfl
  items_le := Int.natCast_nonneg _
  bytes_le := Int.natCast_nonneg _
  idle_iff := by simp [init]

theorem goto_eq (h : s.tasks[n]? = some t) (point : Point) :
    s.goto n point = { s with tasks := s.tasks.set n { t with point } } := by
  unfold goto
  rw [h]

/-- A free lock is taken and given back in the same step. -/
theorem withLock_free (h : s.locked = false) (point : Point)
    (body next : BoundedLane → BoundedLane) :
    s.withLock n point body next =
      next { body { s with locked := true } with locked := false } := by
  unfold withLock
  rw [h]
  rfl

@[simp] theorem setIdle_locked (s : BoundedLane) : s.setIdle.locked = s.locked := by
  unfold setIdle
  split <;> rfl

@[simp] theorem setIdle_tasks (s : BoundedLane) : s.setIdle.tasks = s.tasks := by
  unfold setIdle
  split <;> rfl

@[simp] theorem setIdle_counters (s : BoundedLane) :
    s.setIdle.permits = s.permits ∧ s.setIdle.active = s.active ∧
      s.setIdle.queuedItems = s.queuedItems ∧ s.setIdle.queuedBytes = s.queuedBytes := by
  unfold setIdle
  split <;> exact ⟨rfl, rfl, rfl, rfl⟩

theorem setIdle_idle (s : BoundedLane) :
    s.setIdle.idle = true ↔ s.idle = true ∨ s.active = 0 ∧ s.queuedItems = 0 := by
  unfold setIdle
  split
  · rename_i h
    simp [h]
  · rename_i h
    simp [h]

/-- One task moves from `t` to `t'`, and the counters move with it. -/
theorem Accounts.update (h : Accounts limits s) (ht : s.tasks[n]? = some t) {s' : BoundedLane}
    {point : Point} (hp : point = .waiting ∨ point = .running ∨ point = .ended)
    (htasks : s'.tasks = s.tasks.set n { t with point }) (hlock : s'.locked = false)
    (hpermits : s'.permits + s'.active = limits.concurrency)
    (hactive : s'.active = s.active - t.executing + { t with point : Task }.executing)
    (hitems : s'.queuedItems = s.queuedItems - t.waits + { t with point : Task }.waits)
    (hbytes : s'.queuedBytes =
      s.queuedBytes - t.waitingBytes + { t with point : Task }.waitingBytes)
    (hitemsLe : s'.queuedItems ≤ limits.maxQueueItems)
    (hbytesLe : s'.queuedBytes ≤ limits.maxQueueBytes)
    (hidle : s'.idle = true ↔ s'.active = 0 ∧ s'.queuedItems = 0) : Accounts limits s' where
  unlocked := hlock
  points u hu := by
    rw [htasks] at hu
    rcases List.mem_or_eq_of_mem_set hu with hu | rfl
    · exact h.points u hu
    · exact hp
  estimates u hu := by
    rw [htasks] at hu
    rcases List.mem_or_eq_of_mem_set hu with hu | rfl
    · exact h.estimates u hu
    · exact h.estimates t (List.mem_of_getElem? ht)
  permits := hpermits
  active := by rw [hactive, htasks, total_set ht, h.active]
  queuedItems := by rw [hitems, htasks, total_set ht, h.queuedItems]
  queuedBytes := by rw [hbytes, htasks, total_set ht, h.queuedBytes]
  items_le := hitemsLe
  bytes_le := hbytesLe
  idle_iff := hidle

/-- A waiting task keeps the lane from being idle. -/
theorem Accounts.queued_pos (h : Accounts limits s) (ht : s.tasks[n]? = some t)
    (hw : t.point = .waiting) : 1 ≤ s.queuedItems := by
  have hle := le_total (fun u _ => Task.waits_nonneg u) (List.mem_of_getElem? ht)
  rw [h.queuedItems]
  simpa [Task.waits, hw] using hle

/-- So does one that executes. -/
theorem Accounts.active_pos (h : Accounts limits s) (ht : s.tasks[n]? = some t)
    (hr : t.point = .running) : 1 ≤ s.active := by
  have hle := le_total (fun u _ => Task.executing_nonneg u) (List.mem_of_getElem? ht)
  rw [h.active]
  simpa [Task.executing, hr] using hle

/-- A call that leaves the queue. -/
theorem exitQueued_accounts (h : Accounts limits s) (ht : s.tasks[n]? = some t)
    (hw : t.point = .waiting) : Accounts limits (s.exitQueued n t.estimatedBytes) := by
  have hbytes := h.estimates t (List.mem_of_getElem? ht)
  have hitems := h.items_le
  have hle := h.bytes_le
  have hpos := h.queued_pos ht hw
  unfold exitQueued
  rw [withLock_free h.unlocked, goto_eq (t := t) (by simpa using ht)]
  refine h.update ht (.inr (.inr rfl)) (by simp) rfl ?_ ?_ ?_ ?_ ?_ ?_ ?_
  · simpa using h.permits
  · simp [Task.executing, hw]
  · simp [Task.waits, hw]
  · simp [Task.waitingBytes, hw]
  · simp only [setIdle_counters]
    omega
  · simp only [setIdle_counters]
    omega
  · have hbusy : ¬ s.idle = true := fun hi => by
      have := (h.idle_iff.mp hi).2
      omega
    simp only [setIdle_idle, setIdle_counters, hbusy, Bool.false_eq_true, false_or]

/-- A call that leaves the operation. -/
theorem exitActive_accounts (h : Accounts limits s) (ht : s.tasks[n]? = some t)
    (hr : t.point = .running) : Accounts limits (s.exitActive n) := by
  have hpermits := h.permits
  have hpos := h.active_pos ht hr
  unfold exitActive
  rw [withLock_free h.unlocked, goto_eq (t := t) (by simpa using ht)]
  refine h.update ht (.inr (.inr rfl)) (by simp) rfl ?_ ?_ ?_ ?_ ?_ ?_ ?_
  · simp only [setIdle_counters]
    push_cast
    omega
  · simp [Task.executing, hr]
  · simp [Task.waits, hr]
  · simp [Task.waitingBytes, hr]
  · simpa using h.items_le
  · simpa using h.bytes_le
  · have hbusy : ¬ s.idle = true := fun hi => by
      have := (h.idle_iff.mp hi).1
      omega
    simp only [setIdle_idle, setIdle_counters, hbusy, Bool.false_eq_true, false_or]

/-- A call that gets a permit. -/
theorem start_accounts (h : Accounts limits s) (ht : s.tasks[n]? = some t)
    (hw : t.point = .waiting) (hfree : 0 < s.permits) :
    Accounts limits ({ s with permits := s.permits - 1 }.start n t.estimatedBytes) := by
  have hbytes := h.estimates t (List.mem_of_getElem? ht)
  have hitems := h.items_le
  have hle := h.bytes_le
  have hpermits := h.permits
  have hpos := h.queued_pos ht hw
  have hactive : 0 ≤ s.active := by
    rw [h.active]
    exact total_nonneg fun u _ => u.executing_nonneg
  unfold start
  rw [withLock_free (by exact h.unlocked), goto_eq (t := t) (by exact ht)]
  refine h.update ht (.inr (.inl rfl)) rfl rfl ?_ ?_ ?_ ?_ ?_ ?_ ?_
  · dsimp only
    omega
  · simp [Task.executing, hw]
  · simp [Task.waits, hw]
  · simp [Task.waitingBytes, hw]
  · dsimp only
    omega
  · dsimp only
    omega
  · have hbusy : ¬ s.idle = true := fun hi => by
      have := (h.idle_iff.mp hi).2
      omega
    dsimp only
    refine ⟨fun hi => absurd hi hbusy, fun hz => ?_⟩
    omega

theorem timeOut_accounts (h : Accounts limits s) (ht : s.tasks[n]? = some t)
    (hw : t.point = .waiting) : Accounts limits (s.timeOut n t.estimatedBytes) := by
  unfold timeOut
  rw [withLock_free h.unlocked]
  have hs : Accounts limits { s with locked := false, timedOut := s.timedOut + 1 } :=
    { h with unlocked := rfl }
  exact exitQueued_accounts hs ht hw

theorem complete_accounts (h : Accounts limits s) (ht : s.tasks[n]? = some t)
    (hr : t.point = .running) : Accounts limits (s.complete n) := by
  unfold complete
  rw [withLock_free h.unlocked]
  have hs : Accounts limits { s with locked := false, completed := s.completed + 1 } :=
    { h with unlocked := rfl }
  exact exitActive_accounts hs ht hr

theorem cancelRunning_accounts (h : Accounts limits s) (ht : s.tasks[n]? = some t)
    (hr : t.point = .running) : Accounts limits (s.cancelRunning n) := by
  unfold cancelRunning
  rw [withLock_free h.unlocked]
  have hs : Accounts limits { s with locked := false, cancelled := s.cancelled + 1 } :=
    { h with unlocked := rfl }
  exact exitActive_accounts hs ht hr

theorem Accounts.insert (h : Accounts limits s) {s' : BoundedLane} {t : Task}
    (hp : t.point = .waiting ∨ t.point = .running ∨ t.point = .ended)
    (hest : 0 ≤ t.estimatedBytes) (htasks : s'.tasks = s.tasks ++ [t])
    (hlock : s'.locked = false) (hpermits : s'.permits + s'.active = limits.concurrency)
    (hactive : s'.active = s.active + t.executing) (hitems : s'.queuedItems = s.queuedItems + t.waits)
    (hbytes : s'.queuedBytes = s.queuedBytes + t.waitingBytes)
    (hitemsLe : s'.queuedItems ≤ limits.maxQueueItems)
    (hbytesLe : s'.queuedBytes ≤ limits.maxQueueBytes)
    (hidle : s'.idle = true ↔ s'.active = 0 ∧ s'.queuedItems = 0) : Accounts limits s' where
  unlocked := hlock
  points u hu := by
    rw [htasks] at hu
    rcases List.mem_append.mp hu with hu | hu
    · exact h.points u hu
    · rw [List.mem_singleton.mp hu]
      exact hp
  estimates u hu := by
    rw [htasks] at hu
    rcases List.mem_append.mp hu with hu | hu
    · exact h.estimates u hu
    · rw [List.mem_singleton.mp hu]
      exact hest
  permits := hpermits
  active := by rw [hactive, htasks, total_append_singleton, h.active]
  queuedItems := by rw [hitems, htasks, total_append_singleton, h.queuedItems]
  queuedBytes := by rw [hbytes, htasks, total_append_singleton, h.queuedBytes]
  items_le := hitemsLe
  bytes_le := hbytesLe
  idle_iff := hidle

theorem call_accounts (h : Accounts limits s) (estimatedBytes : Int) :
    Accounts limits (s.step limits (.call estimatedBytes)) := by
  simp only [step]
  split
  · exact h
  · rename_i hneg
    have hlast : (s.tasks ++ [(⟨estimatedBytes, .lockAdmission⟩ : Task)])[s.tasks.length]? =
        some ⟨estimatedBytes, .lockAdmission⟩ := by simp
    have hitems := h.items_le
    have hle := h.bytes_le
    unfold admission
    rw [withLock_free (by exact h.unlocked)]
    dsimp only [id]
    split
    · rw [goto_eq hlast]
      refine h.insert (t := ⟨estimatedBytes, .ended⟩) (.inr (.inr rfl)) (by dsimp only; omega)
        (by simp) rfl h.permits ?_ ?_ ?_ hitems hle h.idle_iff
      · simp [Task.executing]
      · simp [Task.waits]
      · simp [Task.waitingBytes]
    · rename_i hfull
      have hroom : s.queuedItems < limits.maxQueueItems ∧
          s.queuedBytes + estimatedBytes ≤ limits.maxQueueBytes := by
        simp only [full, decide_eq_true_eq, not_or] at hfull
        omega
      have hnn : 0 ≤ s.queuedItems := by
        rw [h.queuedItems]
        exact total_nonneg fun u _ => u.waits_nonneg
      rw [goto_eq hlast]
      refine h.insert (t := ⟨estimatedBytes, .waiting⟩) (.inl rfl) (by dsimp only; omega)
        (by simp) rfl h.permits ?_ ?_ ?_ ?_ ?_ ?_
      · simp [Task.executing]
      · simp [Task.waits]
      · simp [Task.waitingBytes]
      · dsimp only
        omega
      · dsimp only
        omega
      · dsimp only
        simp only [Bool.false_eq_true, false_iff, not_and]
        intro _
        omega

/-- **Every step keeps the accounts.** -/
theorem step_accounts (h : Accounts limits s) (e : Event) : Accounts limits (s.step limits e) := by
  cases e with
  | call estimatedBytes => exact call_accounts h estimatedBytes
  | grant n =>
    simp only [step]
    split
    · rename_i t ht
      split
      · rename_i hc
        exact start_accounts h ht hc.1 hc.2
      · exact h
    · exact h
  | elapse n =>
    simp only [step]
    split
    · rename_i t ht
      split
      · rename_i hw
        exact timeOut_accounts h ht hw
      · exact h
    · exact h
  | finish n =>
    simp only [step]
    split
    · rename_i t ht
      split
      · rename_i hr
        exact complete_accounts h ht hr
      · exact h
    · exact h
  | fail n =>
    simp only [step]
    split
    · rename_i t ht
      split
      · rename_i hr
        exact exitActive_accounts h ht hr
      · exact h
    · exact h
  | cancel n =>
    simp only [step]
    split
    · rename_i t ht
      unfold cancel
      rcases h.points t (List.mem_of_getElem? ht) with hp | hp | hp
      · rw [hp]
        exact exitQueued_accounts h ht hp
      · rw [hp]
        exact cancelRunning_accounts h ht hp
      · rw [hp]
        exact h
    · exact h
  | lock n =>
    simp only [step]
    split
    · rename_i t ht
      split
      · exact h
      · unfold resume
        rcases h.points t (List.mem_of_getElem? ht) with hp | hp | hp
        · rw [hp]
          exact h
        · rw [hp]
          exact h
        · rw [hp]
          exact h
    · exact h

end BoundedLane

theorem total_executing (l : List Task) :
    total Task.executing l = l.countP fun t => t.point = .running := by
  rw [← total_indicator]
  simp only [decide_eq_true_eq]
  rfl

theorem total_waits (l : List Task) : total Task.waits l = l.countP fun t => t.point = .waiting := by
  rw [← total_indicator]
  simp only [decide_eq_true_eq]
  rfl

theorem total_waitingBytes (l : List Task) : total Task.waitingBytes l =
    ((l.filter fun t => t.point = .waiting).map Task.estimatedBytes).sum := by
  rw [← total_filter]
  simp only [decide_eq_true_eq]
  rfl

/-- What the counters and the idle event of a lane say. -/
structure LaneAccounting (limits : LaneLimits) (s : BoundedLane) : Prop where
  active : s.active = s.tasks.countP fun t => t.point = .running
  active_le : s.active ≤ limits.concurrency
  queuedItems : s.queuedItems = s.tasks.countP fun t => t.point = .waiting
  items_le : s.queuedItems ≤ limits.maxQueueItems
  queuedBytes : s.queuedBytes =
    ((s.tasks.filter fun t => t.point = .waiting).map Task.estimatedBytes).sum
  bytes_le : s.queuedBytes ≤ limits.maxQueueBytes
  nonneg : 0 ≤ s.active ∧ 0 ≤ s.queuedItems ∧ 0 ≤ s.queuedBytes
  idle : s.idle = true ↔ s.active = 0 ∧ s.queuedItems = 0

/-- **Bounded lane accounting**: whatever the calls, the grants, the deadlines, the cancellations and
the failures, and in whatever order. -/
theorem bounded_lane_accounting (limits : LaneLimits) (events : List BoundedLane.Event) :
    LaneAccounting limits (Run.run (BoundedLane.step limits) (.init limits) events) := by
  have h : (Run.run (BoundedLane.step limits) (.init limits) events).Accounts limits :=
    Run.run_invariant (I := BoundedLane.Accounts limits) (A := fun _ => True)
      (fun _ e _ h => BoundedLane.step_accounts h e) (BoundedLane.accounts_init limits) events
      fun _ _ => trivial
  generalize Run.run (BoundedLane.step limits) (.init limits) events = s at h
  have hactive : 0 ≤ s.active := by
    rw [h.active]
    exact total_nonneg fun t _ => t.executing_nonneg
  have hitems : 0 ≤ s.queuedItems := by
    rw [h.queuedItems]
    exact total_nonneg fun t _ => t.waits_nonneg
  have hbytes : 0 ≤ s.queuedBytes := by
    rw [h.queuedBytes]
    refine total_nonneg fun t ht => ?_
    unfold Task.waitingBytes
    split
    · exact h.estimates t ht
    · omega
  have hpermits := h.permits
  exact
    { active := h.active.trans (total_executing _)
      active_le := by omega
      queuedItems := h.queuedItems.trans (total_waits _)
      items_le := h.items_le
      queuedBytes := h.queuedBytes.trans (total_waitingBytes _)
      bytes_le := h.bytes_le
      nonneg := ⟨hactive, hitems, hbytes⟩
      idle := h.idle_iff }

/-- One call executes and one waits. -/
example : (Run.run (BoundedLane.step { concurrency_pos := le_rfl })
    (.init { concurrency_pos := le_rfl }) [.call 3, .grant 0, .call 5, .grant 1]).tasks =
      [⟨3, .running⟩, ⟨5, .waiting⟩] := by decide

end CortexHarness.Storage
