import CortexHarness.Library.Trace
import Mathlib.Data.List.Induction
import Mathlib.Algebra.GroupWithZero.Nat

/-!
# The semantic lane

Model of `BoundedSemanticScheduler` in `code-tiny/tools/cplus/semantic_context.py`: a queue with an
item and a byte budget, cancellation by identity, a loop that drains the queue through a handler, and
a circuit breaker.

Results:

* `history_budgeted`: no history exceeds the budgets of the queue;
* `lane_sound`: what a history of safe turns promises of every task, and of the circuit.

Model notes:

* `Scheduler` has the fields of the source, and one the source does not have: `log`, what happened,
  the newest event first. A queued task carries a ticket, the number of tasks admitted before it,
  which tells two submissions of one identity apart; the source compares no tickets.
* A handler answers by `Outcome`; `raised` is a `CircuitOpenError`, or an exception that is no
  `Exception`, and it leaves `drain`. Latencies and the registered context of a task, which the
  scheduler never reads, are left out. Budgets and sizes are natural numbers.
-/

namespace CortexHarness.Semantic

open Trace

/-! ## The scheduler -/

/-- The limits of a lane that admission reads (`SemanticLaneLimits`). -/
structure SemanticLaneLimits where
  maxQueueItems : Nat
  maxQueueBytes : Nat

/-- A unit of semantic work. -/
structure SemanticTask where
  identity : String
  payloadBytes : Nat
  deriving DecidableEq

/-- An admitted task. -/
structure Entry where
  ticket : Nat
  task : SemanticTask
  deriving DecidableEq

/-- What a handler does with a task. -/
inductive Outcome where
  | yielded
  | empty
  | failed
  | raised
  deriving DecidableEq

/-- What happens to the lane. -/
inductive Event where
  | submitted (e : Entry)
  | cancelIssued (identity : String)
  | removed (e : Entry)
  | dropped (e : Entry)
  | invoked (e : Entry)
  | ended (e : Entry) (outcome : Outcome)
  | opened
  | reset
  deriving DecidableEq

structure SchedulerMetrics where
  admitted : Nat
  rejectedOverloaded : Nat
  completed : Nat
  failed : Nat
  cancelled : Nat
  nonYieldStreak : Nat
  circuitOpen : Bool
  queuedItems : Nat
  queuedBytes : Nat
  deriving DecidableEq

structure Scheduler where
  queue : List Entry
  queueBytes : Nat
  cancelled : List String
  metrics : SchedulerMetrics
  log : List Event
  deriving DecidableEq

/-- `__init__` -/
def Scheduler.init : Scheduler where
  queue := []
  queueBytes := 0
  cancelled := []
  metrics := {
    admitted := 0, rejectedOverloaded := 0, completed := 0, failed := 0, cancelled := 0
    nonYieldStreak := 0, circuitOpen := false, queuedItems := 0, queuedBytes := 0 }
  log := []

/-- `MAX_NON_YIELD_STREAK` -/
def maxNonYieldStreak : Nat := 20

/-- The exceptions of `submit`. -/
inductive SubmitError where
  /-- `CircuitOpenError` -/
  | circuitOpen
  /-- `OverloadedError` -/
  | overloaded
  deriving DecidableEq

namespace Scheduler

variable (limits : SemanticLaneLimits) (s : Scheduler)

/-- The queue, and the counters and metrics that follow it. -/
def withQueue (queue : List Entry) (queueBytes : Nat) : Scheduler :=
  { s with
    queue
    queueBytes
    metrics := { s.metrics with queuedItems := queue.length, queuedBytes := queueBytes } }

/-- `submit` -/
def submit (task : SemanticTask) : Scheduler × Option SubmitError :=
  if s.metrics.circuitOpen then (s, some .circuitOpen)
  else if limits.maxQueueItems ≤ s.queue.length ||
      limits.maxQueueBytes < s.queueBytes + task.payloadBytes then
    ({ s with metrics := { s.metrics with
        rejectedOverloaded := s.metrics.rejectedOverloaded + 1 } }, some .overloaded)
  else
    let e : Entry := { ticket := s.metrics.admitted, task }
    let admitted := { s with
      metrics := { s.metrics with admitted := s.metrics.admitted + 1 }
      log := .submitted e :: s.log }
    (admitted.withQueue (s.queue ++ [e]) (s.queueBytes + task.payloadBytes), none)

/-- `cancel` -/
def cancel (identity : String) : Scheduler :=
  let remaining := s.queue.filter fun e => e.task.identity ≠ identity
  let removed := s.queue.filter fun e => e.task.identity = identity
  let marked := { s with
    cancelled := s.cancelled.insert identity
    metrics := { s.metrics with cancelled := s.metrics.cancelled + removed.length }
    log := removed.map Event.removed ++ Event.cancelIssued identity :: s.log }
  marked.withQueue remaining (s.queueBytes - (removed.map fun e => e.task.payloadBytes).sum)

/-- `_check_circuit` -/
def checkCircuit : Scheduler :=
  if maxNonYieldStreak ≤ s.metrics.nonYieldStreak then
    { s with metrics := { s.metrics with circuitOpen := true }, log := .opened :: s.log }
  else s

/-- A handler that raised, or that yielded nothing. -/
def recordNonYield (e : Entry) (outcome : Outcome) (metrics : SchedulerMetrics) : Scheduler :=
  { s with
    metrics := { metrics with nonYieldStreak := metrics.nonYieldStreak + 1 }
    log := .ended e outcome :: s.log }.checkCircuit

/-- One turn of the loop of `drain`, at a task that is the first of the queue: the lane after it, and
whether the loop goes on. -/
def turn (handler : Entry → Outcome) (e : Entry) (rest : List Entry) : Scheduler × Bool :=
  let popped := s.withQueue rest (s.queueBytes - e.task.payloadBytes)
  if popped.cancelled.contains e.task.identity then
    ({ popped with
      metrics := { popped.metrics with cancelled := popped.metrics.cancelled + 1 }
      log := .dropped e :: popped.log }, true)
  else
    let called := { popped with log := .invoked e :: popped.log }
    match handler e with
    | .raised => (called, false)
    | .failed =>
      (called.recordNonYield e .failed
        { called.metrics with failed := called.metrics.failed + 1 }, true)
    | .yielded =>
      ({ called with
        cancelled := called.cancelled.erase e.task.identity
        metrics := { called.metrics with
          completed := called.metrics.completed + 1, nonYieldStreak := 0 }
        log := .ended e .yielded :: called.log }, true)
    | .empty =>
      ({ called with cancelled := called.cancelled.erase e.task.identity }.recordNonYield e .empty
        called.metrics, true)

/-- The loop of `drain`, over the tasks that are queued. -/
def drainLoop (handler : Entry → Outcome) : List Entry → Scheduler → Scheduler
  | [], s => s
  | e :: rest, s =>
    let next := s.turn handler e rest
    if next.2 then drainLoop handler rest next.1 else next.1

/-- `drain` -/
def drain (handler : Entry → Outcome) : Scheduler := drainLoop handler s.queue s

/-- `reset_circuit` -/
def resetCircuit : Scheduler :=
  { s with
    metrics := { s.metrics with circuitOpen := false, nonYieldStreak := 0 }
    log := .reset :: s.log }

end Scheduler

/-! ## Histories -/

/-- A call of the lane's owner. -/
inductive Call where
  | submit (task : SemanticTask)
  | cancel (identity : String)
  | drain (handler : Entry → Outcome)
  | resetCircuit

/-- The lane after a call, whatever the call raises. -/
def Scheduler.call (limits : SemanticLaneLimits) (s : Scheduler) : Call → Scheduler
  | .submit task => (s.submit limits task).1
  | .cancel identity => s.cancel identity
  | .drain handler => s.drain handler
  | .resetCircuit => s.resetCircuit

/-- The lane after a sequence of calls. -/
def history (limits : SemanticLaneLimits) (calls : List Call) : Scheduler :=
  calls.foldl (Scheduler.call limits) Scheduler.init

theorem history_append_singleton (limits : SemanticLaneLimits) (calls : List Call)
    (call : Call) :
    history limits (calls ++ [call]) = (history limits calls).call limits call :=
  List.foldl_append

/-! ## What the lane promises -/

/-- The tasks of an event that ends one. -/
def Event.ends (ticket : Nat) : Event → Bool
  | .removed e => e.ticket = ticket
  | .dropped e => e.ticket = ticket
  | .ended e _ => e.ticket = ticket
  | _ => false

def Event.invokes (ticket : Nat) : Event → Bool
  | .invoked e => e.ticket = ticket
  | _ => false

/-- A cancel for the task's identity was issued after the task was submitted. -/
def CancelledSince (e : Entry) (past : List Event) : Prop :=
  ∃ between older, past = between ++ .submitted e :: older ∧
    .cancelIssued e.task.identity ∈ between

/-- The circuit opened and was not reset since. -/
def openSince : List Event → Bool
  | [] => false
  | .opened :: _ => true
  | .reset :: _ => false
  | _ :: past => openSince past

/-- A task is dropped as cancelled only after a cancel of its own, and no handler is invoked on an
open circuit. -/
def EventSound : Event → List Event → Prop
  | .removed e, past => CancelledSince e past
  | .dropped e, past => CancelledSince e past
  | .invoked _, past => openSince past = false
  | _, _ => True

/-- **What the lane promises of every state.** -/
structure LaneSound (limits : SemanticLaneLimits) (s : Scheduler) : Prop where
  items : s.queue.length ≤ limits.maxQueueItems
  bytes : s.queueBytes ≤ limits.maxQueueBytes
  counter : s.queueBytes = (s.queue.map fun e => e.task.payloadBytes).sum
  once : ∀ ticket, s.log.countP (Event.invokes ticket) ≤ 1
  accounted : ∀ e, .submitted e ∈ s.log →
    s.log.countP (Event.ends e.ticket) + s.queue.countP (·.ticket = e.ticket) = 1
  ordered : AlwaysAt EventSound s.log

/-! ## The condition -/

/-- A turn of `drain` is safe: the circuit is closed, the identity is not remembered as cancelled,
and the handler's exception, if any, is one that `drain` counts. -/
def TurnCovered (s : Scheduler) (handler : Entry → Outcome) (e : Entry) : Prop :=
  s.metrics.circuitOpen = false ∧ e.task.identity ∉ s.cancelled ∧ handler e ≠ .raised

/-- Every turn of a loop is safe when it is taken. -/
def LoopCovered (handler : Entry → Outcome) : List Entry → Scheduler → Prop
  | [], _ => True
  | e :: rest, s => TurnCovered s handler e ∧ LoopCovered handler rest (s.turn handler e rest).1

/-- The calls whose every turn is safe. -/
def CallCovered (s : Scheduler) : Call → Prop
  | .drain handler => LoopCovered handler s.queue s
  | _ => True

/-- Histories of such calls. -/
def HistoryCovered (limits : SemanticLaneLimits) (calls : List Call) : Prop :=
  ∀ pre call post, calls = pre ++ call :: post → CallCovered (history limits pre) call

/-! ## The budgets -/

section Budgets

variable {limits : SemanticLaneLimits} {s : Scheduler}

/-- The queue keeps its budgets and its byte counter. -/
structure Budgeted (limits : SemanticLaneLimits) (s : Scheduler) : Prop where
  items : s.queue.length ≤ limits.maxQueueItems
  bytes : s.queueBytes ≤ limits.maxQueueBytes
  counter : s.queueBytes = (s.queue.map fun e => e.task.payloadBytes).sum

theorem sum_payload_filter (identity : String) (queue : List Entry) :
    ((queue.filter fun e => e.task.identity = identity).map fun e => e.task.payloadBytes).sum +
      ((queue.filter fun e => e.task.identity ≠ identity).map fun e => e.task.payloadBytes).sum =
      (queue.map fun e => e.task.payloadBytes).sum := by
  have hperm := (List.filter_append_perm (fun e : Entry => e.task.identity = identity) queue).map
    fun e => e.task.payloadBytes
  simpa using hperm.sum_nat

theorem submit_budgeted (task : SemanticTask) (h : Budgeted limits s) :
    Budgeted limits (s.submit limits task).1 := by
  unfold Scheduler.submit
  split
  · exact h
  · split
    · exact ⟨h.items, h.bytes, h.counter⟩
    · rename_i hroom
      simp only [Bool.or_eq_true, decide_eq_true_eq, not_or, Nat.not_le, Nat.not_lt] at hroom
      constructor
      case items => simpa [Scheduler.withQueue] using Nat.succ_le_of_lt hroom.1
      case bytes => exact hroom.2
      case counter => simp [Scheduler.withQueue, h.counter]

theorem cancel_budgeted (identity : String) (h : Budgeted limits s) :
    Budgeted limits (s.cancel identity) := by
  have hsum := sum_payload_filter identity s.queue
  have hcounter := h.counter
  refine ⟨?_, ?_, ?_⟩
  · exact Nat.le_trans (List.length_filter_le _ s.queue) h.items
  · exact Nat.le_trans (Nat.sub_le _ _) h.bytes
  · simp only [Scheduler.cancel, Scheduler.withQueue]
    omega

@[simp] theorem checkCircuit_queue : s.checkCircuit.queue = s.queue := by
  unfold Scheduler.checkCircuit
  split <;> rfl

@[simp] theorem checkCircuit_queueBytes : s.checkCircuit.queueBytes = s.queueBytes := by
  unfold Scheduler.checkCircuit
  split <;> rfl

theorem turn_queue (handler : Entry → Outcome) (e : Entry) (rest : List Entry) :
    (s.turn handler e rest).1.queue = rest ∧
      (s.turn handler e rest).1.queueBytes = s.queueBytes - e.task.payloadBytes := by
  by_cases hdropped : e.task.identity ∈ s.cancelled
  · simp [Scheduler.turn, Scheduler.withQueue, hdropped]
  · cases hanswer : handler e <;>
      simp [Scheduler.turn, Scheduler.withQueue, hdropped, hanswer, Scheduler.recordNonYield]

theorem turn_budgeted (handler : Entry → Outcome) {e : Entry} {rest : List Entry}
    (hqueue : s.queue = e :: rest) (h : Budgeted limits s) :
    Budgeted limits (s.turn handler e rest).1 := by
  obtain ⟨hrest, hbytes⟩ := turn_queue (s := s) handler e rest
  have hitems := h.items
  have hcounter := h.counter
  simp only [hqueue, List.length_cons, List.map_cons, List.sum_cons] at hitems hcounter
  refine ⟨?_, ?_, ?_⟩
  · rw [hrest]
    omega
  · rw [hbytes]
    exact Nat.le_trans (Nat.sub_le _ _) h.bytes
  · rw [hbytes, hrest]
    omega

theorem drainLoop_keeps {P : Scheduler → Prop} (handler : Entry → Outcome)
    (hturn : ∀ s e rest, s.queue = e :: rest → P s → P (s.turn handler e rest).1)
    (queue : List Entry) (s : Scheduler) (hqueue : s.queue = queue) (h : P s) :
    P (Scheduler.drainLoop handler queue s) := by
  induction queue generalizing s with
  | nil => exact h
  | cons e rest ih =>
    have hnext := hturn s e rest hqueue h
    simp only [Scheduler.drainLoop]
    split
    · exact ih _ (turn_queue handler e rest).1 hnext
    · exact hnext

theorem call_budgeted (call : Call) (h : Budgeted limits s) :
    Budgeted limits (s.call limits call) := by
  cases call with
  | submit task => exact submit_budgeted task h
  | cancel identity => exact cancel_budgeted identity h
  | drain handler =>
    exact drainLoop_keeps handler (fun s e rest => turn_budgeted handler) s.queue s rfl h
  | resetCircuit => exact ⟨h.items, h.bytes, h.counter⟩

/-- **No history exceeds the budgets.** -/
theorem history_budgeted (limits : SemanticLaneLimits) (calls : List Call) :
    Budgeted limits (history limits calls) := by
  induction calls using List.reverseRecOn with
  | nil => exact ⟨Nat.zero_le _, Nat.zero_le _, rfl⟩
  | append_singleton calls call ih =>
    rw [history_append_singleton]
    exact call_budgeted call ih

end Budgets

/-! ## The fate of the tasks -/

section Fates

variable {limits : SemanticLaneLimits} {s s' : Scheduler}

/-- What the log says of the tasks, the cancels and the circuit. -/
structure Tracked (s : Scheduler) : Prop where
  fresh : ∀ e, .submitted e ∈ s.log → e.ticket < s.metrics.admitted
  known : ∀ e ∈ s.queue, .submitted e ∈ s.log
  unseen : ∀ ticket, s.metrics.admitted ≤ ticket →
    s.log.countP (Event.ends ticket) = 0 ∧ s.log.countP (Event.invokes ticket) = 0
  invocations : ∀ ticket,
    s.log.countP (Event.invokes ticket) + s.queue.countP (·.ticket = ticket) ≤ 1
  accounted : ∀ e, .submitted e ∈ s.log →
    s.log.countP (Event.ends e.ticket) + s.queue.countP (·.ticket = e.ticket) = 1
  ordered : AlwaysAt EventSound s.log
  circuit : s.metrics.circuitOpen = openSince s.log

theorem Tracked.countP_queue_eq_zero (h : Tracked s) {ticket : Nat}
    (hticket : s.metrics.admitted ≤ ticket) : s.queue.countP (·.ticket = ticket) = 0 := by
  rw [List.countP_eq_zero]
  intro e he
  have hlt := h.fresh e (h.known e he)
  simp only [decide_eq_true_eq]
  omega

theorem submit_tracked (task : SemanticTask) (h : Tracked s) :
    Tracked (s.submit limits task).1 := by
  unfold Scheduler.submit
  split
  · exact h
  · split
    · exact ⟨h.fresh, h.known, h.unseen, h.invocations, h.accounted, h.ordered, h.circuit⟩
    · have hends := h.unseen s.metrics.admitted (Nat.le_refl _)
      have hqueue := h.countP_queue_eq_zero (Nat.le_refl s.metrics.admitted)
      constructor
      case fresh =>
        intro e he
        rcases List.mem_cons.mp he with hnew | hold
        · cases hnew
          exact Nat.lt_succ_self _
        · exact Nat.lt_succ_of_lt (h.fresh e hold)
      case known =>
        intro e he
        rcases List.mem_append.mp he with hold | hnew
        · exact List.mem_cons_of_mem _ (h.known e hold)
        · rw [List.mem_singleton.mp hnew]
          exact List.mem_cons_self
      case unseen =>
        intro ticket hticket
        have hold := h.unseen ticket (Nat.le_of_succ_le hticket)
        simpa [Scheduler.withQueue, Event.ends, Event.invokes] using hold
      case invocations =>
        intro ticket
        have hold := h.invocations ticket
        by_cases hnew : s.metrics.admitted = ticket
        · subst hnew
          simp [Scheduler.withQueue, Event.invokes, hends.2, hqueue]
        · simpa [Scheduler.withQueue, Event.invokes, hnew] using hold
      case accounted =>
        intro e he
        rcases List.mem_cons.mp he with hnew | hold
        · cases hnew
          simp [Scheduler.withQueue, Event.ends, hends.1, hqueue]
        · have hne : s.metrics.admitted ≠ e.ticket := (Nat.ne_of_lt (h.fresh e hold)).symm
          have hone := h.accounted e hold
          simpa [Scheduler.withQueue, Event.ends, hne] using hone
      case ordered => exact alwaysAt_cons.mpr ⟨trivial, h.ordered⟩
      case circuit => exact h.circuit

theorem countP_filter_identity (identity : String) (ticket : Nat) (queue : List Entry) :
    (queue.filter fun e => e.task.identity = identity).countP (·.ticket = ticket) +
      (queue.filter fun e => e.task.identity ≠ identity).countP (·.ticket = ticket) =
      queue.countP (·.ticket = ticket) := by
  simpa using (List.countP_eq_countP_filter_add queue (fun e => decide (e.ticket = ticket))
    fun e => decide (e.task.identity = identity)).symm

theorem countP_ends_removed (removed : List Entry) (ticket : Nat) :
    (removed.map Event.removed).countP (Event.ends ticket) =
      removed.countP (·.ticket = ticket) := by
  rw [List.countP_map]
  rfl

theorem countP_invokes_removed (removed : List Entry) (ticket : Nat) :
    (removed.map Event.removed).countP (Event.invokes ticket) = 0 := by
  simp [Event.invokes]

theorem openSince_removed (removed : List Entry) (past : List Event) :
    openSince (removed.map Event.removed ++ past) = openSince past := by
  induction removed with
  | nil => rfl
  | cons e removed ih => exact ih

theorem cancel_tracked (identity : String) (h : Tracked s) : Tracked (s.cancel identity) := by
  have hsubmitted : ∀ e, Event.submitted e ∈ (s.cancel identity).log ↔ .submitted e ∈ s.log := by
    intro e
    simp [Scheduler.cancel, Scheduler.withQueue]
  have hends : ∀ ticket, (s.cancel identity).log.countP (Event.ends ticket) =
      (s.queue.filter fun e => e.task.identity = identity).countP (·.ticket = ticket) +
        s.log.countP (Event.ends ticket) := by
    intro ticket
    rw [← countP_ends_removed]
    simp [Scheduler.cancel, Scheduler.withQueue, Event.ends]
  have hinvokes : ∀ ticket, (s.cancel identity).log.countP (Event.invokes ticket) =
      s.log.countP (Event.invokes ticket) := by
    intro ticket
    simp only [Scheduler.cancel, Scheduler.withQueue, List.countP_append,
      countP_invokes_removed, Nat.zero_add]
    exact List.countP_cons_of_neg (by simp [Event.invokes])
  constructor
  case fresh => exact fun e he => h.fresh e ((hsubmitted e).mp he)
  case known =>
    intro e he
    exact (hsubmitted e).mpr (h.known e (List.mem_filter.mp he).1)
  case unseen =>
    intro ticket hticket
    have hsplit := countP_filter_identity identity ticket s.queue
    have hold := h.unseen ticket hticket
    have hqueue := h.countP_queue_eq_zero hticket
    rw [hends, hinvokes]
    exact ⟨by omega, hold.2⟩
  case invocations =>
    intro ticket
    have hsplit := countP_filter_identity identity ticket s.queue
    have hold := h.invocations ticket
    rw [hinvokes]
    simp only [Scheduler.cancel, Scheduler.withQueue]
    omega
  case accounted =>
    intro e he
    have hsplit := countP_filter_identity identity e.ticket s.queue
    have hold := h.accounted e ((hsubmitted e).mp he)
    rw [hends]
    simp only [Scheduler.cancel, Scheduler.withQueue]
    omega
  case ordered =>
    -- the removed tasks were queued, so their submissions are older than this cancel
    refine alwaysAt_append ?_ (alwaysAt_cons.mpr ⟨trivial, h.ordered⟩)
    intro event hevent between
    obtain ⟨e, he, rfl⟩ := List.mem_map.mp hevent
    rw [List.mem_filter] at he
    obtain ⟨newer, older, hlog⟩ := List.mem_iff_append.mp (h.known e he.1)
    refine ⟨between ++ .cancelIssued identity :: newer, older, ?_, ?_⟩
    · rw [hlog]
      simp
    · simpa using Or.inr (Or.inl (of_decide_eq_true he.2))
  case circuit =>
    have hopen : openSince (s.cancel identity).log = openSince s.log := openSince_removed _ _
    exact hopen ▸ h.circuit

theorem turn_log {handler : Entry → Outcome} {e : Entry} (h : TurnCovered s handler e)
    (rest : List Entry) :
    (s.turn handler e rest).2 = true ∧
      (s.turn handler e rest).1.metrics.admitted = s.metrics.admitted ∧
      ∃ outcome, outcome ≠ .raised ∧
        (((s.turn handler e rest).1.log = .ended e outcome :: .invoked e :: s.log ∧
            (s.turn handler e rest).1.metrics.circuitOpen = false) ∨
          ((s.turn handler e rest).1.log = .opened :: .ended e outcome :: .invoked e :: s.log ∧
            (s.turn handler e rest).1.metrics.circuitOpen = true)) := by
  obtain ⟨hclosed, hfree, hraised⟩ := h
  have hgoes : ¬ (s.withQueue rest (s.queueBytes - e.task.payloadBytes)).cancelled.contains
      e.task.identity = true := by
    simpa [Scheduler.withQueue] using hfree
  unfold Scheduler.turn
  rw [if_neg hgoes]
  cases hanswer : handler e with
  | raised => exact absurd hanswer hraised
  | yielded => exact ⟨rfl, rfl, .yielded, by decide, .inl ⟨rfl, hclosed⟩⟩
  | failed =>
    refine ⟨rfl, ?_⟩
    simp only [Scheduler.recordNonYield, Scheduler.checkCircuit]
    split
    · exact ⟨rfl, .failed, by decide, .inr ⟨rfl, rfl⟩⟩
    · exact ⟨rfl, .failed, by decide, .inl ⟨rfl, hclosed⟩⟩
  | empty =>
    refine ⟨rfl, ?_⟩
    simp only [Scheduler.recordNonYield, Scheduler.checkCircuit]
    split
    · exact ⟨rfl, .empty, by decide, .inr ⟨rfl, rfl⟩⟩
    · exact ⟨rfl, .empty, by decide, .inl ⟨rfl, hclosed⟩⟩

/-- A lane that took the first task off, invoked it and recorded its end. -/
theorem tracked_of_ended {e : Entry} {rest : List Entry} {outcome : Outcome}
    (h : Tracked s) (hqueue : s.queue = e :: rest) (hclosed : s.metrics.circuitOpen = false)
    (hrest : s'.queue = rest) (hadmitted : s'.metrics.admitted = s.metrics.admitted)
    (hlog : s'.log = .ended e outcome :: .invoked e :: s.log)
    (hstill : s'.metrics.circuitOpen = false) : Tracked s' := by
  have hknown : .submitted e ∈ s.log := h.known e (by simp [hqueue])
  have hsubmitted : ∀ e', .submitted e' ∈ s'.log ↔ .submitted e' ∈ s.log := by
    intro e'
    simp [hlog]
  have hends : ∀ ticket, s'.log.countP (Event.ends ticket) + s'.queue.countP (·.ticket = ticket) =
      s.log.countP (Event.ends ticket) + s.queue.countP (·.ticket = ticket) := by
    intro ticket
    simp only [hlog, hrest, hqueue, List.countP_cons, Event.ends]
    simp
    omega
  have hinvokes : ∀ ticket,
      s'.log.countP (Event.invokes ticket) + s'.queue.countP (·.ticket = ticket) =
        s.log.countP (Event.invokes ticket) + s.queue.countP (·.ticket = ticket) := by
    intro ticket
    simp only [hlog, hrest, hqueue, List.countP_cons, Event.invokes]
    simp
    omega
  have hordered : AlwaysAt EventSound s'.log := by
    rw [hlog]
    refine alwaysAt_cons.mpr ⟨trivial, alwaysAt_cons.mpr ⟨?_, h.ordered⟩⟩
    exact h.circuit.symm.trans hclosed
  constructor
  case fresh => exact fun e' he' => hadmitted ▸ h.fresh e' ((hsubmitted e').mp he')
  case known =>
    intro e' he'
    rw [hrest] at he'
    exact (hsubmitted e').mpr (h.known e' (by simp [hqueue, he']))
  case unseen =>
    intro ticket hticket
    rw [hadmitted] at hticket
    have hold := h.unseen ticket hticket
    have hnone := h.countP_queue_eq_zero hticket
    have hend := hends ticket
    have hinvoke := hinvokes ticket
    omega
  case invocations => exact fun ticket => hinvokes ticket ▸ h.invocations ticket
  case accounted => exact fun e' he' => hends e'.ticket ▸ h.accounted e' ((hsubmitted e').mp he')
  case ordered => exact hordered
  case circuit =>
    have hbefore := h.circuit
    rw [hstill, hlog]
    exact hclosed ▸ hbefore

theorem tracked_of_opened (h : Tracked s) (hqueue : s'.queue = s.queue)
    (hadmitted : s'.metrics.admitted = s.metrics.admitted) (hlog : s'.log = .opened :: s.log)
    (hopen : s'.metrics.circuitOpen = true) : Tracked s' := by
  constructor
  case fresh => simpa [hlog, hadmitted] using h.fresh
  case known => simpa [hlog, hqueue] using h.known
  case unseen => simpa [hlog, hadmitted, Event.ends, Event.invokes] using h.unseen
  case invocations => simpa [hlog, hqueue, Event.invokes] using h.invocations
  case accounted => simpa [hlog, hqueue, Event.ends] using h.accounted
  case ordered => exact hlog ▸ alwaysAt_cons.mpr ⟨trivial, h.ordered⟩
  case circuit => rw [hlog, hopen, openSince]

theorem turn_tracked {handler : Entry → Outcome} {e : Entry} {rest : List Entry}
    (hqueue : s.queue = e :: rest) (hcovered : TurnCovered s handler e) (h : Tracked s) :
    Tracked (s.turn handler e rest).1 := by
  have hrest := (turn_queue (s := s) handler e rest).1
  obtain ⟨-, hadmitted, outcome, -, ⟨hlog, hopen⟩ | ⟨hlog, hopen⟩⟩ := turn_log hcovered rest
  · exact tracked_of_ended h hqueue hcovered.1 hrest hadmitted hlog hopen
  · let ended : Scheduler := { s with
      queue := rest
      log := .ended e outcome :: .invoked e :: s.log }
    have hended : Tracked ended :=
      tracked_of_ended h hqueue hcovered.1 rfl rfl rfl hcovered.1
    exact tracked_of_opened hended hrest hadmitted hlog hopen

theorem drainLoop_tracked (handler : Entry → Outcome) (queue : List Entry) (s : Scheduler)
    (hqueue : s.queue = queue) (hcovered : LoopCovered handler queue s) (h : Tracked s) :
    Tracked (Scheduler.drainLoop handler queue s) := by
  induction queue generalizing s with
  | nil => exact h
  | cons e rest ih =>
    obtain ⟨hnow, hlater⟩ := hcovered
    rw [Scheduler.drainLoop, if_pos (turn_log hnow rest).1]
    exact ih _ (turn_queue handler e rest).1 hlater (turn_tracked hqueue hnow h)

theorem resetCircuit_tracked (h : Tracked s) : Tracked s.resetCircuit := by
  constructor
  case fresh => simpa [Scheduler.resetCircuit] using h.fresh
  case known => simpa [Scheduler.resetCircuit] using h.known
  case unseen => simpa [Scheduler.resetCircuit, Event.ends, Event.invokes] using h.unseen
  case invocations => simpa [Scheduler.resetCircuit, Event.invokes] using h.invocations
  case accounted => simpa [Scheduler.resetCircuit, Event.ends] using h.accounted
  case ordered => exact alwaysAt_cons.mpr ⟨trivial, h.ordered⟩
  case circuit => rfl

theorem init_tracked : Tracked Scheduler.init := by
  constructor
  case fresh => simp [Scheduler.init]
  case known => simp [Scheduler.init]
  case unseen => simp [Scheduler.init]
  case invocations => simp [Scheduler.init]
  case accounted => simp [Scheduler.init]
  case ordered => exact alwaysAt_nil
  case circuit => rfl

theorem call_tracked {call : Call} (hcovered : CallCovered s call) (h : Tracked s) :
    Tracked (s.call limits call) := by
  cases call with
  | submit task => exact submit_tracked task h
  | cancel identity => exact cancel_tracked identity h
  | drain handler => exact drainLoop_tracked handler s.queue s rfl hcovered h
  | resetCircuit => exact resetCircuit_tracked h

theorem history_tracked {calls : List Call} (h : HistoryCovered limits calls) :
    Tracked (history limits calls) := by
  induction calls using List.reverseRecOn with
  | nil => exact init_tracked
  | append_singleton calls call ih =>
    rw [history_append_singleton]
    refine call_tracked (h calls call [] rfl) (ih fun pre call' post hcalls => ?_)
    exact h pre call' (post ++ [call]) (by simp [hcalls])

/-- **A lane whose drain turns are all taken on a closed circuit, at identities it does not remember
as cancelled and with handlers whose exceptions it counts, keeps its promises.** -/
theorem lane_sound {calls : List Call} (h : HistoryCovered limits calls) :
    LaneSound limits (history limits calls) := by
  have hbudget := history_budgeted limits calls
  have htracked := history_tracked h
  exact {
    items := hbudget.items
    bytes := hbudget.bytes
    counter := hbudget.counter
    once := fun ticket => Nat.le_trans (Nat.le_add_right _ _) (htracked.invocations ticket)
    accounted := htracked.accounted
    ordered := htracked.ordered }

end Fates

/-! ## Samples -/

def sampleLimits : SemanticLaneLimits := { maxQueueItems := 8, maxQueueBytes := 1000 }

def sampleTask : SemanticTask := { identity := "src/main.cpp", payloadBytes := 10 }

/-- Sample: a task whose identity was cancelled before it was submitted. -/
def resubmittedCalls : List Call :=
  [.cancel "src/main.cpp", .submit sampleTask, .drain fun _ => .yielded]

/-- A cancel that found nothing to remove drops the task that is submitted after it. -/
theorem later_task_dropped : ¬ LaneSound sampleLimits (history sampleLimits resubmittedCalls) := by
  intro h
  have hlog : (history sampleLimits resubmittedCalls).log =
      [.dropped ⟨0, sampleTask⟩, .submitted ⟨0, sampleTask⟩, .cancelIssued "src/main.cpp"] := by
    decide
  obtain ⟨between, older, hpast, hcancel⟩ := h.ordered [] _ _ hlog
  cases between with
  | nil => exact absurd hcancel (by simp)
  | cons event between =>
    obtain ⟨-, hrest⟩ := List.cons.inj hpast
    cases between with
    | nil => simp at hrest
    | cons event' between => simp at hrest

theorem yielded_task_sound :
    HistoryCovered sampleLimits [.submit sampleTask, .drain fun _ => .yielded] ∧
      LaneSound sampleLimits
        (history sampleLimits [.submit sampleTask, .drain fun _ => .yielded]) := by
  have hcovered : HistoryCovered sampleLimits [.submit sampleTask, .drain fun _ => .yielded] := by
    intro pre call post hcalls
    match pre, hcalls with
    | [], hcalls =>
      obtain ⟨rfl, -⟩ := List.cons.inj hcalls
      trivial
    | [_], hcalls =>
      obtain ⟨rfl, hlater⟩ := List.cons.inj hcalls
      obtain ⟨rfl, -⟩ := List.cons.inj hlater
      exact ⟨⟨rfl, by decide, by decide⟩, trivial⟩
    | _ :: _ :: pre, hcalls => simp at hcalls
  exact ⟨hcovered, lane_sound hcovered⟩

end CortexHarness.Semantic
