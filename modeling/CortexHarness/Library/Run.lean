import Mathlib.Data.List.Basic
import Mathlib.Logic.Relation

/-!
# Runs of a deterministic step function

`run step s ops` performs the operations `ops` one after the other. What one step preserves, a run
preserves (`run_invariant`); what only grows is known from the steps (`run_iff`); what becomes true along a run becomes true at one of its steps
(`exists_crossing`), which is how "between these two points there was …" is proved.
-/

namespace CortexHarness.Run

variable {σ ω : Type} (step : σ → ω → σ)

/-- Perform `ops` in order. -/
def run (s : σ) (ops : List ω) : σ := ops.foldl step s

@[simp] theorem run_nil (s : σ) : run step s [] = s := rfl

@[simp] theorem run_cons (s : σ) (op : ω) (ops : List ω) :
    run step s (op :: ops) = run step (step s op) ops := rfl

theorem run_append (s : σ) (ops ops' : List ω) :
    run step s (ops ++ ops') = run step (run step s ops) ops' := List.foldl_append ..

theorem run_snoc (s : σ) (ops : List ω) (op : ω) :
    run step s (ops ++ [op]) = step (run step s ops) op := by
  rw [run_append]
  rfl

variable {step}

/-- What every allowed step preserves, a run of allowed steps preserves. -/
theorem run_invariant {I : σ → Prop} {A : ω → Prop}
    (hstep : ∀ s op, A op → I s → I (step s op)) {s : σ} (hs : I s) (ops : List ω)
    (hops : ∀ op ∈ ops, A op) : I (run step s ops) := by
  induction ops generalizing s with
  | nil => exact hs
  | cons op ops ih =>
    refine ih (hstep s op (hops op List.mem_cons_self) hs) fun o ho => ?_
    exact hops o (List.mem_cons_of_mem _ ho)

/-- What some steps make true, and none makes false, is true after a run that has such a step. -/
theorem run_iff {P : σ → Prop} {makes : ω → Prop}
    (hstep : ∀ s op, P (step s op) ↔ P s ∨ makes op) (s : σ) (ops : List ω) :
    P (run step s ops) ↔ P s ∨ ∃ op ∈ ops, makes op := by
  induction ops generalizing s with
  | nil => simp
  | cons op ops ih =>
    rw [run_cons, ih, hstep, List.exists_mem_cons_iff, or_assoc]

/-- What is false before a run and true after it becomes true at one of its steps, for the first
time. -/
theorem exists_crossing {P : σ → Prop} {s : σ} (hs : ¬ P s) (ops : List ω)
    (hP : P (run step s ops)) :
    ∃ pre op post, ops = pre ++ op :: post ∧ (∀ p, p <+: pre → ¬ P (run step s p)) ∧
      P (run step s (pre ++ [op])) := by
  classical
  induction ops generalizing s with
  | nil => exact absurd hP hs
  | cons op ops ih =>
    by_cases h : P (step s op)
    · refine ⟨[], op, ops, rfl, fun p hp => ?_, h⟩
      rw [List.prefix_nil.mp hp]
      exact hs
    · obtain ⟨pre, o, post, rfl, h1, h2⟩ := ih h hP
      refine ⟨op :: pre, o, post, rfl, fun p hp => ?_, h2⟩
      cases p with
      | nil => exact hs
      | cons x p =>
        obtain ⟨rfl, hp'⟩ := List.cons_prefix_cons.mp hp
        exact h1 p hp'

end CortexHarness.Run
