import Mathlib.Data.List.Basic

/-!
# Properties of the events of a history

A history is the list of its events, the newest first. `AlwaysAt P log` says that every event of it
stood in the relation `P` to the events before it, at the time it happened.

Result: `alwaysAt_cons`, `alwaysAt_append`: one more event, or several, need a proof for themselves.
-/

namespace CortexHarness.Trace

variable {ε : Type} {P : ε → List ε → Prop} {log : List ε}

/-- Every event of a history satisfies `P` with what came before it. -/
def AlwaysAt (P : ε → List ε → Prop) (log : List ε) : Prop :=
  ∀ newer event past, log = newer ++ event :: past → P event past

theorem alwaysAt_nil : AlwaysAt P [] := by
  intro newer event past h
  exact absurd h (by simp)

theorem alwaysAt_cons {event : ε} :
    AlwaysAt P (event :: log) ↔ P event log ∧ AlwaysAt P log := by
  constructor
  · intro h
    refine ⟨h [] event log rfl, fun newer event' past hlog => ?_⟩
    exact h (event :: newer) event' past (by rw [hlog, List.cons_append])
  · rintro ⟨hevent, hlog⟩ newer event' past hsplit
    rcases List.cons_eq_append_iff.mp hsplit with ⟨-, hnow⟩ | ⟨newer', -, hpast⟩
    · obtain ⟨rfl, rfl⟩ := List.cons.inj hnow
      exact hevent
    · exact hlog newer' event' past hpast

/-- Events that satisfy `P` with every history that ends in the one before them. -/
theorem alwaysAt_append {events : List ε}
    (h : ∀ event ∈ events, ∀ between, P event (between ++ log)) (hlog : AlwaysAt P log) :
    AlwaysAt P (events ++ log) := by
  induction events with
  | nil => exact hlog
  | cons event events ih =>
    rw [List.cons_append, alwaysAt_cons]
    exact ⟨h event List.mem_cons_self events,
      ih fun event' hevent => h event' (List.mem_cons_of_mem _ hevent)⟩

end CortexHarness.Trace
