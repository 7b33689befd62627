import Mathlib.Data.List.Induction

/-!
# Loops that stop at the first refusal

`run step s items` handles the items one after the other and stops at the first one that `step`
refuses; it answers with the state and the items that are left.

Results: **`run_iff`**: what is handled and what is left is determined by where a step is refused;
`foldlM_invariant` is the rule for what was handled.
-/

namespace CortexHarness.Stopping

variable {σ α : Type} {step : σ → α → Option σ}

/-- Handle the items until one is refused. -/
def run (step : σ → α → Option σ) : σ → List α → σ × List α
  | s, [] => (s, [])
  | s, a :: rest =>
    match step s a with
    | none => (s, a :: rest)
    | some s' => run step s' rest

/-- **The items are handled up to the first refusal.** -/
theorem run_iff {s s' : σ} {items rest : List α} : run step s items = (s', rest) ↔
    ∃ done, items = done ++ rest ∧ done.foldlM step s = some s' ∧
      ∀ a tail, rest = a :: tail → step s' a = none := by
  induction items generalizing s with
  | nil =>
    constructor
    · intro h
      cases h
      exact ⟨[], rfl, rfl, fun a tail h => by cases h⟩
    · rintro ⟨done, hitems, hdone, -⟩
      obtain ⟨rfl, rfl⟩ := List.append_eq_nil_iff.mp hitems.symm
      cases hdone
      rfl
  | cons a items ih =>
    unfold run
    cases hstep : step s a with
    | none =>
      constructor
      · intro h
        cases h
        refine ⟨[], rfl, rfl, fun b tail hb => ?_⟩
        cases hb
        exact hstep
      · rintro ⟨done, hitems, hdone, hstop⟩
        cases done with
        | nil =>
          cases hdone
          rw [hitems]
          rfl
        | cons b done =>
          obtain ⟨rfl, rfl⟩ := List.cons.inj hitems
          rw [List.foldlM_cons, hstep] at hdone
          cases hdone
    | some t =>
      rw [ih]
      constructor
      · rintro ⟨done, rfl, hdone, hstop⟩
        refine ⟨a :: done, rfl, ?_, hstop⟩
        rw [List.foldlM_cons, hstep]
        exact hdone
      · rintro ⟨done, hitems, hdone, hstop⟩
        cases done with
        | nil =>
          cases hdone
          rw [hstop a items hitems.symm] at hstep
          cases hstep
        | cons b done =>
          obtain ⟨rfl, rfl⟩ := List.cons.inj hitems
          rw [List.foldlM_cons, hstep] at hdone
          exact ⟨done, rfl, hdone, hstop⟩

/-- What each handled item keeps, with the items handled so far. -/
theorem foldlM_invariant {I : List α → σ → Prop} {s : σ} (h0 : I [] s) {items : List α}
    (hstep : ∀ pre a post t t', items = pre ++ a :: post → I pre t → step t a = some t' →
      I (pre ++ [a]) t') {s' : σ} (h : items.foldlM step s = some s') : I items s' := by
  induction items using List.reverseRecOn generalizing s' with
  | nil =>
    cases h
    exact h0
  | append_singleton items a ih =>
    rw [List.foldlM_append] at h
    obtain ⟨t, ht, h⟩ := Option.bind_eq_some_iff.mp h
    have hlast : step t a = some s' := by simpa using h
    refine hstep items a [] t s' rfl (ih (fun pre b post u u' hitems => ?_) ht) hlast
    exact hstep pre b (post ++ [a]) u u' (by rw [hitems]; simp)

end CortexHarness.Stopping
