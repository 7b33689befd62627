import CortexHarness.Library.Clients

/-!
# Executions of one client

A client runs among others, so every command it performs finds a state that the others may have
changed; all that is known of it is the invariant. `Executes` relates a program to the commands it
performed and to what it returned or raised.

Results: `Executes.bind_inv`, `Executes.attempt_inv`: an execution of a composed program is made of
executions of its parts; `Executes.only`; `executes_execute`: running a program alone, on a state
whose invariant the commands keep, is one of its executions.
-/

namespace CortexHarness.Clients

variable {σ ι γ ε α β : Type} {ρ : γ → Type}

/-- A command that was performed: the state it found, and its input. -/
structure Performed (σ ι γ : Type) where
  state : σ
  input : ι
  command : γ

/-- The program performs the commands of the log and ends in the outcome. -/
inductive Executes (exec : σ → ι → (c : γ) → ρ c × σ) (inv : σ → Prop) :
    Prog γ ρ ε α → List (Performed σ ι γ) → Except ε α → Prop
  | ret (a : α) : Executes exec inv (.ret a) [] (.ok a)
  | raise (e : ε) : Executes exec inv (.raise e) [] (.error e)
  | call {s : σ} {i : ι} {c : γ} {k : ρ c → Prog γ ρ ε α} {log : List (Performed σ ι γ)}
      {out : Except ε α} (hs : inv s) (h : Executes exec inv (k (exec s i c).1) log out) :
      Executes exec inv (.call c k) (⟨s, i, c⟩ :: log) out

variable {exec : σ → ι → (c : γ) → ρ c × σ} {inv : σ → Prop} {log : List (Performed σ ι γ)}

namespace Executes

/-- The first part raises, or the second one goes on with its result. -/
theorem bind_inv {p : Prog γ ρ ε α} {q : α → Prog γ ρ ε β} {out : Except ε β}
    (h : Executes exec inv (p.bind q) log out) :
    (∃ e, out = .error e ∧ Executes exec inv p log (.error e)) ∨
      ∃ log₁ a log₂, log = log₁ ++ log₂ ∧ Executes exec inv p log₁ (.ok a) ∧
        Executes exec inv (q a) log₂ out := by
  induction p generalizing log with
  | ret a => exact .inr ⟨[], a, log, rfl, .ret a, h⟩
  | raise e =>
    cases h
    exact .inl ⟨e, rfl, .raise e⟩
  | call c k ih =>
    cases h with
    | call hs h =>
      rcases ih _ h with ⟨e, he, hp⟩ | ⟨log₁, a, log₂, rfl, hp, hq⟩
      · exact .inl ⟨e, he, .call hs hp⟩
      · exact .inr ⟨_ :: log₁, a, log₂, rfl, .call hs hp, hq⟩

theorem attempt_inv {p : Prog γ ρ ε α} {out : Except ε (Except ε α)}
    (h : Executes exec inv p.attempt log out) :
    ∃ result, out = .ok result ∧ Executes exec inv p log result := by
  induction p generalizing log with
  | ret a =>
    cases h
    exact ⟨_, rfl, .ret a⟩
  | raise e =>
    cases h
    exact ⟨_, rfl, .raise e⟩
  | call c k ih =>
    cases h with
    | call hs h =>
      obtain ⟨result, hr, hp⟩ := ih _ h
      exact ⟨result, hr, .call hs hp⟩

theorem only {P : γ → Prop} {p : Prog γ ρ ε α} {out : Except ε α} (h : Executes exec inv p log out)
    (hp : p.Only P) : ∀ x ∈ log, P x.command := by
  induction h with
  | ret a => exact fun _ hx => absurd hx List.not_mem_nil
  | raise e => exact fun _ hx => absurd hx List.not_mem_nil
  | call hs h ih => exact List.forall_mem_cons.mpr ⟨hp.1, ih (hp.2 _)⟩

end Executes

/-! ## A client that runs alone -/

/-- Perform the commands of a program one after the other, with an input for each. -/
def execute (exec : σ → ι → (c : γ) → ρ c × σ) : Prog γ ρ ε α → σ → List ι →
    List (Performed σ ι γ) × Option (Except ε α) × σ
  | .ret a, s, _ => ([], some (.ok a), s)
  | .raise e, s, _ => ([], some (.error e), s)
  | .call _ _, s, [] => ([], none, s)
  | .call c k, s, i :: inputs =>
    let run := execute exec (k (exec s i c).1) (exec s i c).2 inputs
    (⟨s, i, c⟩ :: run.1, run.2)

/-- Running alone is an execution, and keeps what the commands keep. -/
theorem executes_execute (hinv : ∀ s i c, inv s → inv (exec s i c).2) {p : Prog γ ρ ε α} {s : σ}
    (hs : inv s) {inputs : List ι} {out : Except ε α}
    (h : (execute exec p s inputs).2.1 = some out) :
    Executes exec inv p (execute exec p s inputs).1 out ∧
      inv (execute exec p s inputs).2.2 := by
  induction p generalizing s inputs with
  | ret a =>
    cases h
    exact ⟨.ret a, hs⟩
  | raise e =>
    cases h
    exact ⟨.raise e, hs⟩
  | call c k ih =>
    cases inputs with
    | nil => cases h
    | cons i inputs =>
      obtain ⟨hrun, hend⟩ := ih _ (hinv s i c hs) h
      exact ⟨.call hs hrun, hend⟩

end CortexHarness.Clients
