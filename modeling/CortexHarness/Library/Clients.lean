import CortexHarness.Library.Run
import Mathlib.Data.List.Induction

/-!
# Clients of a shared state

A client runs a program (`Prog`): it returns, raises, or performs one command on the shared state
and goes on with the command's result. Clients start at any time, perform their commands in any
interleaving, and stop at any point (`World.step`, `Reaches`).

Safety is proved by rely and guarantee. A `Contract` has an invariant of the state and says what a
command must satisfy when it is performed (`guar`); a fact is `Stable` when every guaranteed command
preserves it. `Triple K F p Q E` says that the program `p`, started where `F` holds, guarantees each
of its commands and ends in `Q` or raises in `E`, whatever the other clients do between its
commands, as long as they keep the contract too.

* `Triple.bind`, `Triple.handle`, `Triple.mono`, `Triple.of_only`: the rules for programs;
* `Contract.sound`: if every program that is started has a triple, the invariant holds in every
  world that can be reached and every command that is performed is guaranteed;
* `Contract.Stable.reaches`: a stable fact then holds from the first world that has it.
-/

namespace CortexHarness.Clients

variable {σ ι γ δ ε α β : Type} {ρ : γ → Type}

/-! ## Programs -/

/-- A program: `ρ c` is what the command `c` returns. -/
inductive Prog (γ : Type) (ρ : γ → Type) (ε α : Type) where
  | ret (a : α)
  | raise (e : ε)
  | call (c : γ) (k : ρ c → Prog γ ρ ε α)

namespace Prog

/-- Run `q` on what `p` returns. -/
def bind : Prog γ ρ ε α → (α → Prog γ ρ ε β) → Prog γ ρ ε β
  | .ret a, q => q a
  | .raise e, _ => .raise e
  | .call c k, q => .call c fun r => (k r).bind q

/-- `try: p` with `except e: q e`. -/
def handle : Prog γ ρ ε α → (ε → Prog γ ρ ε α) → Prog γ ρ ε α
  | .ret a, _ => .ret a
  | .raise e, q => q e
  | .call c k, q => .call c fun r => (k r).handle q

/-- The result of a program or its exception, as a value. -/
def attempt (p : Prog γ ρ ε α) : Prog γ ρ ε (Except ε α) :=
  (p.bind fun a => .ret (.ok a)).handle fun e => .ret (.error e)

/-- One command. -/
def perform (c : γ) : Prog γ ρ ε (ρ c) := .call c .ret

/-- A result that is already there. -/
def ofExcept : Except ε α → Prog γ ρ ε α
  | .ok a => .ret a
  | .error e => .raise e

instance : Monad (Prog γ ρ ε) where
  pure := .ret
  bind := .bind

@[simp] theorem pure_def (a : α) : (pure a : Prog γ ρ ε α) = .ret a := rfl

@[simp] theorem bind_def (p : Prog γ ρ ε α) (q : α → Prog γ ρ ε β) : p >>= q = p.bind q := rfl

/-- Every command of the program satisfies `P`. -/
def Only (P : γ → Prop) : Prog γ ρ ε α → Prop
  | .ret _ => True
  | .raise _ => True
  | .call c k => P c ∧ ∀ r, (k r).Only P

theorem Only.bind {P : γ → Prop} {p : Prog γ ρ ε α} {q : α → Prog γ ρ ε β} (hp : p.Only P)
    (hq : ∀ a, (q a).Only P) : (p.bind q).Only P := by
  induction p with
  | ret a => exact hq a
  | raise e => trivial
  | call c k ih => exact ⟨hp.1, fun r => ih r (hp.2 r)⟩

theorem Only.handle {P : γ → Prop} {p : Prog γ ρ ε α} {q : ε → Prog γ ρ ε α} (hp : p.Only P)
    (hq : ∀ e, (q e).Only P) : (p.handle q).Only P := by
  induction p with
  | ret a => trivial
  | raise e => exact hq e
  | call c k ih => exact ⟨hp.1, fun r => ih r (hp.2 r)⟩

theorem Only.perform {P : γ → Prop} {c : γ} (h : P c) :
    (Prog.perform c : Prog γ ρ ε (ρ c)).Only P := ⟨h, fun _ => trivial⟩

end Prog

/-! ## Worlds -/

/-- The shared state and the programs that are running. -/
structure World (σ γ : Type) (ρ : γ → Type) (ε : Type) where
  state : σ
  clients : List (Prog γ ρ ε Unit)

/-- What can happen: a client starts, stops, or performs its next command on an input. -/
inductive Event (δ ι : Type) where
  | start (d : δ)
  | crash (n : Nat)
  | perform (n : Nat) (i : ι)

variable (exec : σ → ι → (c : γ) → ρ c × σ) (program : δ → Prog γ ρ ε Unit)

def World.step (w : World σ γ ρ ε) : Event δ ι → World σ γ ρ ε
  | .start d => { w with clients := w.clients ++ [program d] }
  | .crash n => { w with clients := w.clients.eraseIdx n }
  | .perform n i =>
    match w.clients[n]? with
    | some (.call c k) =>
      { state := (exec w.state i c).2, clients := w.clients.set n (k (exec w.state i c).1) }
    | _ => w

/-- What the environment promises about the input of an event. -/
def Event.Admitted (admits : σ → ι → Prop) (s : σ) : Event δ ι → Prop
  | .perform _ i => admits s i
  | _ => True

/-- The worlds that can be reached from the world `w₀`. -/
inductive Reaches (admits : σ → ι → Prop) (w₀ : World σ γ ρ ε) : World σ γ ρ ε → Prop where
  | refl : Reaches admits w₀ w₀
  | step {w : World σ γ ρ ε} (h : Reaches admits w₀ w) (e : Event δ ι)
      (ha : e.Admitted admits w.state) : Reaches admits w₀ (w.step exec program e)

/-- The environment keeps its promise along the events. -/
def Admissible (admits : σ → ι → Prop) : World σ γ ρ ε → List (Event δ ι) → Prop
  | _, [] => True
  | w, e :: es => e.Admitted admits w.state ∧ Admissible admits (w.step exec program e) es

instance (admits : σ → ι → Prop) [∀ s i, Decidable (admits s i)] (s : σ) :
    (e : Event δ ι) → Decidable (e.Admitted admits s)
  | .start _ => instDecidableTrue
  | .crash _ => instDecidableTrue
  | .perform _ i => inferInstanceAs (Decidable (admits s i))

instance (admits : σ → ι → Prop) [∀ s i, Decidable (admits s i)] :
    (w : World σ γ ρ ε) → (es : List (Event δ ι)) →
      Decidable (Admissible exec program admits w es)
  | _, [] => instDecidableTrue
  | _, _ :: _ => @instDecidableAnd _ _ inferInstance (instDecidableAdmissible ..)

/-- Inputs that are admitted in every state. -/
theorem Admissible.of_forall {admits : σ → ι → Prop} (h : ∀ s i, admits s i)
    (w : World σ γ ρ ε) (es : List (Event δ ι)) : Admissible exec program admits w es := by
  induction es generalizing w with
  | nil => trivial
  | cons e es ih =>
    refine ⟨?_, ih _⟩
    cases e with
    | perform n i => exact h w.state i
    | _ => trivial

theorem Reaches.run {admits : σ → ι → Prop} (w₀ : World σ γ ρ ε) (es : List (Event δ ι))
    (h : Admissible exec program admits w₀ es) :
    Reaches exec program admits w₀ (Run.run (World.step exec program) w₀ es) := by
  suffices ∀ w, Reaches exec program admits w₀ w → Admissible exec program admits w es →
      Reaches exec program admits w₀ (Run.run (World.step exec program) w es) from this w₀ .refl h
  clear h
  induction es with
  | nil => exact fun w hw _ => hw
  | cons e es ih => exact fun w hw ha => ih _ (.step hw e ha.1) ha.2

/-! ## Contracts -/

/-- What the clients of a state guarantee and rely on. -/
structure Contract where
  inv : σ → Prop
  admits : σ → ι → Prop
  guar : σ → ι → γ → Prop
  keeps : ∀ {s i c}, inv s → admits s i → guar s i c → inv (exec s i c).2

variable {exec} (K : Contract exec)

/-- Every guaranteed command preserves the fact. -/
def Contract.Stable (F : σ → Prop) : Prop :=
  ∀ s i c, K.inv s → K.admits s i → K.guar s i c → F s → F (exec s i c).2

theorem Contract.stable_true : K.Stable fun _ => True := fun _ _ _ _ _ _ _ => trivial

theorem Contract.Stable.imp {P : Prop} {F : σ → Prop} (hF : P → K.Stable F) :
    K.Stable fun s => P → F s :=
  fun s i c hi ha hg h hP => hF hP s i c hi ha hg (h hP)

/-- The program guarantees its commands where `F` holds at its start. -/
def Triple (F : σ → Prop) : Prog γ ρ ε α → (α → σ → Prop) → (ε → σ → Prop) → Prop
  | .ret a, Q, _ => ∀ s, K.inv s → F s → Q a s
  | .raise e, _, E => ∀ s, K.inv s → F s → E e s
  | .call c k, Q, E => (∀ s i, K.inv s → K.admits s i → F s → K.guar s i c) ∧
      ∀ r, ∃ G : σ → Prop, K.Stable G ∧
        (∀ s i, K.inv s → K.admits s i → F s → (exec s i c).1 = r → G (exec s i c).2) ∧
        Triple G (k r) Q E

variable {K} {F F' : σ → Prop} {Q Q' : α → σ → Prop} {E E' : ε → σ → Prop}

/-- The rule for one command: it is guaranteed, and what its result tells is stable. -/
theorem Triple.call {c : γ} {k : ρ c → Prog γ ρ ε α} (G : ρ c → σ → Prop)
    (hg : ∀ s i, K.inv s → K.admits s i → F s → K.guar s i c) (hG : ∀ r, K.Stable (G r))
    (hr : ∀ s i, K.inv s → K.admits s i → F s → G (exec s i c).1 (exec s i c).2)
    (hk : ∀ r, Triple K (G r) (k r) Q E) : Triple K F (.call c k) Q E :=
  ⟨hg, fun r => ⟨G r, hG r, fun s i hi ha hF he => he ▸ hr s i hi ha hF, hk r⟩⟩

theorem Triple.mono {p : Prog γ ρ ε α} (h : Triple K F p Q E) (hF : ∀ s, K.inv s → F' s → F s)
    (hQ : ∀ a s, K.inv s → Q a s → Q' a s) (hE : ∀ e s, K.inv s → E e s → E' e s) :
    Triple K F' p Q' E' := by
  induction p generalizing F F' with
  | ret a => exact fun s hi hs => hQ a s hi (h s hi (hF s hi hs))
  | raise e => exact fun s hi hs => hE e s hi (h s hi (hF s hi hs))
  | call c k ih =>
    refine ⟨fun s i hi ha hs => h.1 s i hi ha (hF s hi hs), fun r => ?_⟩
    obtain ⟨G, hG, hr, hk⟩ := h.2 r
    exact ⟨G, hG, fun s i hi ha hs => hr s i hi ha (hF s hi hs), ih r hk (fun _ _ h => h)⟩

/-- A weaker precondition. -/
theorem Triple.pre {p : Prog γ ρ ε α} (h : Triple K F p Q E)
    (hF : ∀ s, K.inv s → F' s → F s) : Triple K F' p Q E :=
  h.mono hF (fun _ _ _ h => h) fun _ _ _ h => h

/-- A precondition that does not depend on the state may be assumed. -/
theorem Triple.assume {P : Prop} {p : Prog γ ρ ε α} (h : P → Triple K (fun _ => True) p Q E) :
    Triple K (fun _ => P) p Q E := by
  by_cases hP : P
  · exact (h hP).pre fun _ _ _ => trivial
  · have hfalse : ∀ p : Prog γ ρ ε α, Triple K (fun _ => P) p Q E := by
      intro p
      induction p with
      | ret a => exact fun _ _ h => absurd h hP
      | raise e => exact fun _ _ h => absurd h hP
      | call c k ih =>
        exact ⟨fun _ _ _ _ h => absurd h hP, fun r => ⟨_, fun _ _ _ _ _ _ h => h,
          fun _ _ _ _ h => absurd h hP, ih r⟩⟩
    exact hfalse p

theorem Triple.bind {p : Prog γ ρ ε α} {q : α → Prog γ ρ ε β} {R : β → σ → Prop}
    (hp : Triple K F p Q E) (hq : ∀ a, Triple K (Q a) (q a) R E) : Triple K F (p.bind q) R E := by
  induction p generalizing F with
  | ret a => exact (hq a).pre hp
  | raise e => exact hp
  | call c k ih =>
    refine ⟨hp.1, fun r => ?_⟩
    obtain ⟨G, hG, hr, hk⟩ := hp.2 r
    exact ⟨G, hG, hr, ih r hk⟩

theorem Triple.handle {p : Prog γ ρ ε α} {q : ε → Prog γ ρ ε α} (hp : Triple K F p Q E)
    (hq : ∀ e, Triple K (E e) (q e) Q E') : Triple K F (p.handle q) Q E' := by
  induction p generalizing F with
  | ret a => exact hp
  | raise e => exact (hq e).pre hp
  | call c k ih =>
    refine ⟨hp.1, fun r => ?_⟩
    obtain ⟨G, hG, hr, hk⟩ := hp.2 r
    exact ⟨G, hG, hr, ih r hk⟩

theorem Triple.attempt {p : Prog γ ρ ε α} {R : Except ε α → σ → Prop} (hp : Triple K F p Q E)
    (hQ : ∀ a s, K.inv s → Q a s → R (.ok a) s) (hE : ∀ e s, K.inv s → E e s → R (.error e) s) :
    Triple K F p.attempt R E' :=
  .handle (.bind hp fun a => fun s hi h => hQ a s hi h) fun e => fun s hi h => hE e s hi h

/-- A program whose commands are always guaranteed keeps every stable fact. -/
theorem Triple.of_only {P : γ → Prop} (hP : ∀ c, P c → ∀ s i, K.inv s → K.admits s i → K.guar s i c)
    (hF : K.Stable F) {p : Prog γ ρ ε α} (h : p.Only P) :
    Triple K F p (fun _ => F) fun _ => F := by
  induction p with
  | ret a => exact fun _ _ h => h
  | raise e => exact fun _ _ h => h
  | call c k ih =>
    exact .call (fun _ => F) (fun s i hi ha _ => hP c h.1 s i hi ha) (fun _ => hF)
      (fun s i hi ha hs => hF s i c hi ha (hP c h.1 s i hi ha) hs) fun r => ih r (h.2 r)

/-! ## Soundness -/

/-- The program is safe to continue in the state `s`. -/
def Safe (K : Contract exec) (s : σ) (p : Prog γ ρ ε Unit) : Prop :=
  ∃ F : σ → Prop, K.Stable F ∧ F s ∧ Triple K F p (fun _ _ => True) fun _ _ => True

theorem Safe.guar {s : σ} {i : ι} {c : γ} {k : ρ c → Prog γ ρ ε Unit} (h : Safe K s (.call c k))
    (hi : K.inv s) (ha : K.admits s i) : K.guar s i c := by
  obtain ⟨F, -, hs, ht⟩ := h
  exact ht.1 s i hi ha hs

/-- The client that performs the command is safe to go on. -/
theorem Safe.continue {s : σ} {i : ι} {c : γ} {k : ρ c → Prog γ ρ ε Unit}
    (h : Safe K s (.call c k)) (hi : K.inv s) (ha : K.admits s i) :
    Safe K (exec s i c).2 (k (exec s i c).1) := by
  obtain ⟨F, -, hs, ht⟩ := h
  obtain ⟨G, hG, hr, hk⟩ := ht.2 (exec s i c).1
  exact ⟨G, hG, hr s i hi ha hs rfl, hk⟩

/-- The other clients stay safe. -/
theorem Safe.rely {s : σ} {i : ι} {c : γ} {p : Prog γ ρ ε Unit} (h : Safe K s p) (hi : K.inv s)
    (ha : K.admits s i) (hg : K.guar s i c) : Safe K (exec s i c).2 p := by
  obtain ⟨F, hF, hs, ht⟩ := h
  exact ⟨F, hF, hF s i c hi ha hg hs, ht⟩

/-- The invariant holds and every client is safe. -/
def World.Sound (K : Contract exec) (w : World σ γ ρ ε) : Prop :=
  K.inv w.state ∧ ∀ p ∈ w.clients, Safe K w.state p

theorem World.Sound.step {w : World σ γ ρ ε} (h : w.Sound K)
    (hstart : ∀ d, Triple K (fun _ => True) (program d) (fun _ _ => True) fun _ _ => True)
    (e : Event δ ι) (ha : e.Admitted K.admits w.state) : (w.step exec program e).Sound K := by
  cases e with
  | start d =>
    refine ⟨h.1, fun p hp => ?_⟩
    rcases List.mem_append.mp hp with hp | hp
    · exact h.2 p hp
    · rw [List.mem_singleton.mp hp]
      exact ⟨_, K.stable_true, trivial, hstart d⟩
  | crash n => exact ⟨h.1, fun p hp => h.2 p (List.mem_of_mem_eraseIdx hp)⟩
  | perform n i =>
    simp only [World.step]
    split
    · rename_i c k hc
      have hsafe := h.2 _ (List.mem_of_getElem? hc)
      have hg := hsafe.guar h.1 ha
      refine ⟨K.keeps h.1 ha hg, fun p hp => ?_⟩
      rcases List.mem_or_eq_of_mem_set hp with hp | rfl
      · exact (h.2 p hp).rely h.1 ha hg
      · exact hsafe.continue h.1 ha
    · exact h

variable {program}

/-- **Clients that have a triple are sound together.** -/
theorem Contract.sound (K : Contract exec)
    (hstart : ∀ d, Triple K (fun _ => True) (program d) (fun _ _ => True) fun _ _ => True)
    {w₀ w : World σ γ ρ ε} (h0 : w₀.Sound K) (h : Reaches exec program K.admits w₀ w) :
    w.Sound K := by
  induction h with
  | refl => exact h0
  | step _ e ha ih => exact ih.step program hstart e ha

/-- A stable fact stays true. -/
theorem Contract.Stable.reaches {K : Contract exec} (hF : K.Stable F)
    (hstart : ∀ d, Triple K (fun _ => True) (program d) (fun _ _ => True) fun _ _ => True)
    {w₀ w : World σ γ ρ ε} (h0 : w₀.Sound K) (hs : F w₀.state)
    (h : Reaches exec program K.admits w₀ w) : F w.state := by
  induction h with
  | refl => exact hs
  | step hw e ha ih =>
    have hsound := K.sound hstart h0 hw
    cases e with
    | perform n i =>
      simp only [World.step]
      split
      · rename_i c k hc
        exact hF _ _ _ hsound.1 ha ((hsound.2 _ (List.mem_of_getElem? hc)).guar hsound.1 ha) ih
      · exact ih
    | _ => exact ih

end CortexHarness.Clients
