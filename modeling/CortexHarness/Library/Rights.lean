import CortexHarness.Library.Clients

/-!
# Rights that are used once

Some commands hand out rights (a lease, a ticket) and others use them. A program is `Free` of a
right when it does not use it before it gets it, and `Linear` when it is free of every right it has
used. If the rights that are handed out are fresh and every program that is started is linear and
free of all rights, then no right is used twice, whatever the interleaving: a right that has been
handed out is either used or with one client (`World.Owned`).

* `Free.bind`, `Free.handle`, `Linear.bind`, `Linear.handle`: the rules for programs;
* `Rights.once`: in every world that can be reached a right has been used at most once.
-/

namespace CortexHarness.Clients

variable {σ ι γ δ ε α β τ : Type} {ρ : γ → Type} {exec : σ → ι → (c : γ) → ρ c × σ}
  {admits : σ → ι → Prop}

/-- The rights `τ` of the clients of a state. -/
structure Rights (exec : σ → ι → (c : γ) → ρ c × σ) (admits : σ → ι → Prop) (τ : Type) where
  /-- the command uses the right -/
  uses : τ → γ → Prop
  /-- the command hands out the right with this result -/
  gives : τ → (c : γ) → ρ c → Prop
  /-- the right has been handed out -/
  given : σ → τ → Prop
  /-- how often the right has been used -/
  used : σ → τ → Nat
  exclusive : ∀ {t c r}, uses t c → ¬ gives t c r
  fresh : ∀ {s i c t}, admits s i → gives t c (exec s i c).1 → ¬ given s t
  marked : ∀ {s i c t}, gives t c (exec s i c).1 → given (exec s i c).2 t
  kept : ∀ {s i c t}, given s t → given (exec s i c).2 t
  counted : ∀ {s i c t}, used (exec s i c).2 t ≤ used s t + 1
  unused : ∀ {s i c t}, ¬ uses t c → used (exec s i c).2 t = used s t

/-! ## Programs -/

variable (R : Rights exec admits τ)

/-- The program does not use the right before it gets it. -/
def Prog.Free (t : τ) : Prog γ ρ ε α → Prop
  | .ret _ => True
  | .raise _ => True
  | .call c k => ¬ R.uses t c ∧ ∀ r, ¬ R.gives t c r → (k r).Free t

/-- The program is free of every right it has used. -/
def Prog.Linear : Prog γ ρ ε α → Prop
  | .ret _ => True
  | .raise _ => True
  | .call c k => ∀ r, (∀ t, R.uses t c → (k r).Free R t) ∧ (k r).Linear

namespace Prog

variable {R} {t : τ}

theorem Free.bind {p : Prog γ ρ ε α} {q : α → Prog γ ρ ε β} (hp : p.Free R t)
    (hq : ∀ a, (q a).Free R t) : (p.bind q).Free R t := by
  induction p with
  | ret a => exact hq a
  | raise e => trivial
  | call c k ih => exact ⟨hp.1, fun r hr => ih r (hp.2 r hr)⟩

theorem Free.handle {p : Prog γ ρ ε α} {q : ε → Prog γ ρ ε α} (hp : p.Free R t)
    (hq : ∀ e, (q e).Free R t) : (p.handle q).Free R t := by
  induction p with
  | ret a => trivial
  | raise e => exact hq e
  | call c k ih => exact ⟨hp.1, fun r hr => ih r (hp.2 r hr)⟩

theorem Free.of_only {P : γ → Prop} (hP : ∀ c, P c → ¬ R.uses t c) {p : Prog γ ρ ε α}
    (h : p.Only P) : p.Free R t := by
  induction p with
  | ret a => trivial
  | raise e => trivial
  | call c k ih => exact ⟨hP c h.1, fun r _ => ih r (h.2 r)⟩

theorem Linear.bind {p : Prog γ ρ ε α} {q : α → Prog γ ρ ε β} (hp : p.Linear R)
    (hq : ∀ a, (q a).Linear R) (hf : ∀ a t, (q a).Free R t) : (p.bind q).Linear R := by
  induction p with
  | ret a => exact hq a
  | raise e => trivial
  | call c k ih =>
    exact fun r => ⟨fun t ht => .bind ((hp r).1 t ht) fun a => hf a t, ih r (hp r).2⟩

theorem Linear.handle {p : Prog γ ρ ε α} {q : ε → Prog γ ρ ε α} (hp : p.Linear R)
    (hq : ∀ e, (q e).Linear R) (hf : ∀ e t, (q e).Free R t) : (p.handle q).Linear R := by
  induction p with
  | ret a => trivial
  | raise e => exact hq e
  | call c k ih =>
    exact fun r => ⟨fun t ht => .handle ((hp r).1 t ht) fun e => hf e t, ih r (hp r).2⟩

theorem Linear.of_only {P : γ → Prop} (hP : ∀ c, P c → ∀ t, ¬ R.uses t c) {p : Prog γ ρ ε α}
    (h : p.Only P) : p.Linear R := by
  induction p with
  | ret a => trivial
  | raise e => trivial
  | call c k ih => exact fun r => ⟨fun t ht => absurd ht (hP c h.1 t), ih r (h.2 r)⟩

/-- A program that uses no right may be followed by one that does. -/
theorem Linear.bind_only {P : γ → Prop} (hP : ∀ c, P c → ∀ t, ¬ R.uses t c)
    {p : Prog γ ρ ε α} {q : α → Prog γ ρ ε β} (h : p.Only P) (hq : ∀ a, (q a).Linear R) :
    (p.bind q).Linear R := by
  induction p with
  | ret a => exact hq a
  | raise e => trivial
  | call c k ih => exact fun r => ⟨fun t ht => absurd ht (hP c h.1 t), ih r (h.2 r)⟩

end Prog

/-! ## Worlds -/

open Classical in
/-- How many clients can still use the right. -/
noncomputable def holders (t : τ) (clients : List (Prog γ ρ ε Unit)) : Nat :=
  clients.countP fun p => decide (¬ p.Free R t)

/-- A right is used once, or with one client, or has not been handed out. -/
structure World.Owned (w : World σ γ ρ ε) : Prop where
  linear : ∀ p ∈ w.clients, p.Linear R
  once : ∀ t, R.used w.state t + holders R t w.clients ≤ 1
  fresh : ∀ t, ¬ R.given w.state t → R.used w.state t = 0 ∧ ∀ p ∈ w.clients, p.Free R t

variable {R} {t : τ} {clients : List (Prog γ ρ ε Unit)}

theorem holders_eq_zero (h : ∀ p ∈ clients, p.Free R t) : holders R t clients = 0 := by
  classical
  exact List.countP_eq_zero.mpr fun p hp => by simpa using h p hp

theorem holders_append (p : Prog γ ρ ε Unit) (h : p.Free R t) :
    holders R t (clients ++ [p]) = holders R t clients := by
  classical
  simp [holders, List.countP_append, h]

open Classical in
theorem holders_set {n : Nat} {p q : Prog γ ρ ε Unit} (hp : clients[n]? = some p) :
    holders R t (clients.set n q) + (if p.Free R t then 0 else 1) =
      holders R t clients + if q.Free R t then 0 else 1 := by
  obtain ⟨hn, hget⟩ := List.getElem?_eq_some_iff.mp hp
  have hpos : ¬ p.Free R t → 1 ≤ holders R t clients := fun hf =>
    List.countP_pos_iff.mpr ⟨p, List.mem_of_getElem? hp, by simpa using hf⟩
  have hset : holders R t (clients.set n q) = holders R t clients -
      (if p.Free R t then 0 else 1) + if q.Free R t then 0 else 1 := by
    unfold holders
    rw [List.countP_set hn, hget]
    simp only [decide_not, Bool.not_eq_true', decide_eq_false_iff_not, ite_not]
  by_cases hpf : p.Free R t
  · simp only [hset, hpf, if_true, Nat.sub_zero, Nat.add_zero]
  · have := hpos hpf
    simp only [hset, hpf, if_false]
    omega

/-- One client goes on with the result of its command. -/
theorem World.Owned.perform {w : World σ γ ρ ε} (h : w.Owned R) {n : Nat} {i : ι} {c : γ}
    {k : ρ c → Prog γ ρ ε Unit} (hc : w.clients[n]? = some (.call c k))
    (ha : admits w.state i) :
    World.Owned R ⟨(exec w.state i c).2, w.clients.set n (k (exec w.state i c).1)⟩ := by
  classical
  have hmem := List.mem_of_getElem? hc
  have hlinear := h.linear _ hmem (exec w.state i c).1
  refine ⟨fun p hp => ?_, fun t => ?_, fun t ht => ?_⟩
  · rcases List.mem_or_eq_of_mem_set hp with hp | rfl
    · exact h.linear p hp
    · exact hlinear.2
  · have hset := holders_set (R := R) (t := t) (q := k (exec w.state i c).1) hc
    have honce := h.once t
    show R.used (exec w.state i c).2 t + holders R t (w.clients.set n _) ≤ 1
    by_cases hg : R.gives t c (exec w.state i c).1
    · -- the right is new, so nobody had it and this client gets it
      obtain ⟨hzero, hfree⟩ := h.fresh t (R.fresh ha hg)
      have hun := R.unused (s := w.state) (i := i) fun hu => R.exclusive hu hg
      have hnone := holders_eq_zero hfree
      split at hset <;> split at hset <;> omega
    · by_cases hu : R.uses t c
      · -- this client had the right and gives it up
        have hcount := R.counted (s := w.state) (i := i) (c := c) (t := t)
        rw [if_neg fun hf : (Prog.call c k).Free R t => hf.1 hu, if_pos (hlinear.1 t hu)] at hset
        omega
      · have hun := R.unused (s := w.state) (i := i) hu
        by_cases hf : (Prog.call c k).Free R t
        · rw [if_pos hf, if_pos (hf.2 _ hg)] at hset
          omega
        · rw [if_neg hf] at hset
          split at hset <;> omega
  · have hgiven : ¬ R.given w.state t := fun hg => ht (R.kept hg)
    obtain ⟨hzero, hfree⟩ := h.fresh t hgiven
    have hcall := hfree _ hmem
    refine ⟨(R.unused hcall.1).trans hzero, fun p hp => ?_⟩
    rcases List.mem_or_eq_of_mem_set hp with hp | rfl
    · exact hfree p hp
    · exact hcall.2 _ fun hg => ht (R.marked hg)

variable (program : δ → Prog γ ρ ε Unit)

theorem World.Owned.step {w : World σ γ ρ ε} (h : w.Owned R)
    (hstart : ∀ d, (program d).Linear R ∧ ∀ t, (program d).Free R t) (e : Event δ ι)
    (ha : e.Admitted admits w.state) : (w.step exec program e).Owned R := by
  cases e with
  | start d =>
    refine ⟨fun p hp => ?_, fun t => ?_, fun t ht => ?_⟩
    · rcases List.mem_append.mp hp with hp | hp
      · exact h.linear p hp
      · rw [List.mem_singleton.mp hp]
        exact (hstart d).1
    · simp only [World.step, holders_append _ ((hstart d).2 t)]
      exact h.once t
    · refine ⟨(h.fresh t ht).1, fun p hp => ?_⟩
      rcases List.mem_append.mp hp with hp | hp
      · exact (h.fresh t ht).2 p hp
      · rw [List.mem_singleton.mp hp]
        exact (hstart d).2 t
  | crash n =>
    refine ⟨fun p hp => h.linear p (List.mem_of_mem_eraseIdx hp), fun t => ?_, fun t ht => ?_⟩
    · have hle : holders R t (w.clients.eraseIdx n) ≤ holders R t w.clients :=
        (List.eraseIdx_sublist w.clients n).countP_le
      have honce := h.once t
      simp only [World.step]
      omega
    · exact ⟨(h.fresh t ht).1, fun p hp => (h.fresh t ht).2 p (List.mem_of_mem_eraseIdx hp)⟩
  | perform n i =>
    simp only [World.step]
    split
    · rename_i c k hc
      exact h.perform hc ha
    · exact h

variable {program}

/-- **A right is used at most once.** -/
theorem Rights.once (hstart : ∀ d, (program d).Linear R ∧ ∀ t, (program d).Free R t)
    {w₀ w : World σ γ ρ ε} (h0 : w₀.Owned R) (h : Reaches exec program admits w₀ w) (t : τ) :
    R.used w.state t ≤ 1 := by
  have howned : w.Owned R := by
    induction h with
    | refl => exact h0
    | step _ e ha ih => exact ih.step program hstart e ha
  have := howned.once t
  omega

end CortexHarness.Clients
