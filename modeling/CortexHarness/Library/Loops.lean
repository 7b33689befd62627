import Mathlib.Order.WellFounded

/-!
# While loops with fuel

A `while` loop whose end is not known in advance is run with fuel: `loop body n s` goes round at
most `n` times and is `none` when the fuel runs out. The body is given the fuel too, for the loops
inside it, and answers with the next state or with the result.

* `Ends f r`: enough fuel gives the result `r`;
* **`loop_ends`**: a loop whose body ends, keeps an invariant and descends, ends.
-/

namespace CortexHarness.Loops

variable {σ ρ α β : Type}

/-- Go round until the body answers with a result. -/
def loop (body : Nat → σ → Option (σ ⊕ ρ)) : Nat → σ → Option ρ
  | 0, _ => none
  | fuel + 1, s =>
    match body fuel s with
    | none => none
    | some (.inl s') => loop body fuel s'
    | some (.inr r) => some r

theorem loop_inl {body : Nat → σ → Option (σ ⊕ ρ)} {fuel : Nat} {s s' : σ}
    (h : body fuel s = some (.inl s')) : loop body (fuel + 1) s = loop body fuel s' := by
  rw [loop, h]

theorem loop_inr {body : Nat → σ → Option (σ ⊕ ρ)} {fuel : Nat} {s : σ} {r : ρ}
    (h : body fuel s = some (.inr r)) : loop body (fuel + 1) s = some r := by
  rw [loop, h]

/-- Every large enough fuel gives `r`. -/
def Ends (f : Nat → Option ρ) (r : ρ) : Prop := ∃ n, ∀ fuel, n ≤ fuel → f fuel = some r

theorem ends_some (r : ρ) : Ends (fun _ => some r) r := ⟨0, fun _ _ => rfl⟩

theorem Ends.map {f : Nat → Option α} {a : α} (h : Ends f a) (g : α → β) :
    Ends (fun fuel => (f fuel).map g) (g a) := by
  obtain ⟨n, hn⟩ := h
  refine ⟨n, fun fuel hle => ?_⟩
  show (f fuel).map g = some (g a)
  rw [hn fuel hle]
  rfl

theorem Ends.mapM {f : Nat → α → Option β} {g : α → β} {items : List α}
    (h : ∀ a ∈ items, Ends (fun fuel => f fuel a) (g a)) :
    Ends (fun fuel => items.mapM (f fuel)) (items.map g) := by
  induction items with
  | nil => exact ⟨0, fun _ _ => rfl⟩
  | cons a items ih =>
    obtain ⟨n, hn⟩ := h a List.mem_cons_self
    obtain ⟨m, hm⟩ := ih fun b hb => h b (List.mem_cons_of_mem _ hb)
    refine ⟨max n m, fun fuel hle => ?_⟩
    have ha : f fuel a = some (g a) := hn fuel (by omega)
    have hitems : items.mapM (f fuel) = some (items.map g) := hm fuel (by omega)
    show (a :: items).mapM (f fuel) = some ((a :: items).map g)
    rw [List.mapM_cons, ha, hitems]
    rfl

theorem exists_of_mapM {f : α → Option β} {items : List α} {results : List β}
    (h : items.mapM f = some results) : ∀ a ∈ items, ∃ b, f a = some b := by
  induction items generalizing results with
  | nil => exact fun a ha => by cases ha
  | cons a items ih =>
    rw [List.mapM_cons] at h
    obtain ⟨b, hb, h⟩ := Option.bind_eq_some_iff.mp h
    obtain ⟨rest, hrest, -⟩ := Option.bind_eq_some_iff.mp h
    exact List.forall_mem_cons.mpr ⟨⟨b, hb⟩, ih hrest⟩

/-- **The rule of the loop.** `I` is the invariant, `μ` the measure that goes down on every round
that does not leave the loop, `Q` what holds where it is left. -/
theorem loop_ends {δ : Type} {r : δ → δ → Prop} (hwf : WellFounded r) (μ : σ → δ)
    {body : Nat → σ → Option (σ ⊕ ρ)} {I : σ → Prop} {Q : ρ → Prop}
    (hbody : ∀ s, I s → (∃ s', Ends (fun fuel => body fuel s) (.inl s') ∧ I s' ∧ r (μ s') (μ s)) ∨
      ∃ a, Ends (fun fuel => body fuel s) (.inr a) ∧ Q a)
    (s : σ) (hs : I s) : ∃ a, Ends (fun fuel => loop body fuel s) a ∧ Q a := by
  have key : ∀ d s, μ s = d → I s → ∃ a, Ends (fun fuel => loop body fuel s) a ∧ Q a := by
    intro d
    induction d using hwf.induction with
    | _ d ih =>
      intro s hd hs
      rcases hbody s hs with ⟨s', ⟨n, hn⟩, hs', hlt⟩ | ⟨a, ⟨n, hn⟩, ha⟩
      · obtain ⟨a, ⟨m, hm⟩, ha⟩ := ih (μ s') (hd ▸ hlt) s' rfl hs'
        refine ⟨a, ⟨max n m + 1, fun fuel hle => ?_⟩, ha⟩
        obtain ⟨fuel, rfl⟩ : ∃ k, fuel = k + 1 := ⟨fuel - 1, by omega⟩
        exact (loop_inl (hn fuel (by omega))).trans (hm fuel (by omega))
      · refine ⟨a, ⟨n + 1, fun fuel hle => ?_⟩, ha⟩
        obtain ⟨fuel, rfl⟩ : ∃ k, fuel = k + 1 := ⟨fuel - 1, by omega⟩
        exact loop_inr (hn fuel (by omega))
  exact key (μ s) s rfl hs

end CortexHarness.Loops
