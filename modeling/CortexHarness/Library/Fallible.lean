import Mathlib.Data.List.Forall2
import Mathlib.Data.List.Induction
import Mathlib.Algebra.GroupWithZero.Nat

/-!
# Computations that may raise

A Python function that may raise returns an `Except`. `bind_ok` takes a successful one apart,
`foldlM_invariant` is the rule for a loop, with the items it has read as part of the invariant, and
`mapM_ok` the one for a comprehension; `foldlM_succeeds` and `mapM_succeeds` show that nothing is
raised.
-/

namespace CortexHarness.Fallible

variable {ε α β σ : Type}

theorem bind_ok {x : Except ε α} {f : α → Except ε β} {b : β} :
    (x >>= f) = .ok b ↔ ∃ a, x = .ok a ∧ f a = .ok b := by
  cases x with
  | error e =>
    constructor
    · intro h
      cases h
    · rintro ⟨a, ha, -⟩
      cases ha
  | ok a =>
    constructor
    · exact fun h => ⟨a, rfl, h⟩
    · rintro ⟨a', ha, h⟩
      cases ha
      exact h

/-- A successful loop keeps what each of its rounds keeps. -/
theorem foldlM_invariant {step : σ → α → Except ε σ} {I : List α → σ → Prop} {s : σ}
    (h0 : I [] s)
    (hstep : ∀ pre s a s', I pre s → step s a = .ok s' → I (pre ++ [a]) s') {items : List α} {s' : σ}
    (h : items.foldlM step s = .ok s') : I items s' := by
  induction items using List.reverseRecOn generalizing s' with
  | nil =>
    cases h
    exact h0
  | append_singleton items a ih =>
    rw [List.foldlM_append] at h
    obtain ⟨t, ht, h⟩ := bind_ok.mp h
    obtain ⟨t', ht', h⟩ := bind_ok.mp h
    cases h
    exact hstep items t a s' (ih ht) ht'

/-- A successful comprehension computes every item. -/
theorem mapM_ok {f : α → Except ε β} {items : List α} {results : List β}
    (h : items.mapM f = .ok results) : List.Forall₂ (fun a b => f a = .ok b) items results := by
  induction items generalizing results with
  | nil =>
    cases h
    exact .nil
  | cons a items ih =>
    rw [List.mapM_cons] at h
    obtain ⟨b, hb, h⟩ := bind_ok.mp h
    obtain ⟨bs, hbs, h⟩ := bind_ok.mp h
    cases h
    exact .cons hb (ih hbs)

theorem mapM_length {f : α → Except ε β} {items : List α} {results : List β}
    (h : items.mapM f = .ok results) : results.length = items.length :=
  (mapM_ok h).length_eq.symm

theorem mapM_flatten_length {f : α → Except ε (List β)} {n : α → Nat}
    (hn : ∀ a results, f a = .ok results → results.length = n a) {items : List α}
    {results : List (List β)} (h : items.mapM f = .ok results) :
    results.flatten.length = (items.map n).sum := by
  have hall := mapM_ok h
  clear h
  induction hall with
  | nil => rfl
  | cons hab _ ih =>
    rw [List.flatten_cons, List.length_append, ih, hn _ _ hab, List.map_cons, List.sum_cons]

/-- A loop none of whose rounds raises does not raise. -/
theorem foldlM_succeeds {step : σ → α → Except ε σ} {I : σ → Prop} {items : List α}
    (hstep : ∀ s, I s → ∀ a ∈ items, ∃ s', step s a = .ok s' ∧ I s') {s : σ} (h0 : I s) :
    ∃ s', items.foldlM step s = .ok s' ∧ I s' := by
  induction items generalizing s with
  | nil => exact ⟨s, rfl, h0⟩
  | cons a items ih =>
    obtain ⟨t, ht, hI⟩ := hstep s h0 a List.mem_cons_self
    obtain ⟨s', hs', hI'⟩ := ih (fun s hs b hb => hstep s hs b (List.mem_cons_of_mem _ hb)) hI
    exact ⟨s', by rw [List.foldlM_cons]; exact bind_ok.mpr ⟨t, ht, hs'⟩, hI'⟩

/-- No item of a comprehension that returns raises. -/
theorem mapM_item {f : α → Except ε β} {items : List α} {results : List β}
    (h : items.mapM f = .ok results) : ∀ a ∈ items, ∃ b ∈ results, f a = .ok b := by
  have hall := mapM_ok h
  clear h
  induction hall with
  | nil => simp
  | cons hab _ ih =>
    intro a ha
    rcases List.mem_cons.mp ha with rfl | ha
    · exact ⟨_, List.mem_cons_self, hab⟩
    · obtain ⟨b, hb, hf⟩ := ih a ha
      exact ⟨b, List.mem_cons_of_mem _ hb, hf⟩

theorem mapM_mem {f : α → Except ε β} {items : List α} {results : List β}
    (h : items.mapM f = .ok results) : ∀ b ∈ results, ∃ a ∈ items, f a = .ok b := by
  have hall := mapM_ok h
  clear h
  induction hall with
  | nil => simp
  | cons hab _ ih =>
    intro b hb
    rcases List.mem_cons.mp hb with rfl | hb
    · exact ⟨_, List.mem_cons_self, hab⟩
    · obtain ⟨a, ha, hf⟩ := ih b hb
      exact ⟨a, List.mem_cons_of_mem _ ha, hf⟩

theorem mapM_beside [Inhabited β] {f : α → Except ε β} {items : List α} {results : List (α × β)}
    (h : (items.mapM fun a => do return (a, ← f a)) = .ok results) :
    ∃ g : α → β, results = items.map (fun a => (a, g a)) ∧ ∀ a ∈ items, f a = .ok (g a) := by
  have hvalue : ∀ {a b}, f a = .ok b → (f a).toOption.getD default = b := by
    intro a b h
    rw [h]
    rfl
  refine ⟨fun a => (f a).toOption.getD default, ?_, fun a ha => ?_⟩
  · have hall := mapM_ok h
    clear h
    induction hall with
    | nil => rfl
    | cons hab _ ih =>
      obtain ⟨b, hb, hab⟩ := bind_ok.mp hab
      cases hab
      rw [List.map_cons, ← ih]
      exact congrArg (List.cons · _) (congrArg (Prod.mk _) (hvalue hb).symm)
  · obtain ⟨b, -, hb⟩ := mapM_item h a ha
    obtain ⟨b, hb, -⟩ := bind_ok.mp hb
    exact hb.trans (congrArg Except.ok (hvalue hb).symm)

/-- A comprehension of items that do not raise. -/
theorem mapM_eq_map {f : α → Except ε β} {g : α → β} {items : List α}
    (h : ∀ a ∈ items, f a = .ok (g a)) : items.mapM f = .ok (items.map g) := by
  induction items with
  | nil => rfl
  | cons a items ih =>
    rw [List.mapM_cons, h a List.mem_cons_self, ih fun x hx => h x (List.mem_cons_of_mem _ hx)]
    rfl

/-- A comprehension none of whose items raises does not raise. -/
theorem mapM_succeeds {f : α → Except ε β} {items : List α} (h : ∀ a ∈ items, ∃ b, f a = .ok b) :
    ∃ results, items.mapM f = .ok results := by
  induction items with
  | nil => exact ⟨[], rfl⟩
  | cons a items ih =>
    obtain ⟨b, hb⟩ := h a List.mem_cons_self
    obtain ⟨bs, hbs⟩ := ih fun x hx => h x (List.mem_cons_of_mem _ hx)
    refine ⟨b :: bs, ?_⟩
    rw [List.mapM_cons]
    exact bind_ok.mpr ⟨b, hb, bind_ok.mpr ⟨bs, hbs, rfl⟩⟩

/-- A comprehension that keeps some of the items: as many as satisfy the test. -/
theorem mapM_filterMap_length {f : α → Except ε (Option β)} {p : α → Bool} {items : List α}
    (h : ∀ a ∈ items, ∃ b, f a = .ok b ∧ b.isSome = p a) :
    ∃ results, items.mapM f = .ok results ∧
      (results.filterMap id).length = items.countP p := by
  induction items with
  | nil => exact ⟨[], rfl, rfl⟩
  | cons a items ih =>
    obtain ⟨b, hb, hp⟩ := h a List.mem_cons_self
    obtain ⟨bs, hbs, hlen⟩ := ih fun x hx => h x (List.mem_cons_of_mem _ hx)
    refine ⟨b :: bs, ?_, ?_⟩
    · rw [List.mapM_cons]
      exact bind_ok.mpr ⟨b, hb, bind_ok.mpr ⟨bs, hbs, rfl⟩⟩
    · rw [List.countP_cons, ← hlen, ← hp]
      cases b <;> simp

end CortexHarness.Fallible
