import Mathlib.Data.List.Pairwise
import Mathlib.Data.Prod.Lex

/-!
# Nested intervals and the innermost one

Intervals of a linear order, given by their first and last points. `NestedOrApart i j`: one lies
properly inside the other, or they have no point in common. Items carry an interval through `span`.

Results:
* `exists_innermost`: of items around one point whose intervals are laminar, one is inside all the
  others, and `Innermost.unique` that there is only one;
* `greatest_span`: the item with the greatest pair of first and last point starts where the
  innermost one does, and is the longest that starts there.
-/

namespace CortexHarness.Laminar

variable {α β : Type} [LinearOrder α]

def Covers (i : α × α) (x : α) : Prop := i.1 ≤ x ∧ x ≤ i.2

/-- `i` lies properly inside `j`. -/
def Inside (i j : α × α) : Prop := j.1 ≤ i.1 ∧ i.2 ≤ j.2 ∧ i ≠ j

def Apart (i j : α × α) : Prop := i.2 < j.1 ∨ j.2 < i.1

def NestedOrApart (i j : α × α) : Prop := Inside i j ∨ Inside j i ∨ Apart i j

variable {i j k : α × α} {x : α}

theorem Inside.trans (hij : Inside i j) (hjk : Inside j k) : Inside i k := by
  refine ⟨hjk.1.trans hij.1, hij.2.1.trans hjk.2.1, ?_⟩
  rintro rfl
  exact hij.2.2 (Prod.ext (le_antisymm hjk.1 hij.1) (le_antisymm hij.2.1 hjk.2.1))

theorem NestedOrApart.symm (h : NestedOrApart i j) : NestedOrApart j i := by
  rcases h with h | h | h
  · exact .inr (.inl h)
  · exact .inl h
  · exact .inr (.inr h.symm)

/-- Laminar intervals around one point are nested. -/
theorem NestedOrApart.nested (h : NestedOrApart i j) (hi : Covers i x) (hj : Covers j x) :
    Inside i j ∨ Inside j i := by
  rcases h with h | h | h | h
  · exact .inl h
  · exact .inr h
  · exact absurd (hi.2.trans_lt h) (not_lt.mpr hj.1)
  · exact absurd (hj.2.trans_lt h) (not_lt.mpr hi.1)

/-! ## The innermost item -/

variable (span : β → α × α)

/-- Every other item lies around `b`. -/
def Innermost (items : List β) (b : β) : Prop :=
  b ∈ items ∧ ∀ c ∈ items, c ≠ b → Inside (span b) (span c)

/-- The intervals of the items are laminar, and all of them cover `x`. -/
structure Around (items : List β) (x : α) : Prop where
  laminar : items.Pairwise fun b c => NestedOrApart (span b) (span c)
  covers : ∀ b ∈ items, Covers (span b) x

variable {span} {items : List β} {b c : β}

theorem Innermost.unique (hb : Innermost span items b) (hc : Innermost span items c) : b = c := by
  by_contra hne
  have hbc := hb.2 c hc.1 (Ne.symm hne)
  have hcb := hc.2 b hb.1 hne
  exact (hbc.trans hcb).2.2 rfl

theorem exists_innermost (h : Around span items x) (hne : items ≠ []) :
    ∃ b, Innermost span items b := by
  induction items with
  | nil => exact absurd rfl hne
  | cons a items ih =>
    obtain ⟨hhead, htail⟩ := List.pairwise_cons.mp h.laminar
    by_cases hitems : items = []
    · subst hitems
      exact ⟨a, List.mem_singleton_self a, fun c hc hca => absurd (List.mem_singleton.mp hc) hca⟩
    · obtain ⟨b, hb⟩ := ih ⟨htail, fun c hc => h.covers c (List.mem_cons_of_mem _ hc)⟩ hitems
      have hcb := h.covers b (List.mem_cons_of_mem _ hb.1)
      rcases (hhead b hb.1).nested (h.covers a List.mem_cons_self) hcb with hab | hba
      · -- the new item is inside the innermost one of the others
        refine ⟨a, List.mem_cons_self, fun c hc hca => ?_⟩
        have hc := (List.mem_cons.mp hc).resolve_left hca
        by_cases hcb : c = b
        · exact hcb ▸ hab
        · exact hab.trans (hb.2 c hc hcb)
      · refine ⟨b, List.mem_cons_of_mem _ hb.1, fun c hc hcb => ?_⟩
        rcases List.mem_cons.mp hc with rfl | hc
        · exact hba
        · exact hb.2 c hc hcb

/-- Items around one point are told apart by their intervals. -/
theorem Around.eq_of_span_eq (h : Around span items x) (hb : b ∈ items) (hc : c ∈ items)
    (he : span b = span c) : b = c := by
  by_contra hne
  have hsymm : Std.Symm fun b c : β => NestedOrApart (span b) (span c) := ⟨fun _ _ h => h.symm⟩
  have hnested := List.Pairwise.forall h.laminar hb hc hne
  rcases hnested.nested (h.covers b hb) (h.covers c hc) with hi | hi
  · exact hi.2.2 he
  · exact hi.2.2 he.symm

/-- A change of the items that keeps their intervals keeps the innermost one. -/
theorem innermost_map {f : β → β} (hf : ∀ c, span (f c) = span c) (h : Around span items x)
    {b' : β} : Innermost span (items.map f) b' ↔ ∃ b, Innermost span items b ∧ f b = b' := by
  constructor
  · rintro ⟨hb', hinside⟩
    obtain ⟨b, hb, rfl⟩ := List.mem_map.mp hb'
    refine ⟨b, ⟨hb, fun c hc hcb => ?_⟩, rfl⟩
    have hne : f c ≠ f b := fun he =>
      hcb (h.eq_of_span_eq hc hb (by rw [← hf c, ← hf b, he]))
    have hin := hinside (f c) (List.mem_map_of_mem hc) hne
    rwa [hf, hf] at hin
  · rintro ⟨b, hb, rfl⟩
    refine ⟨List.mem_map_of_mem hb.1, fun c' hc' hne => ?_⟩
    obtain ⟨c, hc, rfl⟩ := List.mem_map.mp hc'
    rw [hf, hf]
    exact hb.2 c hc fun he => hne (he ▸ rfl)

/-! ## The last item to start -/

/-- **The greatest pair**: of the items that start where the innermost one does, the longest. -/
theorem greatest_span {s : β} (hb : Innermost span items b) (hs : s ∈ items)
    (hmax : ∀ c ∈ items, toLex (span c) ≤ toLex (span s)) :
    (span s).1 = (span b).1 ∧ ∀ c ∈ items, (span c).1 = (span b).1 → (span c).2 ≤ (span s).2 := by
  have hfirst : (span s).1 = (span b).1 := by
    have hle : (span b).1 ≤ (span s).1 := by
      rcases Prod.Lex.toLex_le_toLex.mp (hmax b hb.1) with hlt | ⟨heq, -⟩
      · exact hlt.le
      · exact heq.le
    by_cases hsb : s = b
    · rw [hsb]
    · exact le_antisymm (hb.2 s hs hsb).1 hle
  refine ⟨hfirst, fun c hc hcb => ?_⟩
  rcases Prod.Lex.toLex_le_toLex.mp (hmax c hc) with hlt | ⟨-, hle⟩
  · exact absurd (hcb.trans hfirst.symm) hlt.ne
  · exact hle

end CortexHarness.Laminar
