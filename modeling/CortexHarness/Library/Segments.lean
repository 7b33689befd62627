import Mathlib.Data.List.Basic
import Mathlib.Data.List.Count

/-!
# Segments of a sorted list

A predicate that holds of the first elements of a list and of no later one cuts it in two
(`Initial`): filtering by it takes that many elements (`filter_initial`), filtering by its negation
drops them. So what lies between two such predicates is a segment (`filter_between`), which is how
a page of a sorted table is computed with indices.
-/

namespace CortexHarness.Segments

variable {α : Type}

/-- `p` holds of the first elements of the list only. -/
def Initial (p : α → Bool) (l : List α) : Prop :=
  l.Pairwise fun a b => p b = true → p a = true

theorem filter_initial {p : α → Bool} {l : List α} (h : Initial p l) :
    l.filter p = l.take (l.countP p) := by
  induction l with
  | nil => rfl
  | cons a l ih =>
    obtain ⟨ha, hl⟩ := List.pairwise_cons.mp h
    by_cases hp : p a = true
    · rw [List.filter_cons_of_pos hp, List.countP_cons_of_pos hp, List.take_succ_cons, ih hl]
    · have hnone : ∀ b ∈ l, ¬ p b = true := fun b hb hpb => hp (ha b hb hpb)
      rw [List.filter_cons_of_neg hp, List.countP_cons_of_neg hp,
        List.countP_eq_zero.mpr hnone, List.take_zero]
      exact List.filter_eq_nil_iff.mpr hnone

theorem filter_not_initial {p : α → Bool} {l : List α} (h : Initial p l) :
    l.filter (fun a => !p a) = l.drop (l.countP p) := by
  induction l with
  | nil => rfl
  | cons a l ih =>
    obtain ⟨ha, hl⟩ := List.pairwise_cons.mp h
    by_cases hp : p a = true
    · rw [List.filter_cons_of_neg (by simp [hp]), List.countP_cons_of_pos hp, List.drop_succ_cons,
        ih hl]
    · have hnone : ∀ b ∈ l, ¬ p b = true := fun b hb hpb => hp (ha b hb hpb)
      rw [List.filter_cons_of_pos (by simp [hp]), List.countP_cons_of_neg hp,
        List.countP_eq_zero.mpr hnone, List.drop_zero]
      congr 1
      exact List.filter_eq_self.mpr fun b hb => by simp [hnone b hb]

/-- An element is in the part `p` holds of iff its index is. -/
theorem initial_getElem {p : α → Bool} {l : List α} (h : Initial p l) {i : Nat} {a : α}
    (ha : l[i]? = some a) : p a = true ↔ i < l.countP p := by
  induction l generalizing i with
  | nil => simp at ha
  | cons b l ih =>
    obtain ⟨hb, hl⟩ := List.pairwise_cons.mp h
    by_cases hp : p b = true
    · rw [List.countP_cons_of_pos hp]
      cases i with
      | zero =>
        obtain rfl : b = a := by simpa using ha
        simp [hp]
      | succ i =>
        rw [ih hl (by simpa using ha)]
        omega
    · have hnone : ∀ c ∈ l, ¬ p c = true := fun c hc hpc => hp (hb c hc hpc)
      rw [List.countP_cons_of_neg hp, List.countP_eq_zero.mpr hnone]
      refine iff_of_false ?_ (by omega)
      rcases List.mem_cons.mp (List.mem_of_getElem? ha) with rfl | hm
      · exact hp
      · exact hnone a hm

/-- **Between two initial parts.** -/
theorem filter_between {p q : α → Bool} {l : List α} (hp : Initial p l) (hq : Initial q l)
    (hpq : ∀ a ∈ l, p a = true → q a = true) :
    l.filter (fun a => !p a && q a) = (l.take (l.countP q)).drop (l.countP p) := by
  have hsub : Initial p (l.take (l.countP q)) := hp.sublist (List.take_sublist _ _)
  rw [← List.filter_filter, filter_initial hq, filter_not_initial hsub]
  congr 1
  rw [← filter_initial hq, List.countP_filter]
  refine List.countP_congr fun a ha => ?_
  have := hpq a ha
  simp only [Bool.and_eq_true]
  exact ⟨fun h => h.1, fun h => ⟨h, this h⟩⟩

end CortexHarness.Segments
