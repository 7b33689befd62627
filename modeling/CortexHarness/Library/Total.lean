import Mathlib.Algebra.BigOperators.Group.List.Basic
import Mathlib.Algebra.Order.BigOperators.Group.List
import Mathlib.Algebra.Order.Group.Int
import Mathlib.Algebra.Ring.Int.Defs

/-!
# Totals over the parties of a system

The parties are a list, each named by its index. `total f` adds what each of them contributes;
when one party changes, the total changes by the difference (`total_set`). Counters that a program
keeps in step with its parties are proved equal to such a total.
-/

namespace CortexHarness.Total

variable {α : Type}

/-- What all parties contribute together. -/
def total (f : α → Int) (l : List α) : Int := (l.map f).sum

@[simp] theorem total_nil (f : α → Int) : total f [] = 0 := rfl

@[simp] theorem total_append_singleton (f : α → Int) (l : List α) (a : α) :
    total f (l ++ [a]) = total f l + f a := by
  simp [total]

theorem total_set {f : α → Int} {l : List α} {n : Nat} {a : α} (h : l[n]? = some a) (b : α) :
    total f (l.set n b) = total f l - f a + f b := by
  induction l generalizing n with
  | nil => simp at h
  | cons x l ih =>
    cases n with
    | zero =>
      obtain rfl : x = a := by simpa using h
      simp only [total, List.set_cons_zero, List.map_cons, List.sum_cons]
      omega
    | succ n =>
      have hl := ih (n := n) (by simpa using h)
      simp only [total, List.set_cons_succ, List.map_cons, List.sum_cons] at hl ⊢
      omega

theorem total_nonneg {f : α → Int} {l : List α} (h : ∀ a ∈ l, 0 ≤ f a) : 0 ≤ total f l := by
  refine List.sum_nonneg fun x hx => ?_
  obtain ⟨a, ha, rfl⟩ := List.mem_map.mp hx
  exact h a ha

/-- No party contributes more than the total. -/
theorem le_total {f : α → Int} {l : List α} (h : ∀ a ∈ l, 0 ≤ f a) {a : α} (ha : a ∈ l) :
    f a ≤ total f l := by
  refine List.single_le_sum (fun x hx => ?_) _ (List.mem_map_of_mem ha)
  obtain ⟨b, hb, rfl⟩ := List.mem_map.mp hx
  exact h b hb

theorem total_indicator (p : α → Bool) (l : List α) :
    total (fun t => if p t then 1 else 0) l = l.countP p := by
  induction l with
  | nil => rfl
  | cons t l ih =>
    simp only [total, List.map_cons, List.sum_cons, List.countP_cons] at ih ⊢
    rw [ih]
    split <;> push_cast <;> omega

theorem total_filter (f : α → Int) (p : α → Bool) (l : List α) :
    total (fun t => if p t then f t else 0) l = ((l.filter p).map f).sum := by
  induction l with
  | nil => rfl
  | cons t l ih =>
    simp only [total, List.map_cons, List.sum_cons, List.filter_cons] at ih ⊢
    rw [ih]
    split
    · rw [List.map_cons, List.sum_cons]
    · omega

end CortexHarness.Total
