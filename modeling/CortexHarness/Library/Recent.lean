import Mathlib.Data.List.DropRight
import CortexHarness.Library.Table

/-!
# The most recent rows of a log

A history of at most `n` rows, kept in the order of the log: a new row takes the place of the one
with its key, and pushes out the oldest.

Results: `keyed_remember`, `length_remember`, `sublist_remember`, `getLast?_remember`: the keys stay
distinct, the length bounded, the order that of the log, and the last row is the newest;
`remember_eq_singleton`: when a row is all there is left.
-/

namespace CortexHarness.Table

variable {α κ : Type} [DecidableEq κ] {key : α → κ} {n : Nat} {t log : List α} {r : α}

/-- Take the row `r` into a history of at most `n` rows. -/
def remember (key : α → κ) (n : Nat) (r : α) (t : List α) : List α :=
  ((t.filter fun x => key x ≠ key r) ++ [r]).rtake n

theorem rtake_sublist (n : Nat) (t : List α) : (t.rtake n).Sublist t := List.drop_sublist _ _

theorem keyed_remember (h : Keyed key t) : Keyed key (remember key n r t) := by
  have hfresh : ∀ x ∈ t.filter fun x => key x ≠ key r, key x ≠ key r := fun x hx =>
    of_decide_eq_true (List.mem_filter.mp hx).2
  have happend := (h.filter fun x => decide (key x ≠ key r)).append_singleton hfresh
  exact happend.sublist ((rtake_sublist n _).map key)

omit [DecidableEq κ] in
theorem length_rtake_le (n : Nat) (t : List α) : (t.rtake n).length ≤ n := by
  unfold List.rtake
  rw [List.length_drop]
  omega

theorem length_remember : (remember key n r t).length ≤ n := length_rtake_le n _

theorem sublist_remember (h : t.Sublist log) : (remember key n r t).Sublist (log ++ [r]) :=
  (rtake_sublist n _).trans (((List.filter_sublist).trans h).append (List.Sublist.refl [r]))

theorem getLast?_remember (hn : 0 < n) : (remember key n r t).getLast? = some r := by
  obtain ⟨m, rfl⟩ := Nat.exists_eq_succ_of_ne_zero (Nat.ne_of_gt hn)
  unfold remember
  rw [List.rtake_concat_succ, List.getLast?_append, List.getLast?_singleton]
  rfl

/-- Only the new row is left, when all others had its key. -/
theorem remember_eq_singleton (hn : 1 < n) :
    remember key n r t = [r] ↔ ∀ x ∈ t, key x = key r := by
  obtain ⟨m, rfl⟩ : ∃ m, n = m + 2 := ⟨n - 2, by omega⟩
  have hfilter : (t.filter fun x => key x ≠ key r) = [] ↔ ∀ x ∈ t, key x = key r := by
    rw [List.filter_eq_nil_iff]
    simp
  have hrest : ∀ l : List α, l.rtake (m + 1) = [] ↔ l = [] := by
    intro l
    constructor
    · intro hnil
      have hlength := congrArg List.length hnil
      unfold List.rtake at hlength
      rw [List.length_drop, List.length_nil] at hlength
      exact List.length_eq_zero_iff.mp (by omega)
    · rintro rfl
      exact List.rtake_nil (m + 1)
  unfold remember
  rw [← hfilter, ← hrest, List.rtake_concat_succ]
  constructor
  · intro h
    exact List.append_cancel_right (h.trans (List.nil_append [r]).symm)
  · intro h
    rw [h, List.nil_append]

end CortexHarness.Table
