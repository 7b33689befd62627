import Mathlib.Data.List.Basic
import Mathlib.Data.List.Induction
import Mathlib.Algebra.GroupWithZero.Nat

/-!
# Blocks laid end to end

`offset sizes i` is where block `i` starts when blocks of the given sizes follow each other, and
`bisect` is the binary search for the last index with a downward closed property.

Results: `offset_succ`, `offset_mono` and `offset_lt` order the starts; `layout_eq` is the loop that
fills the table; `bisect_eq` says what the search finds.
-/

namespace CortexHarness.Offsets

variable {sizes : List Nat} {i j : Nat}

/-- Where block `i` starts. -/
def offset (sizes : List Nat) (i : Nat) : Nat := (sizes.take i).sum

@[simp] theorem offset_zero : offset sizes 0 = 0 := rfl

theorem offset_cons (size : Nat) (sizes : List Nat) (i : Nat) :
    offset (size :: sizes) (i + 1) = size + offset sizes i := by
  unfold offset
  rw [List.take_succ_cons, List.sum_cons]

theorem offset_succ (h : i < sizes.length) : offset sizes (i + 1) = offset sizes i + sizes[i] := by
  unfold offset
  rw [List.take_add_one, List.getElem?_eq_getElem h, List.sum_append]
  simp

theorem offset_le_succ (sizes : List Nat) (i : Nat) : offset sizes i ≤ offset sizes (i + 1) := by
  by_cases hi : i < sizes.length
  · rw [offset_succ hi]
    omega
  · have htake : sizes.take (i + 1) = sizes.take i := by
      rw [List.take_of_length_le (by omega : sizes.length ≤ i + 1),
        List.take_of_length_le (by omega : sizes.length ≤ i)]
    exact Nat.le_of_eq (congrArg List.sum htake.symm)

theorem offset_mono (h : i ≤ j) : offset sizes i ≤ offset sizes j := by
  obtain ⟨n, rfl⟩ := Nat.exists_eq_add_of_le h
  clear h
  induction n with
  | zero => exact Nat.le_refl _
  | succ n ih => exact Nat.le_trans ih (offset_le_succ sizes (i + n))

/-- Blocks that are not empty start one after the other. -/
theorem offset_lt (hpos : ∀ n ∈ sizes, 0 < n) (h : i < j) (hj : j ≤ sizes.length) :
    offset sizes i < offset sizes j := by
  have hi : i < sizes.length := by omega
  have hsize := hpos _ (List.getElem_mem hi)
  have hle : offset sizes (i + 1) ≤ offset sizes j := offset_mono h
  rw [offset_succ hi] at hle
  omega

/-- The loop that records where each block starts. -/
def layout (sizes : List Nat) : List Nat × Nat :=
  sizes.foldl (fun state size => (state.1 ++ [state.2], state.2 + size)) ([], 0)

theorem layout_eq (sizes : List Nat) :
    layout sizes = ((List.range sizes.length).map (offset sizes), offset sizes sizes.length) := by
  induction sizes using List.reverseRecOn with
  | nil => rfl
  | append_singleton sizes size ih =>
    have hold : ∀ i ≤ sizes.length, offset (sizes ++ [size]) i = offset sizes i := by
      intro i hi
      unfold offset
      rw [List.take_append_of_le_length hi]
    unfold layout at ih ⊢
    rw [List.foldl_append, ih, List.length_append, List.length_singleton, List.range_succ,
      List.map_append]
    simp only [List.foldl_cons, List.foldl_nil, List.map_cons, List.map_nil]
    rw [hold _ (Nat.le_refl _), offset_succ (by simp), hold _ (Nat.le_refl _)]
    refine Prod.ext ?_ (by simp)
    refine congrArg (· ++ [_]) (List.map_congr_left fun i hi => ?_)
    exact (hold i (Nat.le_of_lt (List.mem_range.mp hi))).symm

/-! ## Binary search -/

/-- The last index between `low` and `high` with the property. -/
def bisect (p : Nat → Bool) (low high : Nat) : Nat :=
  if _h : low < high then
    let mid := (low + high + 1) / 2
    if p mid then bisect p mid high else bisect p low (mid - 1)
  else low
termination_by high - low

/-- The search finds the last index with the property. -/
theorem bisect_eq {p : Nat → Bool} {low high i : Nat} (hlow : low ≤ i) (hhigh : i ≤ high)
    (hp : ∀ j ≤ high, p j = true ↔ j ≤ i) : bisect p low high = i := by
  induction low, high using bisect.induct p with
  | case1 low high hlt mid hmid ih =>
    rw [bisect, dif_pos hlt]
    simp only
    rw [if_pos hmid]
    have hle : mid ≤ i := (hp mid (by omega)).mp hmid
    exact ih hle hhigh hp
  | case2 low high hlt mid hmid ih =>
    rw [bisect, dif_pos hlt]
    simp only
    rw [if_neg hmid]
    have hgt : ¬ mid ≤ i := fun hle => hmid ((hp mid (by omega)).mpr hle)
    exact ih hlow (by omega) fun j hj => hp j (by omega)
  | case3 low high hlt =>
    rw [bisect, dif_neg hlt]
    omega

end CortexHarness.Offsets
