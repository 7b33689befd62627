import Mathlib.Data.Finset.Card
import Mathlib.Data.Finset.Dedup
import Mathlib.Data.Finset.Union

/-!
# The measure of a union of intervals

`mergeIntervals` adds up the lengths of the intervals that a sweep over the sorted starts merges.
`covered` is the set of points that half-open intervals cover.

Results:
* **`mergeIntervals_card`**: the sum is the number of points that are covered;
* `covered_subset`, `covered_perm`: what is covered depends on the set of intervals, and grows with
  it.
-/

namespace CortexHarness.Sweep

/-- `[start, end)` -/
abbrev Interval := Int × Int

/-- The order of pairs. -/
def pairLe (a b : Interval) : Bool := a.1 < b.1 || (a.1 == b.1 && a.2 ≤ b.2)

/-- The sweep: the total so far, the interval that is open, and those to come. -/
def sweep : Int → Interval → List Interval → Int
  | total, current, [] => total + (current.2 - current.1)
  | total, current, next :: rest =>
    if next.1 ≤ current.2 then
      sweep total (current.1, if current.2 < next.2 then next.2 else current.2) rest
    else sweep (total + (current.2 - current.1)) next rest

/-- The sum of the lengths of the merged intervals. -/
def mergeIntervals (intervals : List Interval) : Int :=
  match intervals.mergeSort pairLe with
  | [] => 0
  | first :: rest => sweep 0 first rest

/-- The points of an interval. -/
def points (i : Interval) : Finset Int :=
  ((List.range (i.2 - i.1).toNat).map fun (n : Nat) => i.1 + n).toFinset

/-- The points that some interval covers. -/
def covered (intervals : List Interval) : Finset Int := intervals.toFinset.biUnion points

variable {intervals intervals' : List Interval}

theorem mem_points {i : Interval} {x : Int} : x ∈ points i ↔ i.1 ≤ x ∧ x < i.2 := by
  simp only [points, List.mem_toFinset, List.mem_map, List.mem_range]
  constructor
  · rintro ⟨n, hn, rfl⟩
    omega
  · rintro ⟨hle, hlt⟩
    exact ⟨(x - i.1).toNat, by omega, by omega⟩

theorem card_points (i : Interval) : (points i).card = (i.2 - i.1).toNat := by
  have hnodup : ((List.range (i.2 - i.1).toNat).map fun (n : Nat) => i.1 + n).Nodup := by
    refine List.Nodup.map (fun a b hab => ?_) List.nodup_range
    omega
  rw [points, List.toFinset_card_of_nodup hnodup, List.length_map, List.length_range]

theorem mem_covered {x : Int} : x ∈ covered intervals ↔ ∃ i ∈ intervals, i.1 ≤ x ∧ x < i.2 := by
  simp [covered, mem_points]

theorem covered_cons (i : Interval) :
    covered (i :: intervals) = points i ∪ covered intervals := by
  ext x
  simp [mem_covered, mem_points]

theorem covered_subset (h : intervals ⊆ intervals') : covered intervals ⊆ covered intervals' := by
  intro x hx
  obtain ⟨i, hi, hin⟩ := mem_covered.mp hx
  exact mem_covered.mpr ⟨i, h hi, hin⟩

theorem covered_perm (h : intervals.Perm intervals') : covered intervals = covered intervals' :=
  Finset.Subset.antisymm (covered_subset h.subset) (covered_subset h.symm.subset)

theorem disjoint_of_later {i : Interval} (h : ∀ j ∈ intervals, i.2 < j.1) :
    Disjoint (points i) (covered intervals) := by
  rw [Finset.disjoint_left]
  intro x hx hx'
  obtain ⟨j, hj, hle, -⟩ := mem_covered.mp hx'
  have hlater := h j hj
  rw [mem_points] at hx
  omega

section Order

variable {a b c : Interval}

theorem pairLe_iff : pairLe a b = true ↔ a.1 < b.1 ∨ a.1 = b.1 ∧ a.2 ≤ b.2 := by
  simp [pairLe]

theorem pairLe_start (h : pairLe a b = true) : a.1 ≤ b.1 := by
  have hab := pairLe_iff.mp h
  omega

theorem pairLe_trans (hab : pairLe a b = true) (hbc : pairLe b c = true) : pairLe a c = true := by
  rw [pairLe_iff] at *
  omega

theorem pairLe_total (a b : Interval) : (pairLe a b || pairLe b a) = true := by
  rw [Bool.or_eq_true, pairLe_iff, pairLe_iff]
  omega

end Order

/-- The sweep over intervals in the order of their starts: what it has added up, and the points
that the open interval and the others cover. -/
theorem sweep_card (rest : List Interval) (total : Int) (current : Interval)
    (hcurrent : current.1 ≤ current.2) (hle : ∀ i ∈ rest, i.1 ≤ i.2)
    (hsorted : (current :: rest).Pairwise fun i j => i.1 ≤ j.1) :
    sweep total current rest = total + (covered (current :: rest)).card := by
  induction rest generalizing total current with
  | nil =>
    rw [covered_cons, sweep]
    simp only [covered, List.toFinset_nil, Finset.biUnion_empty, Finset.union_empty, card_points]
    omega
  | cons next rest ih =>
    obtain ⟨hstart, hrest⟩ := List.pairwise_cons.mp hsorted
    have hnext := hle next List.mem_cons_self
    have hfirst := hstart next List.mem_cons_self
    have hle' : ∀ i ∈ rest, i.1 ≤ i.2 := fun i hi => hle i (List.mem_cons_of_mem _ hi)
    rw [sweep]
    split
    next hmerge =>
      -- the two intervals are one
      have hjoin : covered (current :: next :: rest) =
          covered ((current.1, if current.2 < next.2 then next.2 else current.2) :: rest) := by
        rw [covered_cons, covered_cons, covered_cons, ← Finset.union_assoc]
        congr 1
        ext x
        simp only [Finset.mem_union, mem_points]
        split <;> omega
      rw [hjoin]
      refine ih total _ (by dsimp only; split <;> omega) hle' (List.pairwise_cons.mpr ⟨?_, ?_⟩)
      · exact fun i hi => hstart i (List.mem_cons_of_mem _ hi)
      · exact (List.pairwise_cons.mp hrest).2
    next hapart =>
      have hlater : ∀ i ∈ next :: rest, current.2 < i.1 := by
        intro i hi
        rcases List.mem_cons.mp hi with rfl | hi
        · omega
        · have hafter := (List.pairwise_cons.mp hrest).1 i hi
          omega
      rw [ih _ next hnext hle' hrest, covered_cons current,
        Finset.card_union_of_disjoint (disjoint_of_later hlater), card_points]
      push_cast
      omega

/-- **The sweep measures the union.** -/
theorem mergeIntervals_card (h : ∀ i ∈ intervals, i.1 ≤ i.2) :
    mergeIntervals intervals = (covered intervals).card := by
  have hperm := List.mergeSort_perm intervals pairLe
  have hpairs : (intervals.mergeSort pairLe).Pairwise fun i j => pairLe i j = true :=
    List.pairwise_mergeSort (fun a b c => @pairLe_trans a b c) pairLe_total intervals
  have hsorted : (intervals.mergeSort pairLe).Pairwise fun i j => i.1 ≤ j.1 :=
    hpairs.imp pairLe_start
  rw [← covered_perm hperm]
  have hle : ∀ i ∈ intervals.mergeSort pairLe, i.1 ≤ i.2 := fun i hi => h i (hperm.subset hi)
  unfold mergeIntervals
  generalize intervals.mergeSort pairLe = sorted at *
  cases sorted with
  | nil => simp [covered]
  | cons first rest =>
    dsimp only
    rw [sweep_card rest 0 first (hle first List.mem_cons_self)
      (fun i hi => hle i (List.mem_cons_of_mem _ hi)) hsorted, Int.zero_add]

end CortexHarness.Sweep
