import Mathlib.Data.List.Basic
import Mathlib.Data.List.Count
import Mathlib.Data.List.Perm.Basic

/-!
# The first rows of a ranking

A list is sorted by a test that lets rows tie, and cut after some rows. Which rows stay depends on
the order of the list only where the cut goes through a tie.

Results: `mem_cut_perm`; `Clear.map`, for rows seen through what the test reads of them.
-/

namespace CortexHarness.Ranking

variable {α : Type} {le : α → α → Bool} {rows rows' : List α} {n : Nat}

/-- The first rows of a list, if they are those that satisfy the test. -/
theorem take_countP {p : α → Bool} (h : rows.Pairwise fun a b => p b = true → p a = true) :
    rows.take (rows.countP p) = rows.filter p := by
  induction rows with
  | nil => rfl
  | cons a rows ih =>
    obtain ⟨ha, hrows⟩ := List.pairwise_cons.mp h
    cases hp : p a with
    | true =>
      rw [List.countP_cons_of_pos hp, List.take_succ_cons, List.filter_cons_of_pos hp, ih hrows]
    | false =>
      have hnone : ∀ b ∈ rows, ¬ p b = true := fun b hb hb' => by
        rw [ha b hb hb'] at hp
        cases hp
      rw [List.countP_cons_of_neg (by simp [hp]), List.countP_eq_zero.mpr hnone,
        List.filter_cons_of_neg (by simp [hp]), List.filter_eq_nil_iff.mpr hnone]
      rfl

theorem le_of_places (htotal : ∀ a b, (le a b || le b a) = true)
    (hsorted : rows.Pairwise fun a b => le a b = true) {i j : Nat} {a b : α} (hij : i ≤ j)
    (ha : rows[i]? = some a) (hb : rows[j]? = some b) : le a b = true := by
  obtain ⟨hi, rfl⟩ := List.getElem?_eq_some_iff.mp ha
  obtain ⟨hj, rfl⟩ := List.getElem?_eq_some_iff.mp hb
  rcases Nat.lt_or_eq_of_le hij with hlt | rfl
  · exact List.pairwise_iff_getElem.mp hsorted i j hi hj hlt
  · simpa using htotal rows[i] rows[i]

/-- The row after the cut does not tie with the last one before it. -/
def Clear (le : α → α → Bool) (n : Nat) (rows : List α) : Prop :=
  ∀ a b, (rows.mergeSort le)[n]? = some a → (rows.mergeSort le)[n + 1]? = some b → le b a = false

theorem clear_of_short (h : rows.length ≤ n + 1) : Clear le n rows := by
  intro a b _ hb
  obtain ⟨hlong, -⟩ := List.getElem?_eq_some_iff.mp hb
  rw [List.length_mergeSort] at hlong
  omega

/-- **A cut that goes through no tie** leaves the same rows, in whatever order they came. -/
theorem mem_cut_perm (htrans : ∀ a b c, le a b = true → le b c = true → le a c = true)
    (htotal : ∀ a b, (le a b || le b a) = true) (hperm : rows.Perm rows') (hclear : Clear le n rows)
    (x : α) : x ∈ (rows.mergeSort le).take (n + 1) ↔ x ∈ (rows'.mergeSort le).take (n + 1) := by
  have hsorted : (rows.mergeSort le).Pairwise fun a b => le a b = true :=
    List.pairwise_mergeSort htrans htotal rows
  have hsorted' : (rows'.mergeSort le).Pairwise fun a b => le a b = true :=
    List.pairwise_mergeSort htrans htotal rows'
  have hlength := hperm.length_eq
  rcases Nat.lt_or_ge (n + 1) rows.length with hlong | hshort
  · have hlong' : n + 1 < (rows.mergeSort le).length := by rwa [List.length_mergeSort]
    obtain ⟨b, hb⟩ : ∃ b, (rows.mergeSort le)[n + 1]? = some b :=
      ⟨_, List.getElem?_eq_getElem hlong'⟩
    obtain ⟨a, ha⟩ : ∃ a, (rows.mergeSort le)[n]? = some a :=
      ⟨_, List.getElem?_eq_getElem (Nat.lt_of_succ_lt hlong')⟩
    have hab := hclear a b ha hb
    -- The rows that stay are those before the first row that is cut off.
    let p (x : α) : Bool := !le b x
    have hmono : ∀ {rows : List α}, (rows.Pairwise fun a b => le a b = true) →
        rows.Pairwise fun a b => p b = true → p a = true := by
      intro rows h
      refine h.imp fun {x y} hxy hy => ?_
      simp only [p, Bool.not_eq_true'] at hy ⊢
      by_contra hx
      rw [htrans b x y (Bool.not_eq_false _ ▸ hx) hxy] at hy
      cases hy
    have hbefore : ∀ x ∈ (rows.mergeSort le).take (n + 1), p x = true := by
      intro x hx
      obtain ⟨i, hi, rfl⟩ := List.mem_take_iff_getElem.mp hx
      have hxa := le_of_places htotal hsorted (i := i) (j := n) (by omega)
        (List.getElem?_eq_getElem (by omega)) ha
      simp only [p, Bool.not_eq_true']
      by_contra hbx
      rw [htrans b _ a (Bool.not_eq_false _ ▸ hbx) hxa] at hab
      cases hab
    have hafter : ∀ x ∈ (rows.mergeSort le).drop (n + 1), ¬ p x = true := by
      intro x hx
      obtain ⟨i, hi, rfl⟩ := List.mem_drop_iff_getElem.mp hx
      have hbx := le_of_places htotal hsorted (i := n + 1) (j := n + 1 + i) (by omega) hb
        (List.getElem?_eq_getElem (by omega))
      simp [p, hbx]
    have hcount : (rows.mergeSort le).countP p = n + 1 := by
      rw [← List.take_append_drop (n + 1) (rows.mergeSort le), List.countP_append,
        List.countP_eq_length.mpr hbefore, List.countP_eq_zero.mpr hafter, List.length_take]
      omega
    have hsame := (List.mergeSort_perm rows le).trans
      (hperm.trans (List.mergeSort_perm rows' le).symm)
    have htake := take_countP (hmono hsorted)
    have htake' := take_countP (hmono hsorted')
    rw [← hsame.countP_eq, hcount] at htake'
    rw [hcount] at htake
    rw [htake, htake', List.mem_filter, List.mem_filter, hsame.mem_iff]
  · rw [List.take_of_length_le (by rwa [List.length_mergeSort]),
      List.take_of_length_le (by rwa [List.length_mergeSort, ← hlength]), List.mem_mergeSort,
      List.mem_mergeSort, hperm.mem_iff]

/-- The cut of rows is clear if it is of what the test reads of them. -/
theorem Clear.map {β : Type} {le' : β → β → Bool} {f : α → β} (hf : ∀ a b, le a b = le' (f a) (f b))
    (h : Clear le n rows) : Clear le' n (rows.map f) := by
  have hsort : (rows.map f).mergeSort le' = (rows.mergeSort le).map f :=
    (List.map_mergeSort fun a _ b _ => hf a b).symm
  intro x y hx hy
  rw [hsort, List.getElem?_map, Option.map_eq_some_iff] at hx hy
  obtain ⟨a, ha, rfl⟩ := hx
  obtain ⟨b, hb, rfl⟩ := hy
  rw [← hf]
  exact h a b ha hb

end CortexHarness.Ranking
