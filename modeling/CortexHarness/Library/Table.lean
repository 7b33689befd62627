import Mathlib.Data.List.Basic
import Mathlib.Data.List.Nodup
import Mathlib.Data.List.Sort
import Mathlib.Algebra.BigOperators.Group.List.Basic
import Mathlib.Algebra.GroupWithZero.Nat

/-!
# Tables: lists of rows read through a key

The relational vocabulary of a small embedded store. A table is a list of rows in insertion order;
`SELECT … WHERE key = k` is `lookup`, `UPDATE … WHERE p` is `updateWhere`, `INSERT` appends and
`DELETE … WHERE p` filters. A primary key is `Keyed key t`: no two rows share a key.

Results:
* an update that keeps every key keeps `Keyed` and commutes with `lookup` (`lookup_updateWhere`);
* `lookup_eq_some`: under a primary key, looking a key up is being the row with that key;
* `countP_updateKey`: updating one keyed row changes a count by what that row contributes;
* `sum_countP_groups`: over distinct groups that cover the rows, the counts add up;
* `filter_map_fixed` and the lemmas beside it: what leaves a selection of rows alone.
-/

namespace CortexHarness.Table

variable {α κ : Type}

/-- `UPDATE t SET row = f row WHERE p row`. -/
def updateWhere (p : α → Bool) (f : α → α) (t : List α) : List α :=
  t.map fun r => if p r then f r else r

/-- The row stored under `k`. -/
def lookup [DecidableEq κ] (key : α → κ) (k : κ) (t : List α) : Option α :=
  t.find? fun r => decide (key r = k)

/-- `t[key r] = r` on an ordered dictionary: replace the row with that key, or add one at the end. -/
def assign [DecidableEq κ] (key : α → κ) (r : α) (t : List α) : List α :=
  if t.any fun x => decide (key x = key r) then
    updateWhere (fun x => decide (key x = key r)) (fun _ => r) t
  else t ++ [r]

/-- A primary key: no two rows share one. -/
def Keyed (key : α → κ) (t : List α) : Prop := (t.map key).Nodup

theorem eq_of_keyed {key : α → κ} {t : List α} (h : Keyed key t) {r r' : α} (hr : r ∈ t)
    (hr' : r' ∈ t) (hk : key r = key r') : r = r' :=
  List.inj_on_of_nodup_map h hr hr' hk

section Lookup

variable [DecidableEq κ] {key : α → κ} {k : κ} {t : List α} {r : α}

theorem lookup_mem (h : lookup key k t = some r) : r ∈ t := List.mem_of_find?_eq_some h

theorem lookup_key (h : lookup key k t = some r) : key r = k := by
  have := List.find?_some h
  simpa using this

theorem lookup_eq_none : lookup key k t = none ↔ ∀ r ∈ t, key r ≠ k := by
  simp [lookup, List.find?_eq_none]

theorem lookup_of_mem (h : Keyed key t) (hr : r ∈ t) : lookup key (key r) t = some r := by
  cases hl : lookup key (key r) t with
  | none => exact absurd rfl (lookup_eq_none.mp hl r hr)
  | some r' => rw [eq_of_keyed h hr (lookup_mem hl) (lookup_key hl).symm]

/-- Under a primary key, the row found is the row with that key. -/
theorem lookup_eq_some (h : Keyed key t) : lookup key k t = some r ↔ r ∈ t ∧ key r = k := by
  constructor
  · exact fun hl => ⟨lookup_mem hl, lookup_key hl⟩
  · rintro ⟨hr, rfl⟩
    exact lookup_of_mem h hr

theorem lookup_append (t t' : List α) :
    lookup key k (t ++ t') = (lookup key k t).or (lookup key k t') := by
  simp [lookup, List.find?_append]

theorem lookup_singleton (r : α) : lookup key k [r] = if key r = k then some r else none := by
  by_cases h : key r = k <;> simp [lookup, h]

theorem lookup_map (g : α → α) (hg : ∀ r ∈ t, key (g r) = key r) :
    lookup key k (t.map g) = (lookup key k t).map g := by
  induction t with
  | nil => rfl
  | cons x t ih =>
    have hx := hg x List.mem_cons_self
    have iht := ih fun r hr => hg r (List.mem_cons_of_mem _ hr)
    simp only [lookup, List.map_cons, List.find?_cons] at iht ⊢
    rw [hx]
    split
    · rfl
    · exact iht

theorem lookup_filter {p : α → Bool} (hp : ∀ r ∈ t, key r = k → p r = true) :
    lookup key k (t.filter p) = lookup key k t := by
  induction t with
  | nil => rfl
  | cons x t ih =>
    have iht := ih fun r hr => hp r (List.mem_cons_of_mem _ hr)
    by_cases hx : key x = k
    · simp [lookup, hp x List.mem_cons_self hx, hx]
    · simp only [lookup] at iht ⊢
      by_cases hpx : p x = true
      · simp [hpx, hx, iht]
      · simp [hpx, hx, iht]

end Lookup

section Update

variable {key : α → κ} {p : α → Bool} {f : α → α} {t : List α}

theorem mem_updateWhere {r' : α} :
    r' ∈ updateWhere p f t ↔ ∃ r ∈ t, (if p r then f r else r) = r' := by
  simp [updateWhere]

theorem map_key_map {g : α → α} (hg : ∀ r ∈ t, key (g r) = key r) :
    (t.map g).map key = t.map key := by
  rw [List.map_map]
  exact List.map_congr_left hg

theorem Keyed.map {g : α → α} (h : Keyed key t) (hg : ∀ r ∈ t, key (g r) = key r) :
    Keyed key (t.map g) := by
  unfold Keyed
  rw [map_key_map hg]
  exact h

theorem Keyed.updateWhere (h : Keyed key t) (hf : ∀ r, key (f r) = key r) :
    Keyed key (updateWhere p f t) := by
  refine h.map fun r _ => ?_
  split
  · exact hf r
  · rfl

theorem Keyed.filter (h : Keyed key t) (p : α → Bool) : Keyed key (t.filter p) :=
  h.sublist (List.filter_sublist.map key)

theorem Keyed.append_singleton {r : α} (h : Keyed key t) (hr : ∀ x ∈ t, key x ≠ key r) :
    Keyed key (t ++ [r]) := by
  unfold Keyed
  rw [List.map_append, List.map_singleton]
  refine List.Nodup.append h (List.nodup_singleton _) ?_
  intro k hk hk'
  obtain ⟨x, hx, rfl⟩ := List.mem_map.mp hk
  exact hr x hx (List.mem_singleton.mp hk')

theorem assign_new [DecidableEq κ] {r : α} (h : ∀ x ∈ t, key x ≠ key r) :
    assign key r t = t ++ [r] := by
  unfold assign
  rw [if_neg]
  simpa using h

theorem assign_old [DecidableEq κ] {r x : α} (hx : x ∈ t) (h : key x = key r) :
    assign key r t = updateWhere (fun y => decide (key y = key r)) (fun _ => r) t := by
  unfold assign
  rw [if_pos]
  simpa using ⟨x, hx, h⟩

/-- The row found after an assignment. -/
theorem lookup_assign [DecidableEq κ] (r : α) (k : κ) :
    lookup key k (assign key r t) = if key r = k then some r else lookup key k t := by
  by_cases h : ∃ x ∈ t, key x = key r
  · obtain ⟨x, hx, he⟩ := h
    have hkeys : ∀ y ∈ t, key (if decide (key y = key r) then r else y) = key y := by
      intro y _
      by_cases hy : key y = key r <;> simp [hy]
    rw [assign_old hx he, updateWhere, lookup_map _ hkeys]
    cases hl : lookup key k t with
    | none =>
      have hk : key r ≠ k := fun hk => lookup_eq_none.mp hl x hx (he.trans hk)
      rw [if_neg hk]
      rfl
    | some y =>
      have hy := lookup_key hl
      by_cases hk : key r = k
      · simp [hy, hk]
      · have hne : key y ≠ key r := fun h => hk (h.symm.trans hy)
        simp [hne, hk]
  · rw [assign_new fun x hx he => h ⟨x, hx, he⟩, lookup_append, lookup_singleton]
    by_cases hk : key r = k
    · subst hk
      rw [lookup_eq_none.mpr fun x hx he => h ⟨x, hx, he⟩]
      rfl
    · rw [if_neg hk, if_neg hk, Option.or_none]

theorem foldl_assign [DecidableEq κ] {rows : List α} (h : Keyed key (t ++ rows)) :
    rows.foldl (fun t r => assign key r t) t = t ++ rows := by
  induction rows generalizing t with
  | nil => simp
  | cons r rows ih =>
    have hr : ∀ x ∈ t, key x ≠ key r := by
      intro x hx he
      have hd := (List.nodup_append.mp (by simpa [Keyed] using h)).2.2
      exact hd (key x) (List.mem_map_of_mem hx) (key r) (by simp) he
    rw [List.foldl_cons, assign_new hr, ih (by simpa using h)]
    simp

theorem lookup_updateWhere [DecidableEq κ] {k : κ} (hf : ∀ r, key (f r) = key r) :
    lookup key k (updateWhere p f t) =
      (lookup key k t).map fun r => if p r then f r else r := by
  refine lookup_map _ fun r _ => ?_
  split
  · exact hf r
  · rfl

/-- A map that fixes the selected rows, and selects no other row, leaves the selection alone. -/
theorem filter_map_fixed {q : α → Bool} {g : α → α} (hq : ∀ r ∈ t, q (g r) = q r)
    (hg : ∀ r ∈ t, q r = true → g r = r) : (t.map g).filter q = t.filter q := by
  induction t with
  | nil => rfl
  | cons x t ih =>
    have iht := ih (fun r hr => hq r (List.mem_cons_of_mem _ hr))
      fun r hr => hg r (List.mem_cons_of_mem _ hr)
    have hx := hq x List.mem_cons_self
    by_cases h : q x = true
    · rw [List.map_cons, List.filter_cons_of_pos (hx.trans h), List.filter_cons_of_pos h, iht,
        hg x List.mem_cons_self h]
    · rw [List.map_cons, List.filter_cons_of_neg (hx ▸ h), List.filter_cons_of_neg h, iht]

/-- Rows outside the selection leave the selection alone. -/
theorem filter_append_none {q : α → Bool} {t' : List α} (h : ∀ r ∈ t', q r = false) :
    (t ++ t').filter q = t.filter q := by
  have : t'.filter q = [] := List.filter_eq_nil_iff.mpr fun r hr => by simp [h r hr]
  rw [List.filter_append, this, List.append_nil]

/-- A filter that keeps the selected rows leaves the selection alone. -/
theorem filter_filter_keep {q p : α → Bool} (h : ∀ r ∈ t, q r = true → p r = true) :
    (t.filter p).filter q = t.filter q := by
  rw [List.filter_filter]
  refine List.filter_congr fun r hr => ?_
  cases hq : q r with
  | false => rfl
  | true => exact h r hr hq

end Update

section Count

variable [DecidableEq κ] {key : α → κ} {t : List α}

theorem updateKey_cons_of_eq {f : α → α} {r : α} (h : Keyed key (r :: t)) :
    updateWhere (fun x => decide (key x = key r)) f (r :: t) = f r :: t := by
  have ht : ∀ x ∈ t, ¬ key x = key r := fun x hx he => by
    have hnd := (List.nodup_cons.mp (show ((r :: t).map key).Nodup from h)).1
    exact hnd (List.mem_map.mpr ⟨x, hx, he⟩)
  unfold updateWhere
  rw [List.map_cons]
  congr 1
  · simp
  · refine (List.map_congr_left fun x hx => ?_).trans (List.map_id t)
    simp [ht x hx]

/-- Updating the row stored under one key trades its contribution to a count. -/
theorem countP_updateKey (h : Keyed key t) {r : α} (hr : r ∈ t) (f : α → α) (q : α → Bool) :
    (updateWhere (fun x => decide (key x = key r)) f t).countP q + (if q r then 1 else 0) =
      t.countP q + (if q (f r) then 1 else 0) := by
  induction t with
  | nil => exact absurd hr List.not_mem_nil
  | cons x t ih =>
    have hnd := List.nodup_cons.mp (show ((x :: t).map key).Nodup from h)
    rcases List.mem_cons.mp hr with rfl | hrt
    · rw [updateKey_cons_of_eq h, List.countP_cons, List.countP_cons]
      omega
    · have hx : ¬ key x = key r := fun he =>
        hnd.1 (he ▸ List.mem_map.mpr ⟨r, hrt, rfl⟩)
      have := ih hnd.2 hrt
      have hcons : updateWhere (fun y => decide (key y = key r)) f (x :: t) =
          x :: updateWhere (fun y => decide (key y = key r)) f t := by
        simp [updateWhere, hx]
      rw [hcons, List.countP_cons, List.countP_cons]
      omega

/-- Two counts agree and one predicate implies the other: they hold of the same rows. -/
theorem all_of_countP_eq {p q : α → Bool} (hpq : ∀ r, q r = true → p r = true)
    (h : t.countP p = t.countP q) : ∀ r ∈ t, p r = true → q r = true := by
  induction t with
  | nil => exact fun r hr => absurd hr List.not_mem_nil
  | cons x t ih =>
    have hle : t.countP q ≤ t.countP p := List.countP_mono_left fun y _ => hpq y
    rw [List.countP_cons, List.countP_cons] at h
    have hx : p x = true → q x = true := by
      intro hp
      by_contra hq
      rw [if_pos hp, if_neg hq] at h
      omega
    have ht : t.countP p = t.countP q := by
      by_cases hp : p x = true
      · rw [if_pos hp, if_pos (hx hp)] at h
        omega
      · have hq : ¬ q x = true := fun hq => hp (hpq x hq)
        rw [if_neg hp, if_neg hq] at h
        omega
    intro r hr
    rcases List.mem_cons.mp hr with rfl | hr
    · exact hx
    · exact ih ht r hr

/-- A count of at most one is met by at most one row. -/
theorem eq_of_countP_le_one {p : α → Bool} (h : t.countP p ≤ 1) {r r' : α} (hr : r ∈ t)
    (hr' : r' ∈ t) (hp : p r = true) (hp' : p r' = true) : r = r' := by
  have hf : (t.filter p).length ≤ 1 := by rwa [← List.countP_eq_length_filter]
  have hm := List.mem_filter.mpr ⟨hr, hp⟩
  have hm' := List.mem_filter.mpr ⟨hr', hp'⟩
  match hl : t.filter p, hf with
  | [], _ => rw [hl] at hm; cases hm
  | [x], _ =>
    rw [hl] at hm hm'
    rw [List.mem_singleton.mp hm, List.mem_singleton.mp hm']

theorem sum_indicator {ks : List κ} (h : ks.Nodup) {k : κ} (hk : k ∈ ks) (n : Nat) :
    (ks.map fun j => if k = j then n else 0).sum = n := by
  induction ks with
  | nil => cases hk
  | cons j ks ih =>
    obtain ⟨hj, hnd⟩ := List.nodup_cons.mp h
    rw [List.map_cons, List.sum_cons]
    rcases List.mem_cons.mp hk with rfl | hk
    · have hzero : (ks.map fun j => if k = j then n else 0).sum = 0 := by
        refine List.sum_eq_zero fun x hx => ?_
        obtain ⟨i, hi, rfl⟩ := List.mem_map.mp hx
        have hne : k ≠ i := fun he => hj (he ▸ hi)
        exact if_neg hne
      rw [if_pos rfl, hzero, Nat.add_zero]
    · have hne : k ≠ j := fun he => hj (he ▸ hk)
      rw [if_neg hne, ih hnd hk, Nat.zero_add]

/-- Counting by group: over distinct groups that cover the rows, the counts add up. -/
theorem sum_countP_groups {ks : List κ} (h : ks.Nodup) (hk : ∀ r ∈ t, key r ∈ ks) (p : α → Bool) :
    (ks.map fun k => t.countP fun r => decide (key r = k) && p r).sum = t.countP p := by
  induction t with
  | nil => simp
  | cons x t ih =>
    have hx := sum_indicator h (hk x List.mem_cons_self) (if p x then 1 else 0)
    have iht := ih fun r hr => hk r (List.mem_cons_of_mem _ hr)
    have hsplit : ∀ k, (x :: t).countP (fun r => decide (key r = k) && p r) =
        t.countP (fun r => decide (key r = k) && p r) +
          if key x = k then (if p x then 1 else 0) else 0 := by
      intro k
      rw [List.countP_cons]
      by_cases hxk : key x = k <;> simp [hxk]
    simp only [hsplit, List.sum_map_add, iht, hx, List.countP_cons]

end Count

end CortexHarness.Table
