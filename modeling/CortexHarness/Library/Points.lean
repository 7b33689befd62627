import Mathlib.Logic.Function.Basic
import Mathlib.Data.List.Nodup

/-!
# Stores that map keys to values

A store is a function from keys to optional values: a collection of vector points, or the nodes of a
label merged on one property.

* `upsert` writes rows one after the other, `deleteWhere` removes what a predicate selects;
* `batches` cuts a list into pieces of one size, and writing a list piece by piece is writing it.

Results:
* `upsert_other`, `upsert_row`: what a key holds after an upsert;
* `upsert_again`: rows already written under the same keys leave no trace;
* `Holds.upsert`, `Holds.deleteWhere`: the rows that a store holds exactly, after either;
* `Holds.unique`: a store that holds rows exactly tells them apart by key;
* `flatten_take_batches`, `upsert_batches`: the first batches are a prefix of the list, all of them
  are the list.
-/

namespace CortexHarness.Points

variable {κ β : Type} [DecidableEq κ]

/-- Write every row under its key. -/
def upsert (rows : List (κ × β)) (s : κ → Option β) : κ → Option β :=
  rows.foldl (fun s r => Function.update s r.1 (some r.2)) s

/-- Remove the rows that `p` selects. -/
def deleteWhere (p : κ → β → Bool) (s : κ → Option β) : κ → Option β :=
  fun k => (s k).filter fun v => !p k v

variable {rows rows' : List (κ × β)} {s s' : κ → Option β} {k : κ}

@[simp] theorem upsert_nil : upsert [] s = s := rfl

@[simp] theorem upsert_cons (r : κ × β) :
    upsert (r :: rows) s = upsert rows (Function.update s r.1 (some r.2)) := rfl

theorem upsert_append : upsert (rows ++ rows') s = upsert rows' (upsert rows s) :=
  List.foldl_append

theorem upsert_other (h : k ∉ rows.map Prod.fst) : upsert rows s k = s k := by
  induction rows generalizing s with
  | nil => rfl
  | cons r rows ih =>
    rw [List.map_cons, List.mem_cons, not_or] at h
    rw [upsert_cons, ih h.2, Function.update_of_ne h.1]

/-- What a written key holds does not depend on the store before. -/
theorem upsert_congr (h : k ∈ rows.map Prod.fst) : upsert rows s k = upsert rows s' k := by
  induction rows generalizing s s' with
  | nil => cases h
  | cons r rows ih =>
    by_cases hrest : k ∈ rows.map Prod.fst
    · exact ih hrest
    · rw [List.map_cons, List.mem_cons] at h
      obtain rfl := h.resolve_right hrest
      rw [upsert_cons, upsert_cons, upsert_other hrest, upsert_other hrest,
        Function.update_self, Function.update_self]

/-- A row whose key no other row has. -/
theorem upsert_row (hnodup : (rows.map Prod.fst).Nodup) {r : κ × β} (h : r ∈ rows) :
    upsert rows s r.1 = some r.2 := by
  induction rows generalizing s with
  | nil => cases h
  | cons x rows ih =>
    rw [List.map_cons, List.nodup_cons] at hnodup
    rcases List.mem_cons.mp h with rfl | h
    · rw [upsert_cons, upsert_other hnodup.1, Function.update_self]
    · exact ih hnodup.2 h

/-- **Rows already written under the same keys leave no trace.** -/
theorem upsert_again (h : ∀ r ∈ rows', r.1 ∈ rows.map Prod.fst) :
    upsert rows (upsert rows' s) = upsert rows s := by
  funext k
  by_cases hk : k ∈ rows.map Prod.fst
  · exact upsert_congr hk
  · rw [upsert_other hk, upsert_other hk, upsert_other]
    intro hk'
    obtain ⟨r, hr, rfl⟩ := List.mem_map.mp hk'
    exact hk (h r hr)

omit [DecidableEq κ] in
theorem deleteWhere_eq_some {p : κ → β → Bool} {v : β} :
    deleteWhere p s k = some v ↔ s k = some v ∧ p k v = false := by
  simp [deleteWhere, Option.filter_eq_some_iff]

/-! ## The rows of a store -/

section Holds

variable {ρ : Type} {key : ρ → κ} {value : β → ρ} {S : ρ → Prop}

/-- The store holds exactly the rows of `S`, each under its key. -/
def Holds (key : ρ → κ) (value : β → ρ) (s : κ → Option β) (S : ρ → Prop) : Prop :=
  ∀ k r, (s k).map value = some r ↔ S r ∧ key r = k

theorem Holds.upsert (h : Holds key value s S) {bs : List β}
    (hnodup : (bs.map fun b => key (value b)).Nodup) :
    Holds key value (upsert (bs.map fun b => (key (value b), b)) s) fun r =>
      (∃ b ∈ bs, value b = r) ∨ S r ∧ ∀ b ∈ bs, key (value b) ≠ key r := by
  have hkeys : (bs.map fun b => (key (value b), b)).map Prod.fst = bs.map fun b => key (value b) := by
    rw [List.map_map]
    rfl
  intro k r
  by_cases hk : ∃ b ∈ bs, key (value b) = k
  · obtain ⟨b, hb, rfl⟩ := hk
    have hrow := upsert_row (s := s) (hkeys ▸ hnodup) (List.mem_map_of_mem hb)
    rw [hrow]
    simp only [Option.map_some, Option.some.injEq]
    constructor
    · rintro rfl
      exact ⟨.inl ⟨b, hb, rfl⟩, rfl⟩
    · rintro ⟨⟨b', hb', rfl⟩ | ⟨-, hfresh⟩, he⟩
      · rw [List.inj_on_of_nodup_map hnodup hb hb' he.symm]
      · exact absurd he.symm (hfresh b hb)
  · have hnone : k ∉ (bs.map fun b => (key (value b), b)).map Prod.fst := by
      rw [hkeys]
      exact fun hmem => hk (List.mem_map.mp hmem)
    rw [upsert_other hnone, h]
    constructor
    · rintro ⟨hS, rfl⟩
      exact ⟨.inr ⟨hS, fun b hb he => hk ⟨b, hb, he⟩⟩, rfl⟩
    · rintro ⟨⟨b, hb, rfl⟩ | ⟨hS, -⟩, rfl⟩
      · exact absurd ⟨b, hb, rfl⟩ hk
      · exact ⟨hS, rfl⟩

omit [DecidableEq κ] in
theorem Holds.deleteWhere (h : Holds key value s S) (p : ρ → Bool) :
    Holds key value (deleteWhere (fun _ b => p (value b)) s) fun r => S r ∧ p r = false := by
  intro k r
  rw [Option.map_eq_some_iff]
  constructor
  · rintro ⟨b, hb, rfl⟩
    obtain ⟨hs, hp⟩ := deleteWhere_eq_some.mp hb
    obtain ⟨hS, hkey⟩ := (h k (value b)).mp (by rw [hs]; rfl)
    exact ⟨⟨hS, hp⟩, hkey⟩
  · rintro ⟨⟨hS, hp⟩, hkey⟩
    obtain ⟨b, hs, rfl⟩ := Option.map_eq_some_iff.mp ((h k r).mpr ⟨hS, hkey⟩)
    exact ⟨b, deleteWhere_eq_some.mpr ⟨hs, hp⟩, rfl⟩

omit [DecidableEq κ] in
/-- A key belongs to one row. -/
theorem Holds.unique (h : Holds key value s S) {r r' : ρ} (hr : S r) (hr' : S r')
    (hkey : key r = key r') : r = r' := by
  have hrow := (h (key r) r).mpr ⟨hr, rfl⟩
  have hrow' := (h (key r) r').mpr ⟨hr', hkey.symm⟩
  exact Option.some.inj (hrow.symm.trans hrow')

omit [DecidableEq κ] in
theorem Holds.congr {S' : ρ → Prop} (h : Holds key value s S) (hS : ∀ r, S r ↔ S' r) :
    Holds key value s S' := fun k r => by rw [h k r, hS]

end Holds

/-! ## Batches -/

variable {α : Type} {xs : List α} {size : Nat}

/-- The list in pieces of `size`, the last one shorter. -/
def batches (size : Nat) (xs : List α) : List (List α) :=
  (List.range ((xs.length + size - 1) / size)).map fun i => (xs.drop (i * size)).take size

theorem flatten_slices (size k : Nat) (xs : List α) :
    ((List.range k).map fun i => (xs.drop (i * size)).take size).flatten = xs.take (k * size) := by
  induction k with
  | zero => simp
  | succ k ih =>
    rw [List.range_succ, List.map_append, List.flatten_append, ih, Nat.succ_mul, List.take_add]
    simp

/-- The first batches are the first rows. -/
theorem flatten_take_batches (k : Nat) :
    ((batches size xs).take k).flatten =
      xs.take (min k ((xs.length + size - 1) / size) * size) := by
  rw [batches, ← List.map_take, List.take_range, flatten_slices]

theorem flatten_batches (hsize : 0 < size) : (batches size xs).flatten = xs := by
  rw [batches, flatten_slices, List.take_of_length_le]
  have hdiv := Nat.div_add_mod (xs.length + size - 1) size
  have hmod := Nat.mod_lt (xs.length + size - 1) hsize
  rw [Nat.mul_comm] at hdiv
  omega

/-- Writing batch by batch is writing the list. -/
theorem upsert_batches (hsize : 0 < size) :
    (batches size rows).foldl (fun s batch => upsert batch s) s = upsert rows s := by
  have hflat : ∀ (pieces : List (List (κ × β))) (s : κ → Option β),
      pieces.foldl (fun s batch => upsert batch s) s = upsert pieces.flatten s := by
    intro pieces
    induction pieces with
    | nil => exact fun _ => rfl
    | cons piece pieces ih =>
      intro s
      rw [List.foldl_cons, ih, List.flatten_cons, upsert_append]
  rw [hflat, flatten_batches hsize]

end CortexHarness.Points
