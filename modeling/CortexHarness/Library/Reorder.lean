import CortexHarness.Library.Firsts

/-!
# What reordering rows leaves alone

A reader that depends on the order of its rows only through rows that agree gives the same answer
for every order.

Results:
* `lookup_perm`: a lookup under a primary key;
* `firsts_of_keyed`: every row is the first of its key;
* `zip_map_self`: rows beside what is made of them;
* `find?_flatMap_perm`: the first hit in rows that come in blocks, when hits of different blocks
  agree.
-/

namespace CortexHarness.Table

variable {α β κ γ : Type}

section Keyed

variable {key : α → κ} {rows rows' : List α}

theorem Keyed.reorder (h : Keyed key rows) (hperm : rows.Perm rows') : Keyed key rows' :=
  (hperm.map key).nodup_iff.mp h

variable [DecidableEq κ]

theorem lookup_perm (h : Keyed key rows) (hperm : rows.Perm rows') (k : κ) :
    lookup key k rows = lookup key k rows' := by
  ext r
  rw [lookup_eq_some h, lookup_eq_some (h.reorder hperm), hperm.mem_iff]

theorem firsts_of_keyed (h : Keyed key rows) : firsts key rows = rows := by
  induction rows using List.reverseRecOn with
  | nil => rfl
  | append_singleton rows r ih =>
    have hsplit : ((rows.map key) ++ [key r]).Nodup := by
      have hmap := h
      unfold Keyed at hmap
      rwa [List.map_append, List.map_singleton] at hmap
    obtain ⟨hrows, -, hapart⟩ := List.nodup_append.mp hsplit
    rw [firsts_snoc, ih hrows, keepFirst_new]
    intro x hx
    exact hapart _ (List.mem_map_of_mem hx) _ (List.mem_singleton.mpr rfl)

theorem head?_firsts (rows : List α) : (firsts key rows).head? = rows.head? := by
  cases rows with
  | nil => rfl
  | cons r rows =>
    obtain ⟨added, hadded⟩ := firsts_extends key [r] rows
    have hone : firsts key [r] = [r] := rfl
    rw [hone, List.singleton_append, List.singleton_append] at hadded
    rw [← hadded, List.head?_cons, List.head?_cons]

end Keyed

theorem zip_map_self (f : α → β) (l : List α) : l.zip (l.map f) = l.map fun a => (a, f a) := by
  induction l with
  | nil => rfl
  | cons a l ih => rw [List.map_cons, List.zip_cons_cons, ih, List.map_cons]

/-- Rows beside as many others: each has one beside it. -/
theorem exists_zip_of_mem {l : List α} {l' : List β} (h : l.length = l'.length) {a : α}
    (ha : a ∈ l) : ∃ b, (a, b) ∈ l.zip l' := by
  have hfst : a ∈ (l.zip l').map Prod.fst := by rwa [List.map_fst_zip (Nat.le_of_eq h)]
  obtain ⟨ab, hab, rfl⟩ := List.mem_map.mp hfst
  exact ⟨ab.2, hab⟩

/-- The first hit in rows that come in blocks, seen through `view`: hits of different blocks look
the same. -/
theorem find?_flatMap_perm {blocks : α → List β} {p : β → Bool} {view : β → γ} {as as' : List α}
    (hperm : as.Perm as')
    (hagree : as.Pairwise fun a a' =>
      ∀ x ∈ blocks a, ∀ x' ∈ blocks a', p x = true → p x' = true → view x = view x') :
    ((as.flatMap blocks).find? p).map view = ((as'.flatMap blocks).find? p).map view := by
  induction hperm with
  | nil => rfl
  | cons a _ ih =>
    rw [List.flatMap_cons, List.flatMap_cons, List.find?_append, List.find?_append]
    cases (blocks a).find? p with
    | some x => rfl
    | none => simpa using ih (List.pairwise_cons.mp hagree).2
  | swap a a' as =>
    simp only [List.flatMap_cons, List.find?_append]
    cases hx : (blocks a).find? p with
    | none => simp
    | some x =>
      cases hx' : (blocks a').find? p with
      | none => simp
      | some x' =>
        have hsame := (List.pairwise_cons.mp hagree).1 a List.mem_cons_self x'
          (List.mem_of_find?_eq_some hx') x (List.mem_of_find?_eq_some hx)
          (List.find?_some hx') (List.find?_some hx)
        simp [hsame]
  | trans hperm _ ih ih' =>
    refine (ih hagree).trans (ih' ((hperm.pairwise_iff ?_).mp hagree))
    intro a a' h x hx x' hx' hp hp'
    exact (h x' hx' x hx hp' hp).symm

/-- The first row of blocks, seen through `view`. -/
theorem head?_flatMap_perm {blocks : α → List β} {view : β → γ} {as as' : List α}
    (hperm : as.Perm as')
    (hagree : as.Pairwise fun a a' => ∀ x ∈ blocks a, ∀ x' ∈ blocks a', view x = view x') :
    (as.flatMap blocks).head?.map view = (as'.flatMap blocks).head?.map view := by
  have hfirst : ∀ l : List β, l.head? = l.find? fun _ => true := by
    intro l
    cases l <;> rfl
  rw [hfirst, hfirst]
  exact find?_flatMap_perm hperm (hagree.imp fun h x hx x' hx' _ _ => h x hx x' hx')

end CortexHarness.Table
