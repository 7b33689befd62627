import CortexHarness.Library.Table
import Mathlib.Data.List.Dedup
import Mathlib.Data.List.Perm.Subperm
import Mathlib.Data.List.Induction

/-!
# The first row of every key

`firsts key rows` keeps, in order, each row whose key no earlier row has: a dict that is filled with
`setdefault`, or a loop that skips what it has seen.

Results:
* `keyed_firsts`, `exists_firsts`: the keys of the rows, each once;
* `lookup_firsts`: the row kept for a key is the first with that key;
* `firsts_extends`: later rows change nothing before them;
* `firsts_keys_perm`: reordering the rows reorders the keys;
* `firsts_eq_iff`: when two keys keep the same rows;
* `dedup_length_one`: when a set has one member.
-/

namespace CortexHarness.Table

variable {α κ : Type} [DecidableEq κ] {key : α → κ}

/-- Append `r`, unless a row with its key is there. -/
def keepFirst (key : α → κ) (t : List α) (r : α) : List α :=
  if t.any fun x => decide (key x = key r) then t else t ++ [r]

/-- The rows whose key no earlier row has. -/
def firsts (key : α → κ) (rows : List α) : List α := rows.foldl (keepFirst key) []

theorem keepFirst_old {t : List α} {r x : α} (hx : x ∈ t) (h : key x = key r) :
    keepFirst key t r = t := by
  unfold keepFirst
  rw [if_pos]
  simpa using ⟨x, hx, h⟩

theorem keepFirst_new {t : List α} {r : α} (h : ∀ x ∈ t, key x ≠ key r) :
    keepFirst key t r = t ++ [r] := by
  unfold keepFirst
  rw [if_neg]
  simpa using h

@[simp] theorem firsts_nil : firsts key [] = [] := rfl

theorem firsts_snoc (rows : List α) (r : α) :
    firsts key (rows ++ [r]) = keepFirst key (firsts key rows) r := by
  simp [firsts]

theorem keepFirst_extends (t : List α) (r : α) : t <+: keepFirst key t r := by
  unfold keepFirst
  split
  · exact List.prefix_refl t
  · exact List.prefix_append t [r]

/-- Later rows change nothing before them. -/
theorem firsts_extends (key : α → κ) (rows rows' : List α) :
    firsts key rows <+: firsts key (rows ++ rows') := by
  induction rows' using List.reverseRecOn with
  | nil => exact ⟨[], by rw [List.append_nil, List.append_nil]⟩
  | append_singleton rows' r ih =>
    rw [← List.append_assoc, firsts_snoc]
    exact ih.trans (keepFirst_extends _ r)

theorem mem_of_mem_firsts {rows : List α} {r : α} (h : r ∈ firsts key rows) : r ∈ rows := by
  induction rows using List.reverseRecOn with
  | nil => exact h
  | append_singleton rows x ih =>
    rw [firsts_snoc] at h
    unfold keepFirst at h
    split at h
    · exact List.mem_append_left _ (ih h)
    · rcases List.mem_append.mp h with h | h
      · exact List.mem_append_left _ (ih h)
      · exact List.mem_append_right _ h

/-- Every key is kept. -/
theorem exists_firsts {rows : List α} {r : α} (h : r ∈ rows) :
    ∃ x ∈ firsts key rows, key x = key r := by
  induction rows using List.reverseRecOn with
  | nil => cases h
  | append_singleton rows x ih =>
    rw [firsts_snoc]
    rcases List.mem_append.mp h with h | h
    · obtain ⟨y, hy, he⟩ := ih h
      exact ⟨y, (keepFirst_extends _ x).subset hy, he⟩
    · rw [List.mem_singleton.mp h]
      by_cases hx : ∃ y ∈ firsts key rows, key y = key x
      · obtain ⟨y, hy, he⟩ := hx
        rw [keepFirst_old hy he]
        exact ⟨y, hy, he⟩
      · rw [keepFirst_new fun y hy he => hx ⟨y, hy, he⟩]
        exact ⟨x, by simp, rfl⟩

theorem firsts_eq_nil {rows : List α} :
    firsts key rows = [] ↔ rows = [] := by
  constructor
  · intro h
    by_contra hne
    obtain ⟨r, hr⟩ := List.exists_mem_of_ne_nil rows hne
    obtain ⟨r', hr', -⟩ : ∃ x ∈ firsts key rows, key x = key r := exists_firsts hr
    rw [h] at hr'
    exact List.not_mem_nil hr'
  · rintro rfl
    rfl

theorem keyed_firsts (rows : List α) : Keyed key (firsts key rows) := by
  induction rows using List.reverseRecOn with
  | nil => exact List.nodup_nil
  | append_singleton rows x ih =>
    rw [firsts_snoc]
    by_cases hx : ∃ y ∈ firsts key rows, key y = key x
    · obtain ⟨y, hy, he⟩ := hx
      rwa [keepFirst_old hy he]
    · rw [keepFirst_new fun y hy he => hx ⟨y, hy, he⟩]
      exact ih.append_singleton fun y hy he => hx ⟨y, hy, he⟩

/-- The row kept for a key is the first with that key. -/
theorem lookup_firsts (rows : List α) (k : κ) :
    lookup key k (firsts key rows) = lookup key k rows := by
  induction rows using List.reverseRecOn with
  | nil => rfl
  | append_singleton rows x ih =>
    rw [firsts_snoc, lookup_append, lookup_singleton, ← ih]
    by_cases hx : ∃ y ∈ firsts key rows, key y = key x
    · obtain ⟨y, hy, he⟩ := hx
      rw [keepFirst_old hy he]
      by_cases hk : key x = k
      · have hl := lookup_of_mem (keyed_firsts rows) hy
        rw [he, hk] at hl
        rw [hl]
        rfl
      · rw [if_neg hk, Option.or_none]
    · rw [keepFirst_new fun y hy he => hx ⟨y, hy, he⟩, lookup_append, lookup_singleton]

/-- A row that no row before it shares a key with is kept. -/
theorem mem_firsts_of_new {pre : List α} {r : α} (h : ∀ x ∈ pre, key x ≠ key r) (post : List α) :
    r ∈ firsts key (pre ++ r :: post) := by
  have hsplit : pre ++ r :: post = (pre ++ [r]) ++ post := by simp
  rw [hsplit]
  refine (firsts_extends key (pre ++ [r]) post).subset ?_
  rw [firsts_snoc, keepFirst_new fun x hx => h x (mem_of_mem_firsts hx)]
  simp

theorem firsts_append (key : α → κ) (rows rows' : List α) :
    ∃ added, firsts key (rows ++ rows') = firsts key rows ++ added ∧ added ⊆ rows' ∧
      ∀ r ∈ added, ∀ x ∈ rows, key x ≠ key r := by
  induction rows' using List.reverseRecOn with
  | nil => exact ⟨[], by simp, List.Subset.refl _, fun r hr => by cases hr⟩
  | append_singleton rows' r ih =>
    obtain ⟨added, hadded, hsub, hnew⟩ := ih
    rw [← List.append_assoc, firsts_snoc]
    by_cases hx : ∃ x ∈ firsts key (rows ++ rows'), key x = key r
    · obtain ⟨x, hx, he⟩ := hx
      rw [keepFirst_old hx he]
      exact ⟨added, hadded, List.Subset.trans hsub (List.subset_append_left _ _), hnew⟩
    · rw [keepFirst_new fun x hx' he => hx ⟨x, hx', he⟩, hadded, List.append_assoc]
      refine ⟨added ++ [r], rfl, ?_, ?_⟩
      · exact List.append_subset.mpr ⟨List.Subset.trans hsub (List.subset_append_left _ _),
          List.subset_append_right _ _⟩
      · intro y hy x hxr he
        rcases List.mem_append.mp hy with hy | hy
        · exact hnew y hy x hxr he
        · obtain ⟨z, hz, hze⟩ : ∃ z ∈ firsts key (rows ++ rows'), key z = key x :=
            exists_firsts (List.mem_append_left _ hxr)
          rw [List.mem_singleton.mp hy] at he
          exact hx ⟨z, hz, hze.trans he⟩

theorem find?_congr {p q : α → Bool} {rows : List α} (h : ∀ r ∈ rows, p r = q r) :
    rows.find? p = rows.find? q := by
  induction rows with
  | nil => rfl
  | cons r rows ih =>
    rw [List.find?_cons, List.find?_cons, h r List.mem_cons_self,
      ih fun x hx => h x (List.mem_cons_of_mem _ hx)]

/-- Reordering the rows reorders the keys. -/
theorem firsts_keys_perm (key : α → κ) {rows rows' : List α} (h : rows.Perm rows') :
    ((firsts key rows).map key).Perm ((firsts key rows').map key) := by
  refine (List.perm_ext_iff_of_nodup (keyed_firsts rows) (keyed_firsts rows')).mpr fun k => ?_
  have hsub : ∀ {l l' : List α}, l.Perm l' → k ∈ (firsts key l).map key →
      k ∈ (firsts key l').map key := by
    intro l l' hp hk
    obtain ⟨x, hx, rfl⟩ := List.mem_map.mp hk
    obtain ⟨y, hy, he⟩ : ∃ y ∈ firsts key l', key y = key x :=
      exists_firsts (hp.subset (mem_of_mem_firsts hx))
    exact List.mem_map.mpr ⟨y, hy, he⟩
  exact ⟨hsub h, hsub h.symm⟩

/-- **Two keys keep the same rows iff they tell the same rows apart**, where one tells apart no more
than the other. -/
theorem firsts_eq_iff {κ' : Type} [DecidableEq κ'] {key' : α → κ'} {rows : List α}
    (h : ∀ r ∈ rows, ∀ r' ∈ rows, key' r = key' r' → key r = key r') :
    firsts key rows = firsts key' rows ↔
      ∀ r ∈ rows, ∀ r' ∈ rows, key r = key r' → key' r = key' r' := by
  constructor
  · intro heq r hr r' hr' hkey
    obtain ⟨x, hx, hxr⟩ : ∃ x ∈ firsts key' rows, key' x = key' r := exists_firsts hr
    obtain ⟨y, hy, hyr⟩ : ∃ y ∈ firsts key' rows, key' y = key' r' := exists_firsts hr'
    have hxy : key x = key y := by
      rw [h x (mem_of_mem_firsts hx) r hr hxr, h y (mem_of_mem_firsts hy) r' hr' hyr, hkey]
    have hsame : x = y := List.inj_on_of_nodup_map
      (keyed_firsts rows : Keyed key (firsts key rows)) (by rwa [heq]) (by rwa [heq]) hxy
    rw [← hxr, hsame, hyr]
  · intro h'
    induction rows using List.reverseRecOn with
    | nil => rfl
    | append_singleton rows x ih =>
      have hin : ∀ {r}, r ∈ rows → r ∈ rows ++ [x] := fun hr => List.mem_append_left _ hr
      have hlast : x ∈ rows ++ [x] := List.mem_append_right _ (List.mem_singleton_self x)
      rw [firsts_snoc, firsts_snoc, ih (fun r hr r' hr' => h r (hin hr) r' (hin hr'))
        fun r hr r' hr' => h' r (hin hr) r' (hin hr')]
      by_cases hx : ∃ y ∈ firsts key' rows, key' y = key' x
      · obtain ⟨y, hy, he⟩ := hx
        rw [keepFirst_old hy (h y (hin (mem_of_mem_firsts hy)) x hlast he), keepFirst_old hy he]
      · have hnew : ∀ y ∈ firsts key' rows, key y ≠ key x := fun y hy he =>
          hx ⟨y, hy, h' y (hin (mem_of_mem_firsts hy)) x hlast he⟩
        rw [keepFirst_new hnew, keepFirst_new fun y hy he => hx ⟨y, hy, he⟩]

/-- One member, as `len(...) == 1` says it. -/
theorem dedup_length_one [DecidableEq α] {l : List α} :
    l.dedup.length = 1 ↔ l ≠ [] ∧ ∀ a ∈ l, ∀ b ∈ l, a = b := by
  constructor
  · intro h
    obtain ⟨x, hx⟩ := List.length_eq_one_iff.mp h
    have hmem : ∀ a ∈ l, a = x := by
      intro a ha
      have := List.mem_dedup.mpr ha
      rw [hx] at this
      exact List.mem_singleton.mp this
    refine ⟨?_, fun a ha b hb => (hmem a ha).trans (hmem b hb).symm⟩
    rintro rfl
    cases hx
  · rintro ⟨hne, hall⟩
    obtain ⟨x, hx⟩ := List.exists_mem_of_ne_nil l hne
    have hdedup : l.dedup ⊆ [x] := fun a ha =>
      List.mem_singleton.mpr (hall a (List.mem_dedup.mp ha) x hx)
    have hle := (List.subperm_of_subset (List.nodup_dedup l) hdedup).length_le
    have hpos := List.length_pos_of_mem (List.mem_dedup.mpr hx)
    simp at hle
    omega

end CortexHarness.Table
