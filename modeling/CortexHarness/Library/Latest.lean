import Mathlib.Data.List.Induction
import CortexHarness.Library.Table

/-!
# The last row of each key

A log of rows is read through the last row of each key, `latest key rows`, in the order in which
the keys first came up. A table kept by `INSERT … ON CONFLICT DO UPDATE` (`upsert`) follows the log
step by step.

Results:
* `lookup_latest_append`: appended rows hide the older ones of their keys;
* **`foldl_upsert_map`**: a table whose rows are images of a dictionary's stays so when the images
  of the rows assigned to the dictionary are upserted.
-/

namespace CortexHarness.Table

variable {α β κ κ' : Type} [DecidableEq κ] [DecidableEq κ'] {key : α → κ} {key' : β → κ'}

theorem mem_assign {r x : α} {t : List α} (h : x ∈ assign key r t) : x = r ∨ x ∈ t := by
  unfold assign at h
  split at h
  · obtain ⟨y, hy, rfl⟩ := mem_updateWhere.mp h
    split
    · exact Or.inl rfl
    · exact Or.inr hy
  · rcases List.mem_append.mp h with h | h
    · exact Or.inr h
    · exact Or.inl (List.mem_singleton.mp h)

theorem Keyed.assign {t : List α} (h : Keyed key t) (r : α) : Keyed key (assign key r t) := by
  by_cases hx : ∃ x ∈ t, key x = key r
  · obtain ⟨x, hx, he⟩ := hx
    rw [assign_old hx he]
    refine h.map fun y _ => ?_
    by_cases hy : key y = key r <;> simp [hy]
  · have hnew : ∀ x ∈ t, key x ≠ key r := fun x hm he => hx ⟨x, hm, he⟩
    rw [assign_new hnew]
    exact h.append_singleton hnew

/-- The last row of each key, the keys in the order in which they first came up. -/
def latest (key : α → κ) (rows : List α) : List α :=
  rows.foldl (fun t r => Table.assign key r t) []

@[simp] theorem latest_nil : latest key [] = [] := rfl

theorem latest_snoc (rows : List α) (r : α) :
    latest key (rows ++ [r]) = Table.assign key r (latest key rows) := by
  simp [latest]

theorem keyed_latest (rows : List α) : Keyed key (latest key rows) := by
  induction rows using List.reverseRecOn with
  | nil => exact List.nodup_nil
  | append_singleton rows r ih =>
    rw [latest_snoc]
    exact ih.assign r

theorem Keyed.foldl_assign {t : List α} (h : Keyed key t) (rows : List α) :
    Keyed key (rows.foldl (fun t r => Table.assign key r t) t) := by
  induction rows generalizing t with
  | nil => exact h
  | cons r rows ih => exact ih (h.assign r)

theorem mem_foldl_assign {t rows : List α} {x : α}
    (h : x ∈ rows.foldl (fun t r => Table.assign key r t) t) : x ∈ t ∨ x ∈ rows := by
  induction rows generalizing t with
  | nil => exact Or.inl h
  | cons r rows ih =>
    rcases ih h with h | h
    · rcases mem_assign h with rfl | h
      · exact Or.inr List.mem_cons_self
      · exact Or.inl h
    · exact Or.inr (List.mem_cons_of_mem _ h)

theorem mem_of_mem_latest {rows : List α} {r : α} (h : r ∈ latest key rows) : r ∈ rows :=
  (mem_foldl_assign h).resolve_left List.not_mem_nil

theorem lookup_foldl_assign (t rows : List α) (k : κ) :
    lookup key k (rows.foldl (fun t r => Table.assign key r t) t) =
      (lookup key k (latest key rows)).or (lookup key k t) := by
  induction rows using List.reverseRecOn with
  | nil => simp [lookup]
  | append_singleton rows r ih =>
    rw [List.foldl_append, List.foldl_cons, List.foldl_nil, latest_snoc, lookup_assign,
      lookup_assign, ih]
    split <;> simp

/-- Appended rows hide the older ones of their keys. -/
theorem lookup_latest_append (rows rows' : List α) (k : κ) :
    lookup key k (latest key (rows ++ rows')) =
      (lookup key k (latest key rows')).or (lookup key k (latest key rows)) := by
  rw [latest, List.foldl_append]
  exact lookup_foldl_assign _ rows' k

/-- Keyed rows are told by what is found in them. -/
theorem Keyed.perm {t t' : List α} (h : Keyed key t) (h' : Keyed key t')
    (hsame : ∀ k, lookup key k t = lookup key k t') : t.Perm t' := by
  refine (List.perm_ext_iff_of_nodup (h.of_map key) (h'.of_map key)).mpr fun r => ?_
  constructor
  · intro hr
    have hl := lookup_of_mem h hr
    exact lookup_mem ((hsame _).symm.trans hl)
  · intro hr
    have hl := lookup_of_mem h' hr
    exact lookup_mem ((hsame _).trans hl)

theorem lookup_latest_none {rows : List α} {k : κ} :
    lookup key k (latest key rows) = none ↔ ∀ r ∈ rows, key r ≠ k := by
  induction rows using List.reverseRecOn with
  | nil => simp [lookup]
  | append_singleton rows r ih =>
    rw [latest_snoc, lookup_assign]
    by_cases h : key r = k
    · simp [h]
    · rw [if_neg h, ih]
      simp [or_imp, forall_and, h]

theorem latest_of_keyed {rows : List α} (h : Keyed key rows) : latest key rows = rows :=
  foldl_assign (t := []) h

theorem Keyed.lookup_filter {t : List α} (h : Keyed key t) (p : α → Bool) (k : κ) :
    lookup key k (t.filter p) = (lookup key k t).filter p := by
  cases hl : lookup key k t with
  | none =>
    refine lookup_eq_none.mpr fun r hr => ?_
    exact lookup_eq_none.mp hl r (List.mem_of_mem_filter hr)
  | some r =>
    obtain ⟨hr, hk⟩ := (lookup_eq_some h).mp hl
    by_cases hp : p r = true
    · rw [Option.filter_some_pos hp]
      exact (lookup_eq_some (h.filter p)).mpr ⟨List.mem_filter.mpr ⟨hr, hp⟩, hk⟩
    · rw [Option.filter_some_neg (Bool.eq_false_iff.mpr hp)]
      refine lookup_eq_none.mpr fun x hx hxk => ?_
      obtain ⟨hxt, hpx⟩ := List.mem_filter.mp hx
      rw [eq_of_keyed h hxt hr (hxk.trans hk.symm)] at hpx
      exact hp hpx

/-- Rows that agree in their keys, and in `f` and `g`, agree in what is found. -/
theorem lookup_latest_forall₂ {γ : Type} {key' : β → κ} {f : α → γ} {g : β → γ} {rows : List α}
    {rows' : List β} (h : List.Forall₂ (fun a b => key' b = key a ∧ g b = f a) rows rows') (k : κ) :
    (lookup key' k (latest key' rows')).map g = (lookup key k (latest key rows)).map f := by
  have hfold : ∀ (t : List α) (t' : List β),
      (lookup key' k t').map g = (lookup key k t).map f →
      (lookup key' k (rows'.foldl (fun t r => Table.assign key' r t) t')).map g =
        (lookup key k (rows.foldl (fun t r => Table.assign key r t) t)).map f := by
    induction h with
    | nil => exact fun _ _ ht => ht
    | cons hab _ ih =>
      intro t t' ht
      refine ih _ _ ?_
      rw [lookup_assign, lookup_assign, hab.1]
      split
      · exact congrArg some hab.2
      · exact ht
  exact hfold [] [] rfl

/-- `INSERT … ON CONFLICT (key) DO UPDATE`: merge into the row with that key, or add one. -/
def upsert (key : α → κ) (merge : α → α → α) (r : α) (t : List α) : List α :=
  if t.any fun x => decide (key x = key r) then
    updateWhere (fun x => decide (key x = key r)) (merge r) t
  else t ++ [r]

theorem mem_upsert {merge : α → α → α} {r x : α} {t : List α} (h : x ∈ upsert key merge r t) :
    x = r ∨ x ∈ t ∨ ∃ y ∈ t, key y = key r ∧ x = merge r y := by
  unfold upsert at h
  split at h
  · obtain ⟨y, hy, rfl⟩ := mem_updateWhere.mp h
    split
    · rename_i hk
      exact Or.inr (Or.inr ⟨y, hy, of_decide_eq_true hk, rfl⟩)
    · exact Or.inr (Or.inl hy)
  · rcases List.mem_append.mp h with h | h
    · exact Or.inr (Or.inl h)
    · exact Or.inl (List.mem_singleton.mp h)

/-- The row is there after its upsert, and no row has gone. -/
theorem exists_upsert {merge : α → α → α} (hm : ∀ r x, key x = key r → key (merge r x) = key r)
    (r : α) (t : List α) {k : κ} (h : k = key r ∨ ∃ x ∈ t, key x = k) :
    ∃ x ∈ upsert key merge r t, key x = k := by
  unfold upsert
  by_cases hany : (t.any fun x => decide (key x = key r)) = true
  · rw [if_pos hany]
    obtain ⟨y, hy, hk⟩ := List.any_eq_true.mp hany
    have hk := of_decide_eq_true hk
    obtain ⟨x, hx, hxk⟩ : ∃ x ∈ t, key x = k := by
      rcases h with rfl | h
      · exact ⟨y, hy, hk⟩
      · exact h
    refine ⟨_, mem_updateWhere.mpr ⟨x, hx, rfl⟩, ?_⟩
    split
    · rename_i he
      have he := of_decide_eq_true he
      rw [hm r x he, ← he, hxk]
    · exact hxk
  · rw [if_neg hany]
    rcases h with rfl | ⟨x, hx, hxk⟩
    · exact ⟨r, by simp, rfl⟩
    · exact ⟨x, List.mem_append_left _ hx, hxk⟩

theorem exists_assign (r : α) (t : List α) {k : κ} (h : k = key r ∨ ∃ x ∈ t, key x = k) :
    ∃ x ∈ Table.assign key r t, key x = k := by
  have hu : Table.assign key r t = upsert key (fun r _ => r) r t := rfl
  rw [hu]
  exact exists_upsert (fun _ _ _ => rfl) r t h

/-- A run of upserts makes no row whose columns `c` are not those of an old or an upserted row. -/
theorem foldl_upsert_columns {γ : Type} {c : α → γ} {merge : α → α → α}
    (hc : ∀ r x, key x = key r → c (merge r x) = c x) (rows t : List α) :
    ∀ x ∈ rows.foldl (fun t r => upsert key merge r t) t, ∃ y, (y ∈ t ∨ y ∈ rows) ∧ c x = c y := by
  induction rows generalizing t with
  | nil => exact fun x hx => ⟨x, Or.inl hx, rfl⟩
  | cons r rows ih =>
    intro x hx
    obtain ⟨y, hy | hy, he⟩ := ih _ x hx
    · rcases mem_upsert hy with rfl | hy | ⟨z, hz, hk, rfl⟩
      · exact ⟨y, Or.inr List.mem_cons_self, he⟩
      · exact ⟨y, Or.inl hy, he⟩
      · exact ⟨z, Or.inl hz, he.trans (hc r z hk)⟩
    · exact ⟨y, Or.inr (List.mem_cons_of_mem _ hy), he⟩

theorem foldl_upsert_keys {merge : α → α → α}
    (hm : ∀ r x, key x = key r → key (merge r x) = key r) (rows t : List α) :
    ∀ y, y ∈ t ∨ y ∈ rows → ∃ x ∈ rows.foldl (fun t r => upsert key merge r t) t, key x = key y := by
  induction rows generalizing t with
  | nil => exact fun y hy => ⟨y, hy.resolve_right List.not_mem_nil, rfl⟩
  | cons r rows ih =>
    intro y hy
    have hnext : (∃ z ∈ upsert key merge r t, key z = key y) ∨ y ∈ rows := by
      rcases hy with hy | hy
      · exact Or.inl (exists_upsert hm r t (Or.inr ⟨y, hy, rfl⟩))
      · rcases List.mem_cons.mp hy with rfl | hy
        · exact Or.inl (exists_upsert hm y t (Or.inl rfl))
        · exact Or.inr hy
    rcases hnext with ⟨z, hz, hk⟩ | hy
    · obtain ⟨x, hx, he⟩ := ih _ z (Or.inl hz)
      exact ⟨x, hx, he.trans hk⟩
    · exact ih _ y (Or.inr hy)

/-- **A table that mirrors a dictionary goes on mirroring it**: the image of the new row is
upserted where the keys of the images tell rows apart as the keys do, and a merge leaves the image
of the new row. -/
theorem upsert_map_assign {f : α → β} {merge : β → β → β} {r : α} {t : List α}
    (hkey : ∀ x ∈ t, key' (f x) = key' (f r) ↔ key x = key r)
    (hmerge : ∀ x ∈ t, key x = key r → merge (f r) (f x) = f r) :
    upsert key' merge (f r) (t.map f) = (Table.assign key r t).map f := by
  by_cases hx : ∃ x ∈ t, key x = key r
  · obtain ⟨x, hx, he⟩ := hx
    have hany : ((t.map f).any fun y => decide (key' y = key' (f r))) = true :=
      List.any_eq_true.mpr ⟨f x, List.mem_map_of_mem hx, decide_eq_true ((hkey x hx).mpr he)⟩
    rw [upsert, if_pos hany, assign_old hx he, updateWhere, updateWhere, List.map_map,
      List.map_map]
    refine List.map_congr_left fun y hy => ?_
    by_cases hk : key y = key r
    · simp [hk, (hkey y hy).mpr hk, hmerge y hy hk]
    · have hk' : ¬ key' (f y) = key' (f r) := fun h => hk ((hkey y hy).mp h)
      simp [hk, hk']
  · have hnew : ∀ x ∈ t, key x ≠ key r := fun x hm he => hx ⟨x, hm, he⟩
    have hany : ¬ ((t.map f).any fun y => decide (key' y = key' (f r))) = true := by
      simp only [List.any_map, List.any_eq_true, Function.comp_apply, decide_eq_true_eq]
      rintro ⟨x, hx, hk⟩
      exact hnew x hx ((hkey x hx).mp hk)
    rw [upsert, if_neg hany, assign_new hnew, List.map_append, List.map_singleton]

/-- A run of upserts of images is a run of assignments. -/
theorem foldl_upsert_map {f : α → β} {merge : β → β → β} {t : List α} (rows : List α)
    (hkey : ∀ x ∈ t ++ rows, ∀ r ∈ rows, key' (f x) = key' (f r) ↔ key x = key r)
    (hmerge : ∀ x ∈ t ++ rows, ∀ r ∈ rows, key x = key r → merge (f r) (f x) = f r) :
    (rows.map f).foldl (fun t r => upsert key' merge r t) (t.map f) =
      (rows.foldl (fun t r => Table.assign key r t) t).map f := by
  induction rows generalizing t with
  | nil => rfl
  | cons r rows ih =>
    have hmem : ∀ x ∈ Table.assign key r t ++ rows, x ∈ t ++ r :: rows := by
      intro x hx
      rcases List.mem_append.mp hx with hx | hx
      · rcases mem_assign hx with rfl | hx
        · exact List.mem_append_right _ List.mem_cons_self
        · exact List.mem_append_left _ hx
      · exact List.mem_append_right _ (List.mem_cons_of_mem _ hx)
    rw [List.map_cons, List.foldl_cons, List.foldl_cons,
      upsert_map_assign (fun x hx => hkey x (List.mem_append_left _ hx) r List.mem_cons_self)
        fun x hx => hmerge x (List.mem_append_left _ hx) r List.mem_cons_self]
    exact ih (fun x hx y hy => hkey x (hmem x hx) y (List.mem_cons_of_mem _ hy))
      fun x hx y hy => hmerge x (hmem x hx) y (List.mem_cons_of_mem _ hy)

end CortexHarness.Table
