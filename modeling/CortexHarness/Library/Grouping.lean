import Mathlib.Data.List.Induction
import Mathlib.Data.List.Nodup
import Mathlib.Algebra.GroupWithZero.Nat

/-!
# Groups in the order of their first members

`groups pairs` is a `defaultdict(list)` after `groups[key].append(value)` for every pair.

Results: `groups_eq_singleton`: one group is left exactly when every pair has its key;
`size_groups`: the groups hold every pair once; `mem_groups`, `nodup_groups`: a key has one group,
with its values in their order.
-/

namespace CortexHarness.Grouping

variable {κ α : Type} [DecidableEq κ]

/-- `groups[key].append(value)` -/
def append (key : κ) (value : α) : List (κ × List α) → List (κ × List α)
  | [] => [(key, [value])]
  | (k, values) :: gs =>
    if k = key then (k, values ++ [value]) :: gs else (k, values) :: append key value gs

/-- The groups of the pairs. -/
def groups (pairs : List (κ × α)) : List (κ × List α) :=
  pairs.foldl (fun gs p => append p.1 p.2 gs) []

variable {key g k : κ} {value : α} {values vs : List α} {gs : List (κ × List α)}
  {pairs : List (κ × α)}

theorem append_ne_nil : append key value gs ≠ [] := by
  cases gs with
  | nil => exact List.cons_ne_nil _ _
  | cons head gs =>
    unfold append
    split <;> exact List.cons_ne_nil _ _

theorem append_eq_singleton (h : append key value gs = [(g, values)]) :
    g = key ∧ ((gs = [] ∧ values = [value]) ∨ ∃ vs, gs = [(g, vs)] ∧ values = vs ++ [value]) := by
  match gs with
  | [] =>
    simp only [append, List.cons.injEq, Prod.mk.injEq, and_true] at h
    exact ⟨h.1.symm, .inl ⟨rfl, h.2.symm⟩⟩
  | (k, vs) :: gs =>
    unfold append at h
    split at h
    · next hk =>
      simp only [List.cons.injEq, Prod.mk.injEq] at h
      obtain ⟨⟨rfl, rfl⟩, rfl⟩ := h
      exact ⟨hk, .inr ⟨vs, rfl, rfl⟩⟩
    · exact absurd (List.cons.inj h).2 append_ne_nil

theorem groups_append_singleton (p : κ × α) :
    groups (pairs ++ [p]) = append p.1 p.2 (groups pairs) := by
  unfold groups
  rw [List.foldl_append, List.foldl_cons, List.foldl_nil]

theorem groups_eq_nil (h : groups pairs = []) : pairs = [] := by
  induction pairs using List.reverseRecOn with
  | nil => rfl
  | append_singleton pairs p _ => exact absurd (groups_append_singleton p ▸ h) append_ne_nil

/-- **One group holds every value, under the key of every pair.** -/
theorem groups_eq_singleton (h : groups pairs = [(g, values)]) :
    pairs ≠ [] ∧ values = pairs.map Prod.snd ∧ ∀ p ∈ pairs, p.1 = g := by
  induction pairs using List.reverseRecOn generalizing values with
  | nil => cases h
  | append_singleton pairs p ih =>
    rw [groups_append_singleton] at h
    obtain ⟨hkey, ⟨hnil, rfl⟩ | ⟨vs, hvs, rfl⟩⟩ := append_eq_singleton h
    · obtain rfl := groups_eq_nil hnil
      simp [hkey]
    · obtain ⟨-, rfl, hall⟩ := ih hvs
      refine ⟨by simp, by simp, fun q hq => ?_⟩
      rcases List.mem_append.mp hq with hq | hq
      · exact hall q hq
      · rw [List.mem_singleton.mp hq, hkey]

/-- The number of values in the groups. -/
def size (gs : List (κ × List α)) : Nat := (gs.map fun g => g.2.length).sum

theorem size_append : size (append key value gs) = size gs + 1 := by
  induction gs with
  | nil => rfl
  | cons head gs ih =>
    unfold append
    split
    · simp only [size, List.map_cons, List.sum_cons, List.length_append, List.length_singleton]
      omega
    · simp only [size, List.map_cons, List.sum_cons] at ih ⊢
      omega

/-- Every pair is in one group. -/
theorem size_groups (pairs : List (κ × α)) : size (groups pairs) = pairs.length := by
  induction pairs using List.reverseRecOn with
  | nil => rfl
  | append_singleton pairs p ih =>
    rw [groups_append_singleton, size_append, ih, List.length_append, List.length_singleton]

/-- The values of a key. -/
def valuesOf (k : κ) (pairs : List (κ × α)) : List α :=
  (pairs.filter fun p => p.1 = k).map Prod.snd

theorem keys_append :
    (append key value gs).map Prod.fst =
      if key ∈ gs.map Prod.fst then gs.map Prod.fst else gs.map Prod.fst ++ [key] := by
  induction gs with
  | nil => rfl
  | cons head gs ih =>
    obtain ⟨k, values⟩ := head
    unfold append
    by_cases hk : k = key
    · rw [if_pos hk]
      simp [hk]
    · rw [if_neg hk]
      simp only [List.map_cons]
      rw [ih]
      by_cases hmem : key ∈ gs.map Prod.fst
      · rw [if_pos hmem, if_pos (List.mem_cons_of_mem _ hmem)]
      · have hno : key ∉ k :: gs.map Prod.fst := fun h =>
          (List.mem_cons.mp h).elim (fun he => hk he.symm) hmem
        rw [if_neg hmem, if_neg hno, List.cons_append]

theorem mem_append_iff (hnodup : (gs.map Prod.fst).Nodup) :
    (k, vs) ∈ append key value gs ↔
      if k = key then
        (∃ old, (key, old) ∈ gs ∧ vs = old ++ [value]) ∨ key ∉ gs.map Prod.fst ∧ vs = [value]
      else (k, vs) ∈ gs := by
  induction gs with
  | nil =>
    unfold append
    by_cases hk : k = key <;> simp [hk]
  | cons head gs ih =>
    obtain ⟨k₀, old₀⟩ := head
    obtain ⟨hfresh, hrest⟩ := List.nodup_cons.mp hnodup
    unfold append
    by_cases h0 : k₀ = key
    · -- the key of the first group
      subst h0
      rw [if_pos rfl]
      have hno : ∀ old, (k₀, old) ∉ gs := fun old hold =>
        hfresh (List.mem_map.mpr ⟨(k₀, old), hold, rfl⟩)
      by_cases hk : k = k₀
      · subst hk
        simp [hno]
      · simp [hk]
    · rw [if_neg h0, List.mem_cons, ih hrest]
      by_cases hk : k = key
      · have h0' : ¬ key = k₀ := fun h => h0 h.symm
        simp [hk, h0']
      · simp [hk]

theorem nodup_groups (pairs : List (κ × α)) : ((groups pairs).map Prod.fst).Nodup := by
  induction pairs using List.reverseRecOn with
  | nil => exact List.nodup_nil
  | append_singleton pairs p ih =>
    rw [groups_append_singleton, keys_append]
    split
    · exact ih
    · next hnew => exact List.nodup_append.mpr ⟨ih, List.nodup_singleton _, by
        intro a ha b hb he
        rw [List.mem_singleton.mp hb] at he
        exact hnew (he ▸ ha)⟩

theorem valuesOf_eq_nil (h : k ∉ pairs.map Prod.fst) : valuesOf k pairs = [] := by
  unfold valuesOf
  rw [List.map_eq_nil_iff, List.filter_eq_nil_iff]
  intro q hq he
  exact h (List.mem_map.mpr ⟨q, hq, by simpa using he⟩)

theorem mem_keys (pairs : List (κ × α)) :
    k ∈ (groups pairs).map Prod.fst ↔ k ∈ pairs.map Prod.fst := by
  induction pairs using List.reverseRecOn with
  | nil => rfl
  | append_singleton pairs p ih =>
    rw [groups_append_singleton, keys_append, List.map_append, List.mem_append, ← ih]
    split
    · next hold =>
      constructor
      · exact .inl
      · rintro (h | h)
        · exact h
        · rw [List.mem_singleton.mp h]
          exact hold
    · rw [List.mem_append]
      rfl

/-- **The groups**: every key of a pair, with its values in their order. -/
theorem mem_groups (pairs : List (κ × α)) :
    (k, vs) ∈ groups pairs ↔ k ∈ pairs.map Prod.fst ∧ vs = valuesOf k pairs := by
  induction pairs using List.reverseRecOn generalizing vs with
  | nil => simp [groups]
  | append_singleton pairs p ih =>
    obtain ⟨key, value⟩ := p
    rw [groups_append_singleton, mem_append_iff (nodup_groups pairs)]
    have hvalues : valuesOf k (pairs ++ [(key, value)]) =
        valuesOf k pairs ++ if key = k then [value] else [] := by
      unfold valuesOf
      rw [List.filter_append, List.map_append]
      by_cases hk : key = k <;> simp [hk]
    rw [hvalues, List.map_append, List.mem_append]
    by_cases hk : k = key
    · subst hk
      rw [if_pos rfl, if_pos rfl, mem_keys]
      simp only [ih]
      constructor
      · rintro (⟨old, ⟨-, rfl⟩, rfl⟩ | ⟨hnew, rfl⟩)
        · exact ⟨.inr (by simp), rfl⟩
        · refine ⟨.inr (by simp), ?_⟩
          rw [valuesOf_eq_nil hnew]
          rfl
      · rintro ⟨-, rfl⟩
        by_cases hold : k ∈ pairs.map Prod.fst
        · exact .inl ⟨_, ⟨hold, rfl⟩, rfl⟩
        · refine .inr ⟨hold, ?_⟩
          rw [valuesOf_eq_nil hold]
          rfl
    · have hk' : ¬ key = k := fun h => hk h.symm
      rw [if_neg hk, if_neg hk', ih, List.append_nil]
      simp [hk]
end CortexHarness.Grouping
