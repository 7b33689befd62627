import CortexHarness.Library.Latest
import Mathlib.Order.Defs.LinearOrder

/-!
# The best row of every key

`keepBest key better rows` fills a dict row by row; a row replaces the one stored under its key only
when it is better. `best better rows` is the row that wins among rows of one key.

Results: `keyed_keepBest`; `mem_keepBest`: what is kept for a key depends on the rows of that key
alone; `mem_keepBest_flatMap`: of groups that share no key, every group keeps its own; `best_le` and
`best_cons_of_le`: by a measure, the row that wins is the first of those with the highest.
-/

namespace CortexHarness.Table

variable {α κ : Type} [DecidableEq κ] (key : α → κ) (better : α → α → Bool)

/-- Store the row, unless the one under its key is as good. -/
def keepBetter (t : List α) (r : α) : List α :=
  if (lookup key (key r) t).all (better r) then assign key r t else t

/-- The rows that are left in the end. -/
def keepBest (rows : List α) : List α := rows.foldl (keepBetter key better) []

/-- The first row that no later one beats. -/
def best (rows : List α) : Option α :=
  rows.foldl (fun winner r => if winner.all (better r) then some r else winner) none

variable {key better}

/-- A dict keeps one row for a key. -/
theorem keyed_keepBest (rows : List α) : Keyed key (keepBest key better rows) := by
  have hkeep : ∀ (rows t : List α),
      Keyed key t → Keyed key (rows.foldl (keepBetter key better) t) := by
    intro rows
    induction rows with
    | nil => exact fun _ h => h
    | cons r rows ih =>
      intro t h
      refine ih _ ?_
      unfold keepBetter
      split
      · exact h.assign r
      · exact h
  exact hkeep rows [] List.nodup_nil

theorem lookup_keepBest (rows : List α) (k : κ) :
    lookup key k (keepBest key better rows) = best better (rows.filter fun r => key r = k) := by
  have hfold : ∀ (rows t : List α), lookup key k (rows.foldl (keepBetter key better) t) =
      (rows.filter fun r => key r = k).foldl
        (fun winner r => if winner.all (better r) then some r else winner) (lookup key k t) := by
    intro rows
    induction rows with
    | nil => exact fun _ => rfl
    | cons r rows ih =>
      intro t
      rw [List.foldl_cons, ih, keepBetter]
      by_cases hk : key r = k
      · subst hk
        rw [List.filter_cons_of_pos (by simp), List.foldl_cons]
        congr 1
        split
        · rw [lookup_assign, if_pos rfl]
        · rfl
      · rw [List.filter_cons_of_neg (by simpa using hk)]
        congr 1
        split
        · rw [lookup_assign, if_neg hk]
        · rfl
  exact hfold rows []

theorem mem_keepBest {rows : List α} {r : α} :
    r ∈ keepBest key better rows ↔ best better (rows.filter fun x => key x = key r) = some r := by
  rw [← lookup_keepBest]
  exact ⟨lookup_of_mem (keyed_keepBest rows), lookup_mem⟩

theorem best_mem {rows : List α} {r : α} (h : best better rows = some r) : r ∈ rows := by
  have hfold : ∀ (rows : List α) (winner : Option α),
      rows.foldl (fun winner r => if winner.all (better r) then some r else winner) winner = some r →
        r ∈ rows ∨ winner = some r := by
    intro rows
    induction rows with
    | nil => exact fun _ h => .inr h
    | cons x rows ih =>
      intro winner h
      rcases ih _ h with hin | hnow
      · exact .inl (List.mem_cons_of_mem _ hin)
      · simp only at hnow
        split at hnow
        · exact .inl (Option.some.inj hnow ▸ List.mem_cons_self)
        · exact .inr hnow
  exact (hfold rows none h).resolve_right (by simp)

theorem best_isSome {rows : List α} (h : rows ≠ []) : ∃ w, best better rows = some w := by
  have hfold : ∀ (rows : List α) (winner : α), ∃ w,
      rows.foldl (fun winner r => if winner.all (better r) then some r else winner)
        (some winner) = some w := by
    intro rows
    induction rows with
    | nil => exact fun winner => ⟨winner, rfl⟩
    | cons r rows ih =>
      intro winner
      rw [List.foldl_cons]
      split
      · exact ih r
      · exact ih winner
  obtain ⟨r, rows, rfl⟩ := List.exists_cons_of_ne_nil h
  exact hfold rows r

theorem map_key_keepBest {rows : List α} {k : κ} :
    k ∈ (keepBest key better rows).map key ↔ k ∈ rows.map key := by
  constructor
  · intro h
    obtain ⟨r, hr, rfl⟩ := List.mem_map.mp h
    exact List.mem_map_of_mem (List.mem_filter.mp (best_mem (mem_keepBest.mp hr))).1
  · intro h
    obtain ⟨r, hr, rfl⟩ := List.mem_map.mp h
    have hrows : (rows.filter fun x => key x = key r) ≠ [] :=
      List.ne_nil_of_mem (List.mem_filter.mpr ⟨hr, decide_eq_true rfl⟩)
    obtain ⟨w, hw⟩ : ∃ w, best better _ = some w := best_isSome hrows
    have hkey : key w = key r := of_decide_eq_true (List.mem_filter.mp (best_mem hw)).2
    refine List.mem_map.mpr ⟨w, mem_keepBest.mpr ?_, hkey⟩
    rw [hkey, hw]

section Measure

variable {β : Type} [LinearOrder β] {f : α → β} {rows : List α} {w : α}

/-- **The row kept by a measure has the highest one.** -/
theorem best_le (h : best (fun r w => decide (f w < f r)) rows = some w) :
    ∀ r ∈ rows, f r ≤ f w := by
  have hfold : ∀ (rows : List α) (winner : Option α),
      rows.foldl (fun winner r => if winner.all (fun w => decide (f w < f r)) then some r
        else winner) winner = some w → (∀ x ∈ winner, f x ≤ f w) ∧ ∀ r ∈ rows, f r ≤ f w := by
    intro rows
    induction rows with
    | nil =>
      intro winner h
      rw [List.foldl_nil] at h
      subst h
      exact ⟨fun x hx => by rw [Option.mem_some.mp hx], fun r hr => by cases hr⟩
    | cons r rows ih =>
      intro winner h
      obtain ⟨hwinner, hrows⟩ := ih _ h
      dsimp only at hwinner
      by_cases hr : winner.all (fun w => decide (f w < f r)) = true
      · rw [if_pos hr] at hwinner
        have hrw := hwinner r rfl
        refine ⟨fun x hx => ?_, List.forall_mem_cons.mpr ⟨hrw, hrows⟩⟩
        have hlt : f x < f r := by simpa [Option.mem_def.mp hx] using hr
        exact hlt.le.trans hrw
      · rw [if_neg hr] at hwinner
        refine ⟨hwinner, List.forall_mem_cons.mpr ⟨?_, hrows⟩⟩
        cases winner with
        | none => exact absurd rfl hr
        | some x =>
          have hle : f r ≤ f x := by simpa using hr
          exact hle.trans (hwinner x rfl)
  exact (hfold rows none h).2

/-- Of the rows with the highest measure the first one is kept. -/
theorem best_cons_of_le (h : ∀ r ∈ rows, f r ≤ f w) :
    best (fun r w => decide (f w < f r)) (w :: rows) = some w := by
  show rows.foldl _ (some w) = some w
  induction rows with
  | nil => rfl
  | cons r rows ih =>
    obtain ⟨hr, hrows⟩ := List.forall_mem_cons.mp h
    have hkeep : ¬ (some w).all (fun w => decide (f w < f r)) = true := by simpa using hr
    rw [List.foldl_cons, if_neg hkeep]
    exact ih hrows

end Measure

theorem mem_of_mem_keepBest {rows : List α} {r : α} (h : r ∈ keepBest key better rows) : r ∈ rows :=
  (List.mem_filter.mp (best_mem (mem_keepBest.mp h))).1

theorem flatMap_eq_of_unique {β γ : Type} {items : List β} (hnodup : items.Nodup) {f : β → List γ}
    {a : β} (ha : a ∈ items) (hother : ∀ b ∈ items, b ≠ a → f b = []) : items.flatMap f = f a := by
  induction items with
  | nil => cases ha
  | cons b items ih =>
    rw [List.nodup_cons] at hnodup
    rw [List.flatMap_cons]
    rcases List.mem_cons.mp ha with rfl | ha
    · have hnone : items.flatMap f = [] := List.flatMap_eq_nil_iff.mpr fun b hb =>
        hother b (List.mem_cons_of_mem _ hb) fun he => hnodup.1 (he ▸ hb)
      rw [hnone, List.append_nil]
    · have hb : f b = [] := hother b List.mem_cons_self fun he => hnodup.1 (he ▸ ha)
      rw [hb, List.nil_append]
      exact ih hnodup.2 ha fun c hc => hother c (List.mem_cons_of_mem _ hc)

/-- **Of groups that share no key, every group keeps its own rows.** -/
theorem mem_keepBest_flatMap {β : Type} {items : List β} (hnodup : items.Nodup) {f : β → List α}
    (hapart : ∀ a ∈ items, ∀ b ∈ items, ∀ r ∈ f a, ∀ r' ∈ f b, key r = key r' → a = b) {r : α} :
    r ∈ keepBest key better (items.flatMap f) ↔ ∃ a ∈ items, r ∈ keepBest key better (f a) := by
  have hgroup : ∀ a ∈ items, r ∈ f a →
      (items.flatMap f).filter (fun x => key x = key r) = (f a).filter fun x => key x = key r := by
    intro a ha hr
    rw [List.filter_flatMap]
    refine flatMap_eq_of_unique hnodup ha fun b hb hne => ?_
    rw [List.filter_eq_nil_iff]
    intro x hx hkey
    exact hne (hapart b hb a ha x hx r hr (of_decide_eq_true hkey))
  constructor
  · intro h
    obtain ⟨a, ha, hr⟩ := List.mem_flatMap.mp (mem_of_mem_keepBest h)
    rw [mem_keepBest, hgroup a ha hr, ← mem_keepBest] at h
    exact ⟨a, ha, h⟩
  · rintro ⟨a, ha, h⟩
    have hr := mem_of_mem_keepBest h
    rw [mem_keepBest, hgroup a ha hr, ← mem_keepBest]
    exact h

end CortexHarness.Table
