import Mathlib.Data.List.Nodup
import Mathlib.Tactic.Common

/-!
# Walks of a multigraph

A walk goes along relationships, against or with their direction; a trail repeats none of them. What
a database answers about paths lies between both, and the shortest lengths are the same for all.

Results: `Walk.append`, `Walk.split`: walks one after another; **`Walk.exists_trail`**: a walk leads
where a trail leads, which is not longer.
-/

namespace CortexHarness.Walks

variable {V E : Type}

/-- The relationship `e` leads from `u` to `w`, or back. -/
def Joins (ends : E → V × V) (e : E) (u w : V) : Prop := ends e = (u, w) ∨ ends e = (w, u)

/-- A walk from `u` to `v` along the relationships of a list. -/
inductive Walk (ends : E → V × V) (allowed : E → Prop) : V → List E → V → Prop
  | nil (u : V) : Walk ends allowed u [] u
  | cons {u w v : V} {e : E} {es : List E} (he : allowed e) (hjoins : Joins ends e u w)
      (rest : Walk ends allowed w es v) : Walk ends allowed u (e :: es) v

variable {ends : E → V × V} {allowed : E → Prop} {u v w : V} {e : E} {es es' : List E}

theorem Joins.symm (h : Joins ends e u w) : Joins ends e w u := Or.symm h

/-- A relationship is walked in one direction or in the other. -/
theorem Joins.eq_or_swap {u' w' : V} (h : Joins ends e u w) (h' : Joins ends e u' w') :
    (u = u' ∧ w = w') ∨ (u = w' ∧ w = u') := by
  unfold Joins at h h'
  rcases h with h | h <;> rcases h' with h' | h' <;> rw [h] at h' <;> cases h' <;> simp

theorem Walk.append (h : Walk ends allowed u es v) (h' : Walk ends allowed v es' w) :
    Walk ends allowed u (es ++ es') w := by
  induction h with
  | nil => exact h'
  | cons he hjoins _ ih => exact .cons he hjoins (ih h')

theorem Walk.split (h : Walk ends allowed u (es ++ es') w) :
    ∃ v, Walk ends allowed u es v ∧ Walk ends allowed v es' w := by
  induction es generalizing u with
  | nil => exact ⟨u, .nil u, h⟩
  | cons e es ih =>
    cases h with
    | cons he hjoins rest =>
      obtain ⟨v, hleft, hright⟩ := ih rest
      exact ⟨v, .cons he hjoins hleft, hright⟩

/-- A walk that goes twice along a relationship is not the shortest. -/
theorem Walk.shorten {before between after : List E}
    (h : Walk ends allowed u (before ++ e :: between ++ e :: after) v) :
    ∃ es, Walk ends allowed u es v ∧ es.length < (before ++ e :: between ++ e :: after).length := by
  obtain ⟨x, hfirst, hrest⟩ := h.split
  obtain ⟨y, hbefore, hmiddle⟩ := hfirst.split
  cases hrest with
  | cons he hjoins' hafter =>
    cases hmiddle with
    | cons _ hjoins hbetween =>
      have hlength : (before ++ e :: between ++ e :: after).length =
          before.length + (between.length + 1) + (after.length + 1) := by
        simp only [List.length_append, List.length_cons]
      rw [hlength]
      rcases hjoins.eq_or_swap hjoins' with ⟨rfl, rfl⟩ | ⟨rfl, rfl⟩
      · exact ⟨before ++ e :: after, hbefore.append (.cons he hjoins hafter), by
          rw [List.length_append, List.length_cons]; omega⟩
      · exact ⟨before ++ after, hbefore.append hafter, by rw [List.length_append]; omega⟩

/-- A list with a repetition, cut around the two places. -/
theorem exists_repetition (h : ¬ es.Nodup) :
    ∃ e before between after, es = before ++ e :: between ++ e :: after := by
  induction es with
  | nil => exact absurd List.nodup_nil h
  | cons e es ih =>
    rw [List.nodup_cons, not_and] at h
    by_cases he : e ∈ es
    · obtain ⟨between, after, rfl⟩ := List.append_of_mem he
      exact ⟨e, [], between, after, rfl⟩
    · obtain ⟨e', before, between, after, rfl⟩ := ih (h he)
      exact ⟨e', e :: before, between, after, rfl⟩

/-- **A walk leads where a trail leads, which is not longer.** -/
theorem Walk.exists_trail (h : Walk ends allowed u es v) :
    ∃ trail, Walk ends allowed u trail v ∧ trail.Nodup ∧ trail.length ≤ es.length := by
  induction hlength : es.length using Nat.strongRecOn generalizing es with
  | ind n ih =>
    subst hlength
    by_cases hnodup : es.Nodup
    · exact ⟨es, h, hnodup, Nat.le_refl _⟩
    · obtain ⟨e, before, between, after, rfl⟩ := exists_repetition hnodup
      obtain ⟨shorter, hwalk, hlt⟩ := h.shorten
      obtain ⟨trail, htrail, hnodup', hle⟩ := ih shorter.length hlt hwalk rfl
      exact ⟨trail, htrail, hnodup', Nat.le_trans hle (Nat.le_of_lt hlt)⟩

end CortexHarness.Walks
