import Mathlib.Data.List.Infix

/-!
# Replacing the matches of literal patterns

A literal pattern is a list of tests, one for each element it matches. `replaceAll` puts a fill in
the place of the matches it meets from the left to the right.

* `Avoids`: no test of the pattern accepts an element of the fill.

Results:
* `not_occurs_replaceAll`: a pattern that avoids its own fill does not occur in what is left;
* `occurs_of_replaceAll`: a pattern that avoids a fill does not come to occur by putting it in;
* **`not_occurs_foldl`**: after a sequence of replacements none of the patterns occurs, in whichever
  order they came and however they overlap.
-/

namespace CortexHarness.Replace

variable {α : Type}

abbrev Pattern (α : Type) := List (α → Bool)

/-- The pattern matches at the start of the text. -/
def matchesAt : Pattern α → List α → Bool
  | [], _ => true
  | _ :: _, [] => false
  | test :: tests, a :: text => test a && matchesAt tests text

/-- The pattern matches somewhere in the text. -/
def occurs (pattern : Pattern α) (text : List α) : Bool := text.tails.any (matchesAt pattern)

/-- The text with its matches replaced, where `skip` elements belong to a match already. -/
def replaceFrom (pattern : Pattern α) (fill : List α) : (skip : Nat) → List α → List α
  | _, [] => []
  | skip + 1, _ :: text => replaceFrom pattern fill skip text
  | 0, a :: text =>
    if matchesAt pattern (a :: text) then
      fill ++ replaceFrom pattern fill (pattern.length - 1) text
    else a :: replaceFrom pattern fill 0 text

def replaceAll (pattern : Pattern α) (fill text : List α) : List α :=
  replaceFrom pattern fill 0 text

def Avoids (pattern : Pattern α) (fill : List α) : Prop :=
  ∀ test ∈ pattern, ∀ a ∈ fill, test a = false

variable {p q : Pattern α} {fill text : List α}

theorem occurs_iff : occurs p text = true ↔ ∃ tail, tail <:+ text ∧ matchesAt p tail = true := by
  rw [occurs, List.any_eq_true]
  simp only [List.mem_tails]

theorem occurs_cons {a : α} :
    occurs p (a :: text) = true ↔ matchesAt p (a :: text) = true ∨ occurs p text = true := by
  simp [occurs]

theorem matchesAt_append {rest : List α} (h : matchesAt p text = true) :
    matchesAt p (text ++ rest) = true := by
  induction p generalizing text with
  | nil => rfl
  | cons test p ih =>
    cases text with
    | nil => cases h
    | cons a text =>
      obtain ⟨ha, htext⟩ := Bool.and_eq_true_iff.mp h
      exact Bool.and_eq_true_iff.mpr ⟨ha, ih htext⟩

theorem occurs_of_append {rest : List α} (h : occurs p text = true) :
    occurs p (text ++ rest) = true := by
  obtain ⟨tail, ⟨before, rfl⟩, hmatch⟩ := occurs_iff.mp h
  exact occurs_iff.mpr ⟨tail ++ rest, ⟨before, (List.append_assoc ..).symm⟩,
    matchesAt_append hmatch⟩

theorem occurs_fill (hp : p ≠ []) (h : Avoids p fill) :
    occurs p (fill ++ text) = true ↔ occurs p text = true := by
  induction fill with
  | nil => rfl
  | cons a fill ih =>
    have htail : Avoids p fill := fun test ht b hb => h test ht b (List.mem_cons_of_mem a hb)
    have hhead : matchesAt p (a :: (fill ++ text)) = false := by
      obtain ⟨test, tests, rfl⟩ := List.exists_cons_of_ne_nil hp
      rw [matchesAt, h test List.mem_cons_self a List.mem_cons_self, Bool.false_and]
    rw [List.cons_append, occurs_cons, hhead, ih htail]
    simp

/-- A match at the start of the replaced text was there before: had something been replaced inside
it, it would contain the fill. -/
theorem matchesAt_of_replaceAll (hfill : fill ≠ []) (h : Avoids p fill)
    (hmatch : matchesAt p (replaceAll q fill text) = true) : matchesAt p text = true := by
  induction p generalizing text with
  | nil => rfl
  | cons test p ih =>
    cases text with
    | nil => cases hmatch
    | cons a text =>
      rw [replaceAll, replaceFrom] at hmatch
      split at hmatch
      · obtain ⟨b, fill, rfl⟩ := List.exists_cons_of_ne_nil hfill
        rw [List.cons_append, matchesAt, h test List.mem_cons_self b List.mem_cons_self,
          Bool.false_and] at hmatch
        cases hmatch
      · obtain ⟨ha, hrest⟩ := Bool.and_eq_true_iff.mp hmatch
        exact Bool.and_eq_true_iff.mpr
          ⟨ha, ih (fun t ht => h t (List.mem_cons_of_mem test ht)) hrest⟩

theorem occurs_of_replaceFrom (hp : p ≠ []) (hfill : fill ≠ []) (h : Avoids p fill) {skip : Nat}
    (hocc : occurs p (replaceFrom q fill skip text) = true) : occurs p text = true := by
  induction text generalizing skip with
  | nil => exact hocc
  | cons a text ih =>
    cases skip with
    | succ skip => exact occurs_cons.mpr (Or.inr (ih hocc))
    | zero =>
      by_cases hq : matchesAt q (a :: text) = true
      · rw [replaceFrom, if_pos hq, occurs_fill hp h] at hocc
        exact occurs_cons.mpr (Or.inr (ih hocc))
      · have hmatch : matchesAt p (replaceAll q fill (a :: text)) = true →
            matchesAt p (a :: text) = true := matchesAt_of_replaceAll hfill h
        rw [replaceAll] at hmatch
        rw [replaceFrom, if_neg hq] at hocc hmatch
        rcases occurs_cons.mp hocc with hocc | hocc
        · exact occurs_cons.mpr (Or.inl (hmatch hocc))
        · exact occurs_cons.mpr (Or.inr (ih hocc))

/-- A pattern that avoids the fill does not come to occur. -/
theorem occurs_of_replaceAll (hp : p ≠ []) (hfill : fill ≠ []) (h : Avoids p fill)
    (hocc : occurs p (replaceAll q fill text) = true) : occurs p text = true :=
  occurs_of_replaceFrom hp hfill h hocc

theorem not_occurs_replaceFrom (hp : p ≠ []) (hfill : fill ≠ []) (h : Avoids p fill) (skip : Nat) :
    occurs p (replaceFrom p fill skip text) = false := by
  induction text generalizing skip with
  | nil =>
    obtain ⟨test, tests, rfl⟩ := List.exists_cons_of_ne_nil hp
    cases skip <;> rfl
  | cons a text ih =>
    cases skip with
    | succ skip => exact ih skip
    | zero =>
      apply Bool.eq_false_iff.mpr
      by_cases hmatch : matchesAt p (a :: text) = true
      · rw [replaceFrom, if_pos hmatch, Ne, occurs_fill hp h]
        exact Bool.eq_false_iff.mp (ih _)
      · have hstart : matchesAt p (replaceAll p fill (a :: text)) = true →
            matchesAt p (a :: text) = true := matchesAt_of_replaceAll hfill h
        rw [replaceAll] at hstart
        rw [replaceFrom, if_neg hmatch] at hstart ⊢
        intro hocc
        rcases occurs_cons.mp hocc with hocc | hocc
        · exact hmatch (hstart hocc)
        · exact Bool.eq_false_iff.mp (ih 0) hocc

theorem replaceAll_of_not_occurs (h : occurs p text = false) : replaceAll p fill text = text := by
  induction text with
  | nil => rfl
  | cons a text ih =>
    have hcons := Bool.eq_false_iff.mp h
    rw [Ne, occurs_cons, not_or] at hcons
    rw [replaceAll, replaceFrom, if_neg hcons.1]
    exact congrArg (a :: ·) (ih (Bool.eq_false_iff.mpr hcons.2))

/-- A pattern that avoids its fill is gone. -/
theorem not_occurs_replaceAll (hp : p ≠ []) (hfill : fill ≠ []) (h : Avoids p fill) :
    occurs p (replaceAll p fill text) = false :=
  not_occurs_replaceFrom hp hfill h 0

/-- What does not occur stays away, whatever is replaced. -/
theorem not_occurs_foldl_of {steps : List (Pattern α × List α)} (hp : p ≠ [])
    (hsteps : ∀ s ∈ steps, s.2 ≠ [] ∧ Avoids p s.2) (hocc : occurs p text = false) :
    occurs p (steps.foldl (fun text s => replaceAll s.1 s.2 text) text) = false := by
  induction steps generalizing text with
  | nil => exact hocc
  | cons s steps ih =>
    obtain ⟨⟨hfill, hs⟩, hrest⟩ := List.forall_mem_cons.mp hsteps
    refine ih hrest (Bool.eq_false_iff.mpr fun h => ?_)
    exact Bool.eq_false_iff.mp hocc (occurs_of_replaceAll hp hfill hs h)

/-- **After a sequence of replacements no pattern occurs** that is among them and avoids the
fills. -/
theorem not_occurs_foldl {steps : List (Pattern α × List α)} (hp : p ≠ [])
    (hsteps : ∀ s ∈ steps, s.2 ≠ [] ∧ Avoids p s.2) (hmem : ∃ s ∈ steps, s.1 = p) :
    occurs p (steps.foldl (fun text s => replaceAll s.1 s.2 text) text) = false := by
  obtain ⟨s, hs, rfl⟩ := hmem
  obtain ⟨before, after, rfl⟩ := List.append_of_mem hs
  rw [List.foldl_append, List.foldl_cons]
  refine not_occurs_foldl_of hp (fun t ht => hsteps t (by simp [ht])) ?_
  exact not_occurs_replaceAll hp (hsteps s hs).1 (hsteps s hs).2

end CortexHarness.Replace
