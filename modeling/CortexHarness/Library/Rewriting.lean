import Mathlib.Data.List.Infix

/-!
# Rewriting a text from the left

A rule reads the start of a text; it fails, or says what to put in the place of how many elements.
`rewrite rule text` applies the rule wherever it does not fail, from the left, to places that do not
overlap: `re.sub` with a pattern that never matches the empty text.

* `Shortens`: what a rule puts in is shorter than what it takes;
* `Shrinking`: a function leaves a text as it is, or makes it shorter.

Results:
* **`rewrite_eq_self_iff`**: a rule that shortens leaves a text as it is iff it applies nowhere;
* **`foldl_eq_self_iff`**: a sequence of shrinking steps leaves a text as it is iff each one does;
* `rewrite_keep`, `mem_rewrite`: what a rewriting keeps.
-/

namespace CortexHarness.Rewriting

variable {α : Type}

/-- What to put in the place of how many elements. -/
abbrev Rule (α : Type) := List α → Option (List α × Nat)

/-- The text rewritten, where `skip` elements have been taken already. -/
def rewriteFrom (rule : Rule α) : (skip : Nat) → List α → List α
  | _, [] => []
  | skip + 1, _ :: text => rewriteFrom rule skip text
  | 0, a :: text =>
    match rule (a :: text) with
    | some (fill, n) => fill ++ rewriteFrom rule (n - 1) text
    | none => a :: rewriteFrom rule 0 text

def rewrite (rule : Rule α) (text : List α) : List α := rewriteFrom rule 0 text

/-- The rule applies somewhere in the text. -/
def found (rule : Rule α) (text : List α) : Bool := text.tails.any fun tail => (rule tail).isSome

/-- What is put in is shorter than what is taken. -/
def Shortens (rule : Rule α) : Prop :=
  ∀ text fill n, rule text = some (fill, n) → fill.length < n ∧ n ≤ text.length

variable {rule : Rule α} {text : List α}

theorem found_iff : found rule text = true ↔ ∃ tail, tail <:+ text ∧ (rule tail).isSome = true := by
  rw [found, List.any_eq_true]
  simp only [List.mem_tails]

theorem found_cons {a : α} (text : List α) :
    found rule (a :: text) = ((rule (a :: text)).isSome || found rule text) := by
  rw [found, List.tails_cons, List.any_cons]
  rfl

/-- What has been taken is not read again. -/
theorem rewriteFrom_eq (skip : Nat) (text : List α) :
    rewriteFrom rule skip text = rewrite rule (text.drop skip) := by
  induction text generalizing skip with
  | nil =>
    rw [List.drop_nil]
    cases skip <;> rfl
  | cons a text ih =>
    cases skip with
    | zero => rfl
    | succ skip => exact ih skip

theorem length_rewriteFrom_le (h : Shortens rule) (skip : Nat) (text : List α) :
    (rewriteFrom rule skip text).length ≤ text.length - skip := by
  induction text generalizing skip with
  | nil => exact Nat.zero_le _
  | cons a text ih =>
    cases skip with
    | succ skip =>
      have := ih skip
      rw [List.length_cons, Nat.succ_sub_succ]
      exact this
    | zero =>
      rw [rewriteFrom]
      cases happly : rule (a :: text) with
      | none =>
        have := ih 0
        simp only [List.length_cons]
        omega
      | some applied =>
        obtain ⟨hshort, hlong⟩ := h _ _ _ happly
        have := ih (applied.2 - 1)
        rw [List.length_cons] at hlong
        simp only [List.length_append, List.length_cons]
        omega

theorem rewrite_of_not_found (h : found rule text = false) : rewrite rule text = text := by
  unfold rewrite
  induction text with
  | nil => rfl
  | cons a text ih =>
    rw [found_cons, Bool.or_eq_false_iff, Option.isSome_eq_false_iff, Option.isNone_iff_eq_none]
      at h
    rw [rewriteFrom, h.1]
    exact congrArg (a :: ·) (ih h.2)

theorem length_rewrite_lt (h : Shortens rule) (hfound : found rule text = true) :
    (rewrite rule text).length < text.length := by
  unfold rewrite
  induction text with
  | nil =>
    obtain ⟨tail, htail, happly⟩ := found_iff.mp hfound
    obtain ⟨applied, happly⟩ := Option.isSome_iff_exists.mp happly
    obtain ⟨hshort, hlong⟩ := h _ _ _ happly
    rw [List.suffix_nil.mp htail, List.length_nil] at hlong
    omega
  | cons a text ih =>
    rw [rewriteFrom]
    cases happly : rule (a :: text) with
    | none =>
      rw [found_cons, happly, Option.isSome_none, Bool.false_or] at hfound
      have := ih hfound
      simp only [List.length_cons]
      omega
    | some applied =>
      obtain ⟨hshort, hlong⟩ := h _ _ _ happly
      have := length_rewriteFrom_le h (applied.2 - 1) text
      rw [List.length_cons] at hlong
      simp only [List.length_append, List.length_cons]
      omega

/-- **A rule that shortens leaves a text as it is** iff it applies nowhere. -/
theorem rewrite_eq_self_iff (h : Shortens rule) :
    rewrite rule text = text ↔ found rule text = false := by
  refine ⟨fun hself => ?_, rewrite_of_not_found⟩
  cases hfound : found rule text with
  | false => rfl
  | true =>
    have hlt := length_rewrite_lt h hfound
    rw [hself] at hlt
    exact absurd hlt (Nat.lt_irrefl _)

/-! ## Sequences of steps -/

/-- The step leaves a text as it is, or makes it shorter. -/
def Shrinking (f : List α → List α) : Prop := ∀ text, f text = text ∨ (f text).length < text.length

theorem shrinking_rewrite (h : Shortens rule) : Shrinking (rewrite rule) := by
  intro text
  cases hfound : found rule text with
  | false => exact Or.inl (rewrite_of_not_found hfound)
  | true => exact Or.inr (length_rewrite_lt h hfound)

variable {f : List α → List α}

theorem Shrinking.length_le (h : Shrinking f) (text : List α) : (f text).length ≤ text.length := by
  rcases h text with hself | hlt
  · rw [hself]
  · exact hlt.le

theorem length_foldl_le {steps : List (List α → List α)} (h : ∀ f ∈ steps, Shrinking f)
    (text : List α) : (steps.foldl (fun text f => f text) text).length ≤ text.length := by
  induction steps generalizing text with
  | nil => exact Nat.le_refl _
  | cons f steps ih =>
    obtain ⟨hf, hsteps⟩ := List.forall_mem_cons.mp h
    exact (ih hsteps _).trans (hf.length_le text)

/-- **A sequence of shrinking steps leaves a text as it is** iff each one does. -/
theorem foldl_eq_self_iff {steps : List (List α → List α)} (h : ∀ f ∈ steps, Shrinking f)
    {text : List α} :
    steps.foldl (fun text f => f text) text = text ↔ ∀ f ∈ steps, f text = text := by
  induction steps with
  | nil => simp
  | cons f steps ih =>
    obtain ⟨hf, hsteps⟩ := List.forall_mem_cons.mp h
    rw [List.foldl_cons, List.forall_mem_cons]
    constructor
    · intro hfold
      rcases hf text with hself | hlt
      · rw [hself] at hfold
        exact ⟨hself, (ih hsteps).mp hfold⟩
      · have hle := length_foldl_le hsteps (f text)
        rw [hfold] at hle
        omega
    · rintro ⟨hself, hrest⟩
      rw [hself]
      exact (ih hsteps).mpr hrest

/-! ## What stays -/

/-- A first element to which the rule does not apply stays. -/
theorem rewrite_cons {a : α} (h : rule (a :: text) = none) :
    rewrite rule (a :: text) = a :: rewrite rule text := by
  rw [rewrite, rewriteFrom, h]
  rfl

/-- A start in which the rule applies nowhere is kept. -/
theorem rewrite_keep {kept : List α} (rest : List α)
    (h : ∀ a tail, a :: tail <:+ kept → rule (a :: (tail ++ rest)) = none) :
    rewrite rule (kept ++ rest) = kept ++ rewrite rule rest := by
  induction kept with
  | nil => rfl
  | cons a kept ih =>
    have hkept := ih fun b tail htail => h b tail (htail.trans (List.suffix_cons _ _))
    rw [List.cons_append, rewrite_cons (h a kept List.suffix_rfl), hkept, List.cons_append]

/-- An element that a rule puts in as it takes it stays in the text, or out of it. -/
theorem mem_rewrite {c : α}
    (h : ∀ text fill n, rule text = some (fill, n) →
      1 ≤ n ∧ (c ∈ fill ↔ c ∈ text.take n)) : c ∈ rewrite rule text ↔ c ∈ text := by
  have hfrom : ∀ (text : List α) (skip : Nat),
      c ∈ rewriteFrom rule skip text ↔ c ∈ text.drop skip := by
    intro text
    induction text with
    | nil => intro skip; rw [rewriteFrom, List.drop_nil]
    | cons a text ih =>
      intro skip
      cases skip with
      | succ skip => exact ih skip
      | zero =>
        rw [rewriteFrom]
        cases happly : rule (a :: text) with
        | none => simp only [List.mem_cons, ih 0, List.drop_zero]
        | some applied =>
          obtain ⟨hpos, hmem⟩ := h _ _ _ happly
          obtain ⟨n, hn⟩ := Nat.exists_eq_add_of_le' hpos
          have hsplit : c ∈ a :: text ↔
              c ∈ (a :: text).take applied.2 ∨ c ∈ (a :: text).drop applied.2 := by
            rw [← List.mem_append, List.take_append_drop]
          rw [List.drop_zero, hsplit, ← hmem, List.mem_append, ih, hn]
          rfl
  exact hfrom text 0

end CortexHarness.Rewriting
