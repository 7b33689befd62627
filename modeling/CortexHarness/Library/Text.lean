import Mathlib.Data.List.DropRight
import CortexHarness.Library.Python

/-!
# Texts as lists of characters

* `ascii_induction`: what holds of the 128 ASCII characters one after the other holds of each; the
  letters and digits of an identifier are ASCII;
* `not_of_mem_splitOnP`: no separator is left in the parts of a text that was split;
  `append_cons_inj`: what stands before the first separator is read back;
* `toString_injective`: a decimal tells its number.
-/

namespace CortexHarness

variable {c : Char}

/-- What holds of each of the 128 ASCII characters holds of an ASCII character. -/
theorem ascii_induction {p : Char → Prop} (h : ∀ n : Nat, n < 128 → p (Char.ofNat n))
    (hc : c.toNat < 128) : p c := by
  have := h c.toNat hc
  rwa [Char.ofNat_toNat] at this

/-- A property of the members of a list is decided along the list: the characters are a finite type,
and to run through them all is another way to decide it. -/
theorem forall_mem_of_all {α : Type} {p : α → Prop} [DecidablePred p] {l : List α}
    (h : (l.all fun a => decide (p a)) = true) : ∀ a ∈ l, p a :=
  fun a ha => of_decide_eq_true (List.all_eq_true.mp h a ha)

theorem toNat_of_isAlphanum (h : c.isAlphanum = true) : c.toNat < 128 := by
  delta Char.isAlphanum Char.isAlpha Char.isUpper Char.isLower Char.isDigit at h
  simp only [Bool.or_eq_true, Bool.and_eq_true, decide_eq_true_eq] at h
  rcases h with (⟨-, h⟩ | ⟨-, h⟩) | ⟨-, h⟩
  all_goals exact Nat.lt_of_le_of_lt (UInt32.le_iff_toNat_le.mp h) (by decide)

theorem isAlphanum_of_isLower (h : c.isLower = true) : c.isAlphanum = true := by
  delta Char.isAlphanum Char.isAlpha
  simp [h]

theorem isAlphanum_of_isUpper (h : c.isUpper = true) : c.isAlphanum = true := by
  delta Char.isAlphanum Char.isAlpha
  simp [h]

theorem isAlphanum_of_isDigit (h : c.isDigit = true) : c.isAlphanum = true := by
  simp [Char.isAlphanum, h]

/-- A text without blanks has nothing to strip. -/
theorem stripChars_of_not_space {l : List Char} (h : ∀ c ∈ l, isSpace c = false) :
    stripChars l = l := by
  have hdrop : ∀ l : List Char, (∀ c ∈ l, isSpace c = false) → l.dropWhile isSpace = l := by
    intro l hl
    cases l with
    | nil => rfl
    | cons c cs => rw [List.dropWhile_cons, hl c List.mem_cons_self]; rfl
  rw [stripChars, hdrop l h, hdrop l.reverse fun c hc => h c (List.mem_reverse.mp hc),
    List.reverse_reverse]

/-- There is nothing to strip when neither end is blank. -/
theorem stripChars_eq_self_iff {l : List Char} :
    stripChars l = l ↔ l.dropWhile isSpace = l ∧ l.rdropWhile isSpace = l := by
  constructor
  · intro h
    have hle : (stripChars l).length ≤ (l.dropWhile isSpace).length :=
      (List.rdropWhile_prefix isSpace (l.dropWhile isSpace)).length_le
    rw [h] at hle
    have hdrop : l.dropWhile isSpace = l := (List.dropWhile_suffix isSpace).eq_of_length_le hle
    refine ⟨hdrop, ?_⟩
    rw [stripChars, hdrop] at h
    exact h
  · rintro ⟨hdrop, hrdrop⟩
    rw [stripChars, hdrop]
    exact hrdrop

/-- Characters that are no blanks may be spelled out by others. -/
theorem stripChars_flatMap {f : Char → List Char}
    (hf : ∀ c, isSpace c = false → f c ≠ [] ∧ ∀ d ∈ f c, isSpace d = false) {l : List Char}
    (h : stripChars l = l) : stripChars (l.flatMap f) = l.flatMap f := by
  obtain ⟨hdrop, hrdrop⟩ := stripChars_eq_self_iff.mp h
  refine stripChars_eq_self_iff.mpr ⟨?_, ?_⟩
  · cases l with
    | nil => rfl
    | cons c l =>
      have hc : isSpace c = false := by
        simpa using List.dropWhile_eq_self_iff.mp hdrop (Nat.zero_lt_succ _)
      obtain ⟨hne, hall⟩ := hf c hc
      obtain ⟨d, ds, hd⟩ := List.exists_cons_of_ne_nil hne
      rw [List.flatMap_cons, hd, List.cons_append, List.dropWhile_cons_of_neg]
      simpa using hall d (hd ▸ List.mem_cons_self)
  · induction l using List.reverseRecOn with
    | nil => rfl
    | append_singleton l c _ =>
      have hc : isSpace c = false := by
        simpa using List.rdropWhile_eq_self_iff.mp hrdrop (by simp)
      obtain ⟨hne, hall⟩ := hf c hc
      rw [List.flatMap_append, List.flatMap_singleton]
      refine List.rdropWhile_eq_self_iff.mpr fun hl => ?_
      rw [List.getLast_append_of_ne_nil hl hne]
      simpa using hall _ (List.getLast_mem hne)

/-- No separator is left in a part of a split. -/
theorem not_of_mem_splitOnP {α : Type} {p : α → Bool} {l part : List α}
    (h : part ∈ l.splitOnP p) : ∀ a ∈ part, p a = false := by
  induction l generalizing part with
  | nil =>
    obtain rfl : part = [] := by simpa using h
    exact fun a ha => absurd ha List.not_mem_nil
  | cons b l ih =>
    obtain ⟨head, tail, hsplit⟩ := List.exists_cons_of_ne_nil (List.splitOnP_ne_nil p l)
    rw [List.splitOnP_cons_eq_if_modifyHead, hsplit] at h
    rw [hsplit] at ih
    split at h
    · rcases List.mem_cons.mp h with rfl | h
      · exact fun a ha => absurd ha List.not_mem_nil
      · exact ih h
    · next hb =>
      rcases List.mem_cons.mp h with rfl | h
      · exact List.forall_mem_cons.mpr ⟨by simpa using hb, ih List.mem_cons_self⟩
      · exact ih (List.mem_cons_of_mem _ h)

theorem length_le_of_mem_splitOnP {α : Type} {p : α → Bool} {text part : List α}
    (h : part ∈ text.splitOnP p) : part.length ≤ text.length := by
  induction text generalizing part with
  | nil =>
    obtain rfl : part = [] := by simpa using h
    exact Nat.le_refl _
  | cons c text ih =>
    obtain ⟨head, tail, hsplit⟩ := List.exists_cons_of_ne_nil (List.splitOnP_ne_nil p text)
    rw [List.splitOnP_cons_eq_if_modifyHead, hsplit] at h
    rw [hsplit] at ih
    split at h
    · rcases List.mem_cons.mp h with rfl | h
      · exact Nat.zero_le _
      · exact (ih h).trans (Nat.le_succ _)
    · rcases List.mem_cons.mp h with rfl | h
      · exact Nat.succ_le_succ (ih List.mem_cons_self)
      · exact (ih (List.mem_cons_of_mem _ h)).trans (Nat.le_succ _)

/-! ## Decimals -/

theorem isDigit_toString {n : Nat} {c : Char} (hc : c ∈ (toString n).toList) :
    c.isDigit = true := by
  have hmem : c ∈ Nat.toDigits 10 n := by simpa [toString, Nat.repr] using hc
  exact Nat.isDigit_of_mem_toDigits (by decide) (by decide) hmem

theorem toString_injective {n m : Nat} (h : (toString n).toList = (toString m).toList) : n = m := by
  have hdigits : Nat.toDigits 10 n = Nat.toDigits 10 m := by
    simpa [toString, Nat.repr] using h
  rw [← @Nat.ofDigitChars_toDigits 10 n (by decide) (by decide), hdigits,
    Nat.ofDigitChars_toDigits (by decide) (by decide)]

/-- A text is read back up to the first separator. -/
theorem append_cons_inj {α : Type} [DecidableEq α] {a : α} {l l' r r' : List α} (hl : a ∉ l)
    (hl' : a ∉ l') (h : l ++ a :: r = l' ++ a :: r') : l = l' ∧ r = r' := by
  have htake : ∀ {l r : List α}, a ∉ l → (l ++ a :: r).takeWhile (· ≠ a) = l := by
    intro l r hl
    have hpos : ∀ b ∈ l, decide (b ≠ a) = true := fun b hb =>
      decide_eq_true fun he : b = a => hl (he ▸ hb)
    rw [List.takeWhile_append_of_pos hpos]
    simp
  have hsame : l = l' := by
    rw [← htake (r := r) hl, h, htake hl']
  subst hsame
  exact ⟨rfl, (List.cons.inj (List.append_cancel_left h)).2⟩

end CortexHarness
