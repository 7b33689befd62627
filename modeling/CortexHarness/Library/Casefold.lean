import CortexHarness.Library.Python
import CortexHarness.Library.Text

/-!
# Case folding

`Casefold` is `str.casefold`, which folds one character after another. Its laws are those of the
Unicode table: ASCII letters become lower case, no character vanishes, and blanks stay blanks.

Results: `text_stripChars`: folding commutes with stripping, and `text_append` with joining;
`text_ascii`: a lower-case ASCII text stays.
-/

namespace CortexHarness

structure Casefold where
  /-- `str.casefold` of one character -/
  fold : Char → List Char
  fold_ascii : ∀ c, c.toNat < 128 → fold c = [c.toLower]
  fold_ne_nil : ∀ c, fold c ≠ []
  fold_space : ∀ c, ∀ d ∈ fold c, isSpace d = isSpace c

namespace Casefold

/-- `str.casefold` -/
def text (F : Casefold) (t : List Char) : List Char := t.flatMap F.fold

variable (F : Casefold) {f : Char → List Char}

theorem text_append (s t : List Char) : F.text (s ++ t) = F.text s ++ F.text t :=
  List.flatMap_append

/-- A text of lower-case ASCII characters stays. -/
theorem text_ascii {t : List Char} (h : t.all (fun c => c.toNat < 128 ∧ c.toLower = c) = true) :
    F.text t = t := by
  induction t with
  | nil => rfl
  | cons c t ih =>
    rw [List.all_cons, Bool.and_eq_true, decide_eq_true_eq] at h
    obtain ⟨⟨hascii, hlower⟩, hrest⟩ := h
    unfold text at ih ⊢
    rw [List.flatMap_cons, ih hrest, F.fold_ascii c hascii, hlower, List.singleton_append]

theorem dropWhile_flatMap (hne : ∀ c, f c ≠ []) (hspace : ∀ c, ∀ d ∈ f c, isSpace d = isSpace c)
    (t : List Char) :
    (t.flatMap f).dropWhile isSpace = (t.dropWhile isSpace).flatMap f := by
  induction t with
  | nil => rfl
  | cons c t ih =>
    rw [List.flatMap_cons]
    cases hc : isSpace c with
    | true =>
      have hall : ∀ d ∈ f c, isSpace d = true := fun d hd => (hspace c d hd).trans hc
      rw [List.dropWhile_append, List.dropWhile_eq_nil_iff.mpr hall, List.dropWhile_cons_of_pos hc]
      exact ih
    | false =>
      obtain ⟨d, ds, hd⟩ := List.exists_cons_of_ne_nil (hne c)
      have hfirst : isSpace d = false := (hspace c d (hd ▸ List.mem_cons_self)).trans hc
      rw [List.dropWhile_cons_of_neg (by simp [hc]), List.flatMap_cons, hd, List.cons_append,
        List.dropWhile_cons_of_neg (by simp [hfirst])]

/-- **Folding commutes with stripping.** -/
theorem text_stripChars (t : List Char) : F.text (stripChars t) = stripChars (F.text t) := by
  have hreverse : ∀ t : List Char, (t.flatMap F.fold).reverse =
      t.reverse.flatMap fun c => (F.fold c).reverse := fun t => List.reverse_flatMap
  unfold text stripChars
  rw [dropWhile_flatMap F.fold_ne_nil F.fold_space, hreverse,
    dropWhile_flatMap (fun c => mt List.reverse_eq_nil_iff.mp (F.fold_ne_nil c))
      (fun c d hd => F.fold_space c d (List.mem_reverse.mp hd)), List.reverse_flatMap]
  simp only [Function.comp_def, List.reverse_reverse]

/-- The folding of texts in ASCII. -/
def ascii : Casefold where
  fold c := [if c.toNat < 128 then c.toLower else c]
  fold_ascii c hc := by simp [hc]
  fold_ne_nil _ := by simp
  fold_space c d hd := by
    rw [List.mem_singleton] at hd
    subst hd
    by_cases hc : c.toNat < 128
    · simp only [hc, if_true]
      exact ascii_induction (p := fun c => isSpace c.toLower = isSpace c) (by decide) hc
    · simp [hc]

end Casefold

end CortexHarness
