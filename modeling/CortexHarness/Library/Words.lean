import CortexHarness.Library.Text
import Mathlib.Data.List.Infix

/-!
# The words of a text

`words` is `str.split()`: the runs of characters that are no blanks.

Results: `words_append_cons`: a blank separates words; `words_singleton`; `words_stripChars`: the
blanks at both ends do not count; `not_space_of_mem_words`: no blank is left in a word.
-/

namespace CortexHarness

/-- `text.split()` -/
def words (t : List Char) : List (List Char) := (t.splitOnP isSpace).filter (· ≠ [])

variable {c : Char} {t s word : List Char}

@[simp] theorem words_nil : words [] = [] := rfl

/-- A blank separates words. -/
theorem words_append_cons (hc : isSpace c = true) (s t : List Char) :
    words (s ++ c :: t) = words s ++ words t := by
  unfold words
  rw [List.splitOnP_append_cons s t hc, List.filter_append]

theorem words_cons (hc : isSpace c = true) (t : List Char) : words (c :: t) = words t :=
  words_append_cons hc [] t

/-- A text without blanks is one word. -/
theorem words_singleton (hne : t ≠ []) (ht : ∀ c ∈ t, isSpace c = false) : words t = [t] := by
  unfold words
  rw [List.splitOnP_eq_singleton ht]
  simp [hne]

theorem words_word_cons (hne : s ≠ []) (hs : ∀ c ∈ s, isSpace c = false)
    (hc : isSpace c = true) (t : List Char) : words (s ++ c :: t) = s :: words t := by
  rw [words_append_cons hc, words_singleton hne hs, List.singleton_append]

theorem words_dropWhile (t : List Char) : words (t.dropWhile isSpace) = words t := by
  induction t with
  | nil => rfl
  | cons c t ih =>
    cases hc : isSpace c with
    | true => rw [List.dropWhile_cons_of_pos hc, ih, words_cons hc]
    | false => rw [List.dropWhile_cons_of_neg (by simp [hc])]

theorem words_rdropWhile (t : List Char) : words (t.rdropWhile isSpace) = words t := by
  induction t using List.reverseRecOn with
  | nil => rfl
  | append_singleton t c ih =>
    cases hc : isSpace c with
    | true =>
      rw [List.rdropWhile_concat_pos isSpace t c hc, ih, words_append_cons hc, words_nil,
        List.append_nil]
    | false => rw [List.rdropWhile_concat_neg isSpace t c (by simp [hc])]

/-- The blanks at both ends do not count. -/
theorem words_stripChars (t : List Char) : words (stripChars t) = words t :=
  (words_rdropWhile (t.dropWhile isSpace)).trans (words_dropWhile t)

/-- A text that starts with no blank starts so when it is stripped. -/
theorem head?_stripChars (hc : isSpace c = false) (t : List Char) :
    (stripChars (c :: t)).head? = some c := by
  have hstrip : stripChars (c :: t) = (c :: t).rdropWhile isSpace := by
    unfold stripChars List.rdropWhile
    rw [List.dropWhile_cons_of_neg (by simp [hc])]
  rw [hstrip]
  have hpre := List.rdropWhile_prefix isSpace (c :: t)
  have hne : (c :: t).rdropWhile isSpace ≠ [] := fun hnil =>
    absurd (List.rdropWhile_eq_nil_iff.mp hnil c List.mem_cons_self) (by simp [hc])
  obtain ⟨d, ds, hd⟩ := List.exists_cons_of_ne_nil hne
  rw [hd] at hpre ⊢
  rw [(List.cons_prefix_cons.mp hpre).1]
  rfl

theorem not_space_of_mem_words (h : word ∈ words t) : ∀ c ∈ word, isSpace c = false :=
  not_of_mem_splitOnP (List.mem_filter.mp h).1

end CortexHarness
