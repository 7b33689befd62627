import CortexHarness.Library.Text

/-!
# Parts around separators

What two pairs of texts have to do with each other when `part1 + separator + part2` is the same text
for both: the separator is found a second time, in what one part gives and the other takes. And
lists of parts of which each is ended by a terminator that is in none of them.

Results:
* `append_separator_inj`: pairs with one text are equal, or one is a shift of the other;
* `shifted_colons`: the shifts over `"::"`;
* `terminated_inj`: terminated parts are read back, however many they are.
-/

namespace CortexHarness.Separator

variable {α : Type}

/-- The pair `q` has `d` in its first part which `p` has in its second one. -/
def Shift (separator : List α) (p q : List α × List α) : Prop :=
  ∃ d, d ≠ [] ∧ q.1 = p.1 ++ d ∧ separator ++ p.2 = d ++ separator ++ q.2

variable {separator : List α} {p q : List α × List α}

theorem Shift.ne (h : Shift separator p q) : p ≠ q := by
  obtain ⟨d, hd, hfirst, -⟩ := h
  rintro rfl
  exact hd (List.append_right_eq_self.mp hfirst.symm)

theorem Shift.append_eq (h : Shift separator p q) :
    p.1 ++ separator ++ p.2 = q.1 ++ separator ++ q.2 := by
  obtain ⟨d, -, hfirst, hsecond⟩ := h
  rw [List.append_assoc, hsecond, hfirst]
  simp only [List.append_assoc]

/-- **Pairs with one text are equal, or one is a shift of the other.** -/
theorem append_separator_inj (h : p.1 ++ separator ++ p.2 = q.1 ++ separator ++ q.2) :
    p = q ∨ Shift separator p q ∨ Shift separator q p := by
  rw [List.append_assoc, List.append_assoc] at h
  rcases List.append_eq_append_iff.mp h with ⟨d, hfirst, hsecond⟩ | ⟨d, hfirst, hsecond⟩
  · by_cases hd : d = []
    · subst hd
      rw [List.append_nil] at hfirst
      exact .inl (Prod.ext hfirst.symm (List.append_cancel_left hsecond))
    · exact .inr (.inl ⟨d, hd, hfirst, by rw [hsecond, List.append_assoc]⟩)
  · by_cases hd : d = []
    · subst hd
      rw [List.append_nil] at hfirst
      exact .inl (Prod.ext hfirst (List.append_cancel_left hsecond).symm)
    · exact .inr (.inr ⟨d, hd, hfirst, by rw [hsecond, List.append_assoc]⟩)

/-- A shift over `"::"` moves one colon, or two with what stands between them. -/
theorem shifted_colons {p q : List Char × List Char} :
    Shift [':', ':'] p q ↔ (q.1 = p.1 ++ [':'] ∧ p.2 = ':' :: q.2) ∨
      ∃ w, q.1 = p.1 ++ ':' :: ':' :: w ∧ p.2 = w ++ ':' :: ':' :: q.2 := by
  constructor
  · rintro ⟨d, hd, hfirst, hsecond⟩
    match d, hd with
    | [c], _ =>
      obtain ⟨rfl, hrest⟩ : ':' = c ∧ ':' :: p.2 = ':' :: ':' :: q.2 := by simpa using hsecond
      exact .inl ⟨hfirst, List.cons_inj_right _ |>.mp hrest⟩
    | c :: c' :: w, _ =>
      obtain ⟨rfl, rfl, hrest⟩ : ':' = c ∧ ':' = c' ∧ p.2 = w ++ ':' :: ':' :: q.2 := by
        simpa using hsecond
      exact .inr ⟨w, hfirst, hrest⟩
  · rintro (⟨hfirst, hsecond⟩ | ⟨w, hfirst, hsecond⟩)
    · exact ⟨[':'], by simp, hfirst, by rw [hsecond]; rfl⟩
    · exact ⟨':' :: ':' :: w, by simp, hfirst, by rw [hsecond]; simp⟩

/-- **Terminated parts are read back.** -/
theorem terminated_inj [DecidableEq α] {a : α} {ps qs : List (List α)} (hps : ∀ p ∈ ps, a ∉ p)
    (hqs : ∀ q ∈ qs, a ∉ q) (h : ps.flatMap (· ++ [a]) = qs.flatMap (· ++ [a])) : ps = qs := by
  have hcons : ∀ (p : List α) (ps : List (List α)),
      (p :: ps).flatMap (· ++ [a]) = p ++ a :: ps.flatMap (· ++ [a]) := by simp
  induction ps generalizing qs with
  | nil =>
    cases qs with
    | nil => rfl
    | cons q qs => simp at h
  | cons p ps ih =>
    cases qs with
    | nil => simp at h
    | cons q qs =>
      rw [List.forall_mem_cons] at hps hqs
      rw [hcons, hcons] at h
      obtain ⟨hhead, htail⟩ := append_cons_inj hps.1 hqs.1 h
      rw [hhead, ih hps.2 hqs.2 htail]

end CortexHarness.Separator
