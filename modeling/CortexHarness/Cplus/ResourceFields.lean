import CortexHarness.Library.Replace
import CortexHarness.Cplus.ResourceScript

/-!
# Quoted fields of a resource script

Model of `_unquote` of `rc_parser.py`, beside the three scanners of `Cplus.ResourceScript`, over
the texts that a writer makes: every string between quotes with its own quotes doubled (`quote`),
and the strings joined by `", "` (`joined`). The scanners agree on where a quoted field ends, which
is at the first quote that no quote follows.

Results:
* `stripLineComment_quote`, `maskStrings_quote`, `splitFrom_quote`: each scanner over one field;
* **`joined_read_back`**: splitting and unquoting gives the strings back, a comment after them is
  cut off and nothing else, and the masked text has none of their letters.
-/

namespace CortexHarness.ResourceScript

open Replace

/-- `'""'` -/
def twoQuotes : Pattern Char := [(· == '"'), (· == '"')]

/-- `"\\0"` -/
def backslashZero : Pattern Char := [(· == '\\'), (· == '0')]

/-- `_unquote` -/
def unquote (value : Text) : Text :=
  let value := stripChars value
  let value :=
    if value.length ≥ 2 && value.head? == some '"' && value.getLast? == some '"' then
      value.tail.dropLast
    else value
  replaceAll backslashZero [] (replaceAll twoQuotes ['"'] value)

/-! ## What a writer makes -/

/-- `s.replace('"', '""')` -/
def double : Text → Text
  | [] => []
  | c :: s => if c = '"' then '"' :: '"' :: double s else c :: double s

def quote (s : Text) : Text := '"' :: (double s ++ ['"'])

/-- `", ".join(...)` of the quoted strings. -/
def joined : List Text → Text
  | [] => []
  | [s] => quote s
  | s :: s' :: ss => quote s ++ ',' :: ' ' :: joined (s' :: ss)

/-! ## The scanners over one field -/

theorem stripLineComment_body {rest : Text} (h : rest.head? ≠ some '"') (s : Text) :
    stripLineComment true (double s ++ '"' :: rest) =
      double s ++ '"' :: stripLineComment false rest := by
  induction s with
  | nil =>
    cases rest with
    | nil => simp [double, stripLineComment]
    | cons c rest =>
      have hc : c ≠ '"' := fun he => h (congrArg some he)
      simp [double, stripLineComment, hc]
  | cons c s ih =>
    by_cases hc : c = '"'
    · subst hc
      simp only [double, if_true, List.cons_append, stripLineComment, ih]
    · simp only [double, if_neg hc, List.cons_append]
      rw [← ih]
      simp [stripLineComment, hc]

theorem stripLineComment_quote {rest : Text} (h : rest.head? ≠ some '"') (s : Text) :
    stripLineComment false (quote s ++ rest) = quote s ++ stripLineComment false rest := by
  have hbody := stripLineComment_body h s
  simp only [quote, List.cons_append, List.append_assoc, List.nil_append]
  rw [← hbody]
  simp [stripLineComment]

theorem maskStrings_body {rest : Text} (h : rest.head? ≠ some '"') (s : Text) :
    ∃ spaces, (∀ c ∈ spaces, c = ' ') ∧
      maskStrings true (double s ++ '"' :: rest) = spaces ++ maskStrings false rest := by
  induction s with
  | nil =>
    refine ⟨[' '], by simp, ?_⟩
    cases rest with
    | nil => simp [double, maskStrings]
    | cons c rest =>
      have hc : c ≠ '"' := fun he => h (congrArg some he)
      simp [double, maskStrings, hc]
  | cons c s ih =>
    obtain ⟨spaces, hspaces, hmask⟩ := ih
    by_cases hc : c = '"'
    · subst hc
      refine ⟨' ' :: ' ' :: spaces, by simpa using hspaces, ?_⟩
      simp only [double, if_true, List.cons_append, maskStrings, hmask]
    · refine ⟨' ' :: spaces, by simpa using hspaces, ?_⟩
      simp only [double, if_neg hc, List.cons_append]
      rw [← hmask]
      simp [maskStrings, hc]

theorem maskStrings_quote {rest : Text} (h : rest.head? ≠ some '"') (s : Text) :
    ∃ spaces, (∀ c ∈ spaces, c = ' ') ∧
      maskStrings false (quote s ++ rest) = spaces ++ maskStrings false rest := by
  obtain ⟨spaces, hspaces, hmask⟩ := maskStrings_body h s
  refine ⟨' ' :: spaces, by simpa using hspaces, ?_⟩
  simp only [quote, List.cons_append, List.append_assoc, List.nil_append]
  rw [← hmask]
  simp [maskStrings]

theorem splitFrom_body {trailing : Bool} {depth : Nat} {rest : Text} (h : rest.head? ≠ some '"')
    (s current : Text) :
    splitFrom trailing current true depth (double s ++ '"' :: rest) =
      splitFrom trailing ('"' :: ((double s).reverse ++ current)) false depth rest := by
  induction s generalizing current with
  | nil =>
    cases rest with
    | nil => simp [double, splitFrom]
    | cons c rest =>
      have hc : c ≠ '"' := fun he => h (congrArg some he)
      simp [double, splitFrom, hc]
  | cons c s ih =>
    by_cases hc : c = '"'
    · subst hc
      simp only [double, if_true, List.cons_append, splitFrom, ih, List.reverse_cons,
        List.append_assoc, List.nil_append]
    · simp only [double, if_neg hc, List.cons_append, List.reverse_cons, List.append_assoc,
        List.nil_append]
      rw [← ih]
      simp [splitFrom, hc]

/-- A field is added to the current one whole. -/
theorem splitFrom_quote {trailing : Bool} {depth : Nat} {rest : Text} (h : rest.head? ≠ some '"')
    (s current : Text) :
    splitFrom trailing current false depth (quote s ++ rest) =
      splitFrom trailing ((quote s).reverse ++ current) false depth rest := by
  have hbody := @splitFrom_body trailing depth rest h s ('"' :: current)
  simp only [quote, List.cons_append, List.append_assoc, List.nil_append, List.reverse_cons,
    List.reverse_append, List.reverse_nil]
  rw [← hbody]
  simp [splitFrom]

/-! ## One field read back -/

theorem stripChars_quote (blank : Text) (h : ∀ c ∈ blank, isSpace c = true) (s : Text) :
    stripChars (blank ++ quote s) = quote s := by
  have hquote : isSpace '"' = false := by decide
  unfold stripChars quote
  rw [List.dropWhile_append_of_pos h, List.dropWhile_cons_of_neg (by simp [hquote]),
    ← List.cons_append, List.reverse_append, List.reverse_singleton, List.singleton_append,
    List.dropWhile_cons_of_neg (by simp [hquote]), List.reverse_cons, List.reverse_reverse]

theorem getLast?_quote (s : Text) : (quote s).getLast? = some '"' := by
  rw [quote, ← List.cons_append, List.getLast?_concat]

theorem replaceAll_double (s : Text) : replaceAll twoQuotes ['"'] (double s) = s := by
  induction s with
  | nil => rfl
  | cons c s ih =>
    rw [replaceAll] at ih ⊢
    by_cases hc : c = '"'
    · subst hc
      simpa [double, replaceFrom, matchesAt, twoQuotes] using ih
    · simpa [double, hc, replaceFrom, matchesAt, twoQuotes] using ih

/-- **Unquoting undoes quoting**, but for a backslash with a zero after it. -/
theorem unquote_quote {s : Text} (h : occurs backslashZero s = false) : unquote (quote s) = s := by
  have hstrip : stripChars (quote s) = quote s := stripChars_quote [] nofun s
  have hinner : (quote s).tail.dropLast = double s := by simp [quote]
  have hends : ((quote s).length ≥ 2 && (quote s).head? == some '"' &&
      (quote s).getLast? == some '"') = true := by
    rw [getLast?_quote]
    simp [quote]
  unfold unquote
  simp only [hstrip]
  rw [if_pos hends, hinner, replaceAll_double, replaceAll_of_not_occurs h]

/-! ## The joined fields -/

theorem joined_cons (s : Text) (ss : List Text) :
    ∃ rest : Text, rest.head? ≠ some '"' ∧ joined (s :: ss) = quote s ++ rest ∧
      ((ss = [] ∧ rest = []) ∨ (ss ≠ [] ∧ rest = ',' :: ' ' :: joined ss)) := by
  cases ss with
  | nil => exact ⟨[], by simp, (List.append_nil _).symm, Or.inl ⟨rfl, rfl⟩⟩
  | cons s' ss => exact ⟨_, by simp, rfl, Or.inr ⟨by simp, rfl⟩⟩

theorem stripLineComment_joined (tail : Text) (h : tail.head? ≠ some '"') (ss : List Text) :
    stripLineComment false (joined ss ++ tail) = joined ss ++ stripLineComment false tail := by
  induction ss with
  | nil => rfl
  | cons s ss ih =>
    obtain ⟨rest, hrest, he, ⟨rfl, rfl⟩ | ⟨-, rfl⟩⟩ := joined_cons s ss
    · rw [he, List.append_nil, stripLineComment_quote h]
    · rw [he, List.append_assoc, stripLineComment_quote (by simp)]
      simp only [List.cons_append, List.append_assoc]
      rw [← ih]
      simp [stripLineComment]

theorem maskStrings_joined (ss : List Text) :
    ∀ c ∈ maskStrings false (joined ss), c = ' ' ∨ c = ',' := by
  induction ss with
  | nil => exact fun c hc => (List.not_mem_nil hc).elim
  | cons s ss ih =>
    obtain ⟨rest, hrest, he, hcases⟩ := joined_cons s ss
    obtain ⟨spaces, hspaces, hmask⟩ := maskStrings_quote hrest s
    rw [he, hmask]
    intro c hc
    rcases List.mem_append.mp hc with hc | hc
    · exact Or.inl (hspaces c hc)
    · rcases hcases with ⟨-, rfl⟩ | ⟨-, rfl⟩
      · exact (List.not_mem_nil hc).elim
      · have hseparator : maskStrings false (',' :: ' ' :: joined ss) =
            ',' :: ' ' :: maskStrings false (joined ss) := by simp [maskStrings]
        rw [hseparator] at hc
        rcases List.mem_cons.mp hc with rfl | hc
        · exact Or.inr rfl
        · rcases List.mem_cons.mp hc with rfl | hc
          · exact Or.inl rfl
          · exact ih c hc

theorem splitFrom_joined (blank : Text) (h : ∀ c ∈ blank, isSpace c = true) (s : Text)
    (ss : List Text) :
    splitFrom false blank.reverse false 0 (joined (s :: ss)) = (s :: ss).map quote := by
  induction ss generalizing s blank with
  | nil =>
    have hlast : splitFrom false ((quote s).reverse ++ blank.reverse) false 0 [] = [quote s] := by
      rw [splitFrom, if_pos (by simp [quote]), List.reverse_append, List.reverse_reverse,
        List.reverse_reverse, stripChars_quote _ h]
    have hfield := @splitFrom_quote false 0 [] (by simp) s blank.reverse
    rw [List.append_nil, hlast] at hfield
    exact hfield
  | cons s' ss ih =>
    have hblank : ∀ c ∈ [' '], isSpace c = true := by
      intro c hc
      rw [List.mem_singleton.mp hc]
      rfl
    have hnext := ih [' '] hblank s'
    rw [joined, splitFrom_quote (by simp), List.map_cons, ← hnext]
    simp only [splitFrom, List.reverse_append, List.reverse_reverse]
    simp [stripChars_quote _ h]

theorem getLast?_joined (ss : List Text) : (joined ss).getLast? ≠ some ',' := by
  induction ss with
  | nil => simp [joined]
  | cons s ss ih =>
    obtain ⟨rest, -, he, ⟨rfl, rfl⟩ | ⟨hne, rfl⟩⟩ := joined_cons s ss
    · rw [joined, getLast?_quote]
      decide
    · obtain ⟨s', ss', rfl⟩ := List.exists_cons_of_ne_nil hne
      obtain ⟨rest', -, he', -⟩ := joined_cons s' ss'
      have hne' : joined (s' :: ss') ≠ [] := by simp [he', quote]
      rw [he, List.getLast?_append_of_ne_nil _ (by simp), List.getLast?_cons_cons,
        List.getLast?_cons_of_ne_nil hne']
      exact ih

theorem splitFields_joined (ss : List Text) : splitFields (joined ss) = ss.map quote := by
  have hlast : decide ((joined ss).getLast? = some ',') = false :=
    decide_eq_false (getLast?_joined ss)
  unfold splitFields
  rw [hlast]
  cases ss with
  | nil => rfl
  | cons s ss => exact splitFrom_joined [] nofun s ss

/-- **Joined fields are read back.** They are split and unquoted to the strings, a comment after
them is cut off and nothing else, and masked they have no character of the strings left but commas
and spaces. -/
theorem joined_read_back {ss : List Text} (h : ∀ s ∈ ss, occurs backslashZero s = false) :
    (splitFields (joined ss)).map unquote = ss ∧
      (∀ comment, stripLineComment false (joined ss ++ '/' :: '/' :: comment) = joined ss) ∧
      ∀ s ∈ ss, ∀ c ∈ s, c ≠ ' ' → c ≠ ',' →
        c ∉ maskStrings false (stripLineComment false (joined ss)) := by
  refine ⟨?_, ?_, ?_⟩
  · rw [splitFields_joined, List.map_map]
    exact (List.map_congr_left fun s hs => unquote_quote (h s hs)).trans (List.map_id ss)
  · intro comment
    rw [stripLineComment_joined _ (by simp)]
    simp [stripLineComment]
  · intro s _ c _ hspace hcomma hc
    have hwhole := stripLineComment_joined [] (by simp) ss
    rw [List.append_nil, stripLineComment, List.append_nil] at hwhole
    rw [hwhole] at hc
    rcases maskStrings_joined ss c hc with he | he
    · exact hspace he
    · exact hcomma he

/-- Quotes, a comma, a bracket and slashes in the strings. -/
theorem joined_read_back_sample :
    (splitFields (joined ["say \"hi\", (a".toList, "".toList, "//\"".toList])).map unquote =
        ["say \"hi\", (a".toList, "".toList, "//\"".toList] ∧
      (∀ comment, stripLineComment false (joined ["say \"hi\", (a".toList, "".toList,
          "//\"".toList] ++ '/' :: '/' :: comment) =
        joined ["say \"hi\", (a".toList, "".toList, "//\"".toList]) ∧
      ∀ s ∈ ["say \"hi\", (a".toList, "".toList, "//\"".toList], ∀ c ∈ s, c ≠ ' ' → c ≠ ',' →
        c ∉ maskStrings false (stripLineComment false
          (joined ["say \"hi\", (a".toList, "".toList, "//\"".toList])) :=
  joined_read_back (by decide)

end CortexHarness.ResourceScript
