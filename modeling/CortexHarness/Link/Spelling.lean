import CortexHarness.Library.Text
import CortexHarness.Link.Normalizers

/-!
# Spellings of an identifier

The words of an identifier are compared, not the convention it is written in. The store keeps the
same words as one text (`normalizeMatchKeyStr`), cut by a splitter of its own that does what the
one of the normalizers does.

* `Word` is a word in lower case, of two characters or more: a single letter before a capital could
  be read as part of an acronym.

Result: **`spelling_independent`**: the snake, kebab, dotted, camel and Pascal spellings of a list
of words all have the list as their key; a key is the key of its own words, and the store's key is
the words with blanks between.
-/

namespace CortexHarness.Link

/-! ## The key of the store -/

/-- `_split_camel_words`, which is `_split_camel` a second time. -/
def splitCamelWords (chunk : List Char) : List (List Char) := splitCamel [] chunk

/-- `normalize_match_key_str` -/
def normalizeMatchKeyStr (value : String) : String :=
  let text := strip value
  if text = "" then ""
  else " ".intercalate (((runs Char.isAlphanum text.toList).flatMap splitCamelWords).map fun word =>
    String.ofList (word.map Char.toLower))

/-! ## Spellings -/

/-- `[a-z0-9]` -/
def isPlain (c : Char) : Bool := c.isLower || c.isDigit

/-- `[a-z][a-z0-9]+` -/
def isWord : List Char → Bool
  | c :: d :: rest => c.isLower && (d :: rest).all isPlain
  | _ => false

structure Word where
  chars : List Char
  spelled : isWord chars = true

def Word.text (w : Word) : String := String.ofList w.chars

/-- The word with a capital. -/
def Word.capitalized (w : Word) : List Char :=
  match w.chars with
  | [] => []
  | c :: cs => c.toUpper :: cs

/-- `snake_case`, `kebab-case` or `dotted.case`, after the separator. -/
def joined (sep : Char) (words : List Word) : String :=
  String.ofList ([sep].intercalate (words.map Word.chars))

def camelCase : List Word → String
  | [] => ""
  | w :: words => String.ofList (w.chars ++ words.flatMap Word.capitalized)

def pascalCase (words : List Word) : String := String.ofList (words.flatMap Word.capitalized)

/-! ## Characters -/

variable {c : Char} {l cs buffer : List Char} {words : List Word}

theorem isAlphanum_of_isPlain (h : isPlain c = true) : c.isAlphanum = true := by
  rcases Bool.or_eq_true _ _ ▸ h with h | h
  · exact isAlphanum_of_isLower h
  · exact isAlphanum_of_isDigit h

theorem alphanum_not_space (h : c.isAlphanum = true) : isSpace c = false :=
  ascii_induction (p := fun c => c.isAlphanum = true → isSpace c = false) (by decide)
    (toNat_of_isAlphanum h) h

theorem plain_not_upper (h : isPlain c = true) : c.isUpper = false :=
  ascii_induction (p := fun c => isPlain c = true → c.isUpper = false) (by decide)
    (toNat_of_isAlphanum (isAlphanum_of_isPlain h)) h

theorem toLower_plain (h : isPlain c = true) : c.toLower = c :=
  ascii_induction (p := fun c => isPlain c = true → c.toLower = c) (by decide)
    (toNat_of_isAlphanum (isAlphanum_of_isPlain h)) h

theorem isPlain_toLower (h : c.isAlphanum = true) : isPlain c.toLower = true :=
  ascii_induction (p := fun c => c.isAlphanum = true → isPlain c.toLower = true) (by decide)
    (toNat_of_isAlphanum h) h

theorem capital_spec (h : c.isLower = true) :
    c.toUpper.isUpper = true ∧ c.toUpper.isAlphanum = true ∧ c.toUpper.toLower = c :=
  ascii_induction (p := fun c => c.isLower = true →
    c.toUpper.isUpper = true ∧ c.toUpper.isAlphanum = true ∧ c.toUpper.toLower = c) (by decide)
    (toNat_of_isAlphanum (isAlphanum_of_isLower h)) h

theorem map_toLower_plain (h : ∀ c ∈ cs, isPlain c = true) : cs.map Char.toLower = cs := by
  conv => rhs; rw [← List.map_id cs]
  exact List.map_congr_left fun c hc => toLower_plain (h c hc)

/-! ## Words -/

theorem Word.shape (w : Word) : ∃ c cs, w.chars = c :: cs ∧ c.isLower = true ∧ cs ≠ [] ∧
    ∀ d ∈ cs, isPlain d = true := by
  obtain ⟨chars, h⟩ := w
  match chars, h with
  | c :: d :: rest, h =>
    rw [isWord, Bool.and_eq_true, List.all_eq_true] at h
    exact ⟨c, d :: rest, rfl, h.1, List.cons_ne_nil _ _, h.2⟩

theorem Word.plain (w : Word) : ∀ c ∈ w.chars, isPlain c = true := by
  obtain ⟨c, cs, hw, hc, -, hcs⟩ := w.shape
  rw [hw, List.forall_mem_cons]
  exact ⟨by rw [isPlain, hc]; rfl, hcs⟩

theorem Word.ne_nil (w : Word) : w.chars ≠ [] := by
  obtain ⟨c, cs, hw, -⟩ := w.shape
  rw [hw]
  exact List.cons_ne_nil _ _

theorem Word.capitalized_alphanum (w : Word) : ∀ c ∈ w.capitalized, c.isAlphanum = true := by
  obtain ⟨c, cs, hw, hc, -, hcs⟩ := w.shape
  rw [Word.capitalized, hw, List.forall_mem_cons]
  exact ⟨(capital_spec hc).2.1, fun d hd => isAlphanum_of_isPlain (hcs d hd)⟩

theorem Word.lower_capitalized (w : Word) : w.capitalized.map Char.toLower = w.chars := by
  obtain ⟨c, cs, hw, hc, -, hcs⟩ := w.shape
  rw [Word.capitalized, hw, List.map_cons, (capital_spec hc).2.2, map_toLower_plain hcs]

/-! ## Runs of letters and digits -/

/-- Words between separators are found again. -/
theorem runs_intercalate {sep : Char} (hsep : sep.isAlphanum = false) {words : List (List Char)}
    (hne : ∀ w ∈ words, w ≠ []) (halnum : ∀ w ∈ words, ∀ c ∈ w, c.isAlphanum = true) :
    runs Char.isAlphanum ([sep].intercalate words) = words := by
  induction words with
  | nil => rfl
  | cons w rest ih =>
    obtain ⟨hw, hrest⟩ := List.forall_mem_cons.mp hne
    obtain ⟨halw, halrest⟩ := List.forall_mem_cons.mp halnum
    have hclear : ∀ c ∈ w, (!c.isAlphanum) = false := fun c hc => by rw [halw c hc]; rfl
    cases rest with
    | nil =>
      rw [List.intercalate_singleton, runs, List.splitOnP_eq_singleton hclear]
      simp [hw]
    | cons v rest =>
      rw [List.intercalate_cons_of_ne_nil (List.cons_ne_nil _ _), List.append_assoc, runs,
        List.singleton_append,
        List.splitOnP_append_cons_of_forall_mem hclear sep (by rw [hsep]; rfl)]
      have hkeep : ∀ parts : List (List Char), (w :: parts).filter (fun run => !run.isEmpty) =
          w :: parts.filter fun run => !run.isEmpty := fun parts => by simp [hw]
      rw [hkeep]
      exact congrArg (w :: ·) (ih hrest halrest)

/-- A text of letters and digits is one run. -/
theorem runs_alphanum (hne : l ≠ []) (h : ∀ c ∈ l, c.isAlphanum = true) :
    runs Char.isAlphanum l = [l] := by
  have := @runs_intercalate '_' (by decide) [l] (by simpa using hne) (by simpa using h)
  rwa [List.intercalate_singleton] at this

/-- The runs are not empty, and made of what was asked for. -/
theorem mem_runs {p : Char → Bool} {run : List Char} (h : run ∈ runs p l) :
    run ≠ [] ∧ ∀ c ∈ run, p c = true := by
  obtain ⟨hmem, hne⟩ := List.mem_filter.mp h
  refine ⟨by simpa using hne, fun c hc => ?_⟩
  simpa using not_of_mem_splitOnP hmem c hc

/-! ## Camel humps -/

theorem splitCamel_plain (hb : buffer ≠ []) (h : ∀ c ∈ cs, isPlain c = true) (rest : List Char) :
    splitCamel buffer (cs ++ rest) = splitCamel (buffer ++ cs) rest := by
  induction cs generalizing buffer with
  | nil => simp
  | cons c cs ih =>
    obtain ⟨hc, hcs⟩ := List.forall_mem_cons.mp h
    rw [List.cons_append, splitCamel]
    have hlast : buffer.getLast? ≠ none := by simpa using hb
    cases hb' : buffer.getLast? with
    | none => exact absurd hb' hlast
    | some last =>
      simp only [plain_not_upper hc, Bool.false_and, Bool.false_eq_true, if_false]
      rw [ih (by simp) hcs, List.append_assoc, List.singleton_append]

theorem splitCamel_end (hb : buffer ≠ []) : splitCamel buffer [] = [buffer] := by
  simp [splitCamel, hb]

theorem splitCamel_word (hne : cs ≠ []) (h : ∀ c ∈ cs, isPlain c = true) :
    splitCamel [] cs = [cs] := by
  obtain ⟨c, rest, rfl⟩ := List.exists_cons_of_ne_nil hne
  have := splitCamel_plain (List.cons_ne_nil c [])
    (fun d hd => h d (List.mem_cons_of_mem c hd)) []
  rw [List.append_nil, List.singleton_append, splitCamel_end hne] at this
  rw [splitCamel]
  exact this

/-- **Every capital after a plain character opens a word**, and the words are those that were
capitalized. The second character of a word is plain, so that no capital meets another. -/
theorem splitCamel_capitalized {last : Char} (hb : buffer.getLast? = some last)
    (hlast : isPlain last = true) :
    splitCamel buffer (words.flatMap Word.capitalized) = buffer :: words.map Word.capitalized := by
  induction words generalizing buffer last with
  | nil =>
    refine splitCamel_end fun h => ?_
    rw [h] at hb
    cases hb
  | cons w words ih =>
    obtain ⟨c, cs, hw, hc, hne, hcs⟩ := w.shape
    have hcap : w.capitalized = c.toUpper :: cs := by rw [Word.capitalized, hw]
    have hsplit : (c.toUpper.isUpper && (last.isLower || last.isDigit || (last.isUpper &&
        (cs ++ words.flatMap Word.capitalized).head?.any Char.isLower))) = true := by
      rw [(capital_spec hc).1, show (last.isLower || last.isDigit) = true from hlast]
      rfl
    have hends : ∃ d, (c.toUpper :: cs).getLast? = some d ∧ isPlain d = true := by
      refine ⟨cs.getLast hne, ?_, hcs _ (List.getLast_mem hne)⟩
      rw [List.getLast?_cons, List.getLast?_eq_some_getLast hne, Option.getD_some]
    obtain ⟨d, hd, hplain⟩ := hends
    rw [List.flatMap_cons, hcap, List.cons_append, splitCamel, hb]
    simp only [hsplit, if_true, List.map_cons]
    rw [splitCamel_plain (List.cons_ne_nil _ _) hcs, List.singleton_append, ih hd hplain, hcap]

/-- The words are not empty, and made of what was read. -/
theorem mem_splitCamel {word : List Char} (h : word ∈ splitCamel buffer l) :
    word ≠ [] ∧ ∀ c ∈ word, c ∈ buffer ∨ c ∈ l := by
  induction l generalizing buffer with
  | nil =>
    rw [splitCamel] at h
    split at h
    · cases h
    · next hb =>
      rw [List.mem_singleton.mp h]
      exact ⟨by simpa using hb, fun c hc => Or.inl hc⟩
  | cons d l ih =>
    rw [splitCamel] at h
    cases hlast : buffer.getLast? with
    | none =>
      rw [hlast] at h
      obtain ⟨hne, hsub⟩ := ih h
      refine ⟨hne, fun c hc => Or.inr ?_⟩
      rcases hsub c hc with hc | hc
      · rw [List.mem_singleton.mp hc]
        exact List.mem_cons_self
      · exact List.mem_cons_of_mem d hc
    | some last =>
      rw [hlast] at h
      dsimp only at h
      split at h
      · rcases List.mem_cons.mp h with rfl | h
        · refine ⟨fun hb => ?_, fun c hc => Or.inl hc⟩
          rw [hb] at hlast
          cases hlast
        · obtain ⟨hne, hsub⟩ := ih h
          refine ⟨hne, fun c hc => Or.inr ?_⟩
          rcases hsub c hc with hc | hc
          · rw [List.mem_singleton.mp hc]
            exact List.mem_cons_self
          · exact List.mem_cons_of_mem d hc
      · obtain ⟨hne, hsub⟩ := ih h
        refine ⟨hne, fun c hc => ?_⟩
        rcases hsub c hc with hc | hc
        · rcases List.mem_append.mp hc with hc | hc
          · exact Or.inl hc
          · rw [List.mem_singleton.mp hc]
            exact Or.inr List.mem_cons_self
        · exact Or.inr (List.mem_cons_of_mem d hc)

/-! ## Keys -/

theorem tokenMatchKey_ofList (h : ∀ c ∈ l, isSpace c = false) :
    tokenMatchKey (String.ofList l) = ((runs Char.isAlphanum l).flatMap (splitCamel [])).map
      fun word => String.ofList (word.map Char.toLower) := by
  rw [tokenMatchKey, toList_strip, String.toList_ofList, stripChars_of_not_space h]

theorem tokenMatchKey_joined {sep : Char} (hsep : sep.isAlphanum = false)
    (hspace : isSpace sep = false) {words : List (List Char)} (hne : ∀ w ∈ words, w ≠ [])
    (hplain : ∀ w ∈ words, ∀ c ∈ w, isPlain c = true) :
    tokenMatchKey (String.ofList ([sep].intercalate words)) = words.map String.ofList := by
  have halnum : ∀ w ∈ words, ∀ c ∈ w, c.isAlphanum = true :=
    fun w hw c hc => isAlphanum_of_isPlain (hplain w hw c hc)
  have hclear : ∀ c ∈ [sep].intercalate words, isSpace c = false := by
    intro c hc
    induction words with
    | nil => cases hc
    | cons w words ih =>
      have hw := fun c hc => alphanum_not_space (halnum w List.mem_cons_self c hc)
      by_cases hwords : words = []
      · subst hwords
        exact hw c (by simpa using hc)
      · rw [List.intercalate_cons_of_ne_nil hwords, List.mem_append, List.mem_append] at hc
        rcases hc with (hc | hc) | hc
        · exact hw c hc
        · rwa [List.mem_singleton.mp hc]
        · exact ih (fun v hv => hne v (List.mem_cons_of_mem w hv))
            (fun v hv => hplain v (List.mem_cons_of_mem w hv))
            (fun v hv => halnum v (List.mem_cons_of_mem w hv)) hc
  rw [tokenMatchKey_ofList hclear, runs_intercalate hsep hne halnum, List.map_flatMap,
    List.map_eq_flatMap]
  refine List.flatMap_congr fun w hw => ?_
  rw [splitCamel_word (hne w hw) (hplain w hw), List.map_singleton,
    map_toLower_plain (hplain w hw)]

theorem tokenMatchKey_separated {sep : Char} (hsep : sep.isAlphanum = false)
    (hspace : isSpace sep = false) (words : List Word) :
    tokenMatchKey (joined sep words) = words.map Word.text := by
  rw [joined, tokenMatchKey_joined hsep hspace (List.forall_mem_map.mpr fun w _ => w.ne_nil)
    (List.forall_mem_map.mpr fun w _ => w.plain), List.map_map]
  rfl

theorem tokenMatchKey_humps {first : List Char} {d : Char}
    (hfirst : ∀ c ∈ first, c.isAlphanum = true) (hlast : first.getLast? = some d)
    (hd : isPlain d = true)
    (hsplit : ∀ rest, splitCamel [] (first ++ rest) = splitCamel first rest) (words : List Word) :
    tokenMatchKey (String.ofList (first ++ words.flatMap Word.capitalized)) =
      String.ofList (first.map Char.toLower) :: words.map Word.text := by
  have hne : first ≠ [] := by
    intro h
    rw [h] at hlast
    cases hlast
  have halnum : ∀ c ∈ first ++ words.flatMap Word.capitalized, c.isAlphanum = true := by
    intro c hc
    rcases List.mem_append.mp hc with hc | hc
    · exact hfirst c hc
    · obtain ⟨w, -, hc⟩ := List.mem_flatMap.mp hc
      exact w.capitalized_alphanum c hc
  rw [tokenMatchKey_ofList fun c hc => alphanum_not_space (halnum c hc),
    runs_alphanum (by simp [hne]) halnum, List.flatMap_singleton, hsplit,
    splitCamel_capitalized hlast hd, List.map_cons, List.map_map]
  refine congrArg _ (List.map_congr_left fun w _ => ?_)
  rw [Function.comp_apply, w.lower_capitalized, Word.text]

theorem tokenMatchKey_camelCase (words : List Word) :
    tokenMatchKey (camelCase words) = words.map Word.text := by
  cases words with
  | nil => decide
  | cons w words =>
    obtain ⟨c, cs, hw, hc, hne, hcs⟩ := w.shape
    have hlast : w.chars.getLast? = some (cs.getLast hne) := by
      rw [hw, List.getLast?_cons, List.getLast?_eq_some_getLast hne, Option.getD_some]
    have hsplit (rest) : splitCamel [] (w.chars ++ rest) = splitCamel w.chars rest := by
      rw [hw, List.cons_append, splitCamel]
      exact splitCamel_plain (List.cons_ne_nil c []) hcs rest
    rw [camelCase, tokenMatchKey_humps (fun c hc => isAlphanum_of_isPlain (w.plain c hc)) hlast
      (hcs _ (List.getLast_mem hne)) hsplit, map_toLower_plain w.plain]
    rfl

theorem tokenMatchKey_pascalCase (words : List Word) :
    tokenMatchKey (pascalCase words) = words.map Word.text := by
  cases words with
  | nil => decide
  | cons w words =>
    obtain ⟨c, cs, hw, hc, hne, hcs⟩ := w.shape
    have hcap : w.capitalized = c.toUpper :: cs := by rw [Word.capitalized, hw]
    have hlast : w.capitalized.getLast? = some (cs.getLast hne) := by
      rw [hcap, List.getLast?_cons, List.getLast?_eq_some_getLast hne, Option.getD_some]
    have hsplit (rest) : splitCamel [] (w.capitalized ++ rest) = splitCamel w.capitalized rest := by
      rw [hcap, List.cons_append, splitCamel]
      exact splitCamel_plain (List.cons_ne_nil c.toUpper []) hcs rest
    rw [pascalCase, List.flatMap_cons, tokenMatchKey_humps w.capitalized_alphanum hlast
      (hcs _ (List.getLast_mem hne)) hsplit, w.lower_capitalized]
    rfl

theorem mem_tokenMatchKey {value word : String} (h : word ∈ tokenMatchKey value) :
    word.toList ≠ [] ∧ ∀ c ∈ word.toList, isPlain c = true := by
  obtain ⟨chunk, hchunk, rfl⟩ := List.mem_map.mp h
  obtain ⟨run, hrun, hchunk⟩ := List.mem_flatMap.mp hchunk
  obtain ⟨-, hrun⟩ := mem_runs hrun
  obtain ⟨hne, hsub⟩ := mem_splitCamel hchunk
  rw [String.toList_ofList]
  refine ⟨by simpa using hne, List.forall_mem_map.mpr fun c hc => isPlain_toLower (hrun c ?_)⟩
  rcases hsub c hc with hc | hc
  · cases hc
  · exact hc

/-- The store's key is the words of the key with blanks between. -/
theorem normalizeMatchKeyStr_eq (value : String) :
    normalizeMatchKeyStr value = " ".intercalate (tokenMatchKey value) := by
  rw [normalizeMatchKeyStr, tokenMatchKey]
  split
  · next h =>
    rw [h]
    rfl
  · rfl

/-- **The key of an identifier does not depend on its spelling.** -/
theorem spelling_independent :
    (∀ words : List Word,
      tokenMatchKey (joined '_' words) = words.map Word.text ∧
      tokenMatchKey (joined '-' words) = words.map Word.text ∧
      tokenMatchKey (joined '.' words) = words.map Word.text ∧
      tokenMatchKey (camelCase words) = words.map Word.text ∧
      tokenMatchKey (pascalCase words) = words.map Word.text) ∧
    ∀ value : String,
      tokenMatchKey ("_".intercalate (tokenMatchKey value)) = tokenMatchKey value ∧
      normalizeMatchKeyStr value = " ".intercalate (tokenMatchKey value) := by
  constructor
  · intro words
    exact ⟨tokenMatchKey_separated (by decide) (by decide) words,
      tokenMatchKey_separated (by decide) (by decide) words,
      tokenMatchKey_separated (by decide) (by decide) words,
      tokenMatchKey_camelCase words, tokenMatchKey_pascalCase words⟩
  · intro value
    refine ⟨?_, normalizeMatchKeyStr_eq value⟩
    have htext : "_".intercalate (tokenMatchKey value) =
        String.ofList (['_'].intercalate ((tokenMatchKey value).map String.toList)) := by
      apply String.toList_inj.mp
      rw [String.toList_intercalate, String.toList_ofList, String.toList_ofList]
    rw [htext, tokenMatchKey_joined (by decide) (by decide)
      (List.forall_mem_map.mpr fun w hw => (mem_tokenMatchKey hw).1)
      (List.forall_mem_map.mpr fun w hw => (mem_tokenMatchKey hw).2), List.map_map]
    conv => rhs; rw [← List.map_id (tokenMatchKey value)]
    exact List.map_congr_left fun w _ => String.ofList_toList

end CortexHarness.Link
