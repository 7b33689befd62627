import CortexHarness.Library.Matcher
import CortexHarness.Library.Python
import CortexHarness.Library.Replace
import CortexHarness.Library.Text

/-!
# Redaction of stored snippets

Model of `_load_repo_sensitive_terms` and `_redact_snippet_for_store` (`link_engine.py:205-248`).
The terms are replaced one after the other, each by as many glyphs as it has characters, eight at
most, and the text is cut at the end. `re.escape` makes a literal of a term, so a term is a list of
tests, one for each of its characters; which characters `IGNORECASE` does not tell apart is the
`Alphabet`.

Results:
* `loaded_strip`: what is loaded from the file has no blanks around it;
* **`snippet_redacted`**: no term that is free of the glyph is left in a redacted snippet.
-/

namespace CortexHarness.Link

open Replace

/-- `REDACTED_GLYPH` -/
def redactedGlyph : Char := '▮'

/-- `SNIPPET_STORE_MAX_CHARS` -/
def snippetStoreMaxChars : Int := 240

/-- A sensitive term. -/
structure Term where
  text : String
  caseSensitive : Bool
  deriving DecidableEq

/-! ## The code -/

/-- The term a line says, without the stars around it. -/
def termOfText (line : String) : Option Term :=
  if startsWith line "case:" then
    let term := strip (String.ofList (line.toList.drop 5))
    if term = "" then none else some ⟨term, true⟩
  else some ⟨line, false⟩

/-- The term of one line of the file. -/
def termOfLine (raw : String) : Option Term :=
  let line := strip raw
  if line = "" || startsWith line "#" then none
  else if startsWith line "*" && endsWith line "*" && 2 < line.length then
    termOfText (strip (String.ofList line.toList.tail.dropLast))
  else termOfText line

/-- `_load_repo_sensitive_terms`, from the lines of the file; `none` is a file that is not there or
cannot be read. -/
def loadRepoSensitiveTerms (lines : Option (List String)) : List Term :=
  (lines.getD []).filterMap termOfLine

/-- `text[:end]` -/
def sliceTo (end_ : Int) (text : List Char) : List Char :=
  if 0 ≤ end_ then text.take end_.toNat else text.take (text.length - end_.natAbs)

variable (alphabet : Matcher.Alphabet)

/-- `re.escape(term)` under its flags. -/
def Term.pattern (term : Term) : Pattern Char :=
  term.text.toList.map fun c => if term.caseSensitive then (c == ·) else alphabet.same c

/-- `REDACTED_GLYPH * min(len(term), 8)` -/
def Term.fill (term : Term) : List Char := List.replicate (min term.text.length 8) redactedGlyph

/-- `_redact_snippet_for_store` -/
def redactSnippetForStore (text : String) (terms : List Term)
    (maxChars : Int := snippetStoreMaxChars) : String :=
  let steps := (terms.filter (·.text != "")).map fun term => (term.pattern alphabet, term.fill)
  String.ofList (sliceTo maxChars
    (steps.foldl (fun output step => replaceAll step.1 step.2 output) text.toList))

/-- `re.search(re.escape(term), text, flags) is not None` -/
def Term.occursIn (term : Term) (text : String) : Bool := occurs (term.pattern alphabet) text.toList

/-! ## What is loaded -/

theorem termOfText_strip {line : String} {term : Term} (h : termOfText (strip line) = some term) :
    strip term.text = term.text := by
  rw [termOfText] at h
  by_cases hcase : startsWith (strip line) "case:" = true
  · rw [if_pos hcase] at h
    obtain ⟨-, h⟩ := Option.ite_none_left_eq_some.mp h
    rw [← Option.some.inj h]
    exact strip_strip _
  · rw [if_neg hcase] at h
    rw [← Option.some.inj h]
    exact strip_strip _

/-- A loaded term has no blanks around it. -/
theorem loaded_strip {lines : Option (List String)} {term : Term}
    (h : term ∈ loadRepoSensitiveTerms lines) : strip term.text = term.text := by
  obtain ⟨raw, -, h⟩ := List.mem_filterMap.mp h
  rw [termOfLine] at h
  obtain ⟨-, h⟩ := Option.ite_none_left_eq_some.mp h
  by_cases hstars : (startsWith (strip raw) "*" && endsWith (strip raw) "*" &&
      2 < (strip raw).length) = true
  · rw [if_pos hstars] at h
    exact termOfText_strip h
  · rw [if_neg hstars] at h
    exact termOfText_strip h

/-! ## What is left -/

variable {alphabet} {terms : List Term} {term : Term} {text : String}

theorem sliceTo_prefix (n : Int) (l : List Char) : ∃ rest, l = sliceTo n l ++ rest := by
  unfold sliceTo
  split
  · exact ⟨_, (List.take_append_drop _ l).symm⟩
  · exact ⟨_, (List.take_append_drop _ l).symm⟩

theorem Term.fill_ne_nil (h : term.text ≠ "") : term.fill ≠ [] := by
  have hlen : term.text.length ≠ 0 := by
    rw [← String.length_toList]
    simpa using h
  rw [Term.fill, Ne, List.replicate_eq_nil_iff]
  omega

theorem Term.avoids (hcase : ∀ c, alphabet.same c redactedGlyph = true → c = redactedGlyph)
    (h : redactedGlyph ∉ term.text.toList) (other : Term) :
    Avoids (term.pattern alphabet) other.fill := by
  intro test htest a ha
  obtain ⟨c, hc, rfl⟩ := List.mem_map.mp htest
  rw [List.eq_of_mem_replicate ha]
  have hne : c ≠ redactedGlyph := fun he => h (he ▸ hc)
  by_cases hs : term.caseSensitive = true
  · rw [if_pos hs]
    simpa using hne
  · rw [if_neg hs]
    exact Bool.eq_false_iff.mpr fun hsame => hne (hcase c hsame)

/-- **No sensitive term is left in a redacted snippet**, if no term contains the glyph and the
glyph is the only character that stands for it in either case. -/
theorem snippet_redacted
    (hcase : ∀ c, alphabet.same c redactedGlyph = true → c = redactedGlyph)
    (hglyph : ∀ term ∈ terms, redactedGlyph ∉ term.text.toList) (text : String) (maxChars : Int)
    (hterm : term ∈ terms) (hne : term.text ≠ "") :
    term.occursIn alphabet (redactSnippetForStore alphabet text terms maxChars) = false := by
  have hp : term.pattern alphabet ≠ [] := by
    unfold Term.pattern
    simpa using hne
  rw [Term.occursIn, redactSnippetForStore, String.toList_ofList]
  generalize hout : List.foldl _ text.toList _ = output
  have hclean : occurs (term.pattern alphabet) output = false := by
    rw [← hout]
    refine not_occurs_foldl hp (fun s hs => ?_)
      ⟨_, List.mem_map.mpr ⟨term, List.mem_filter.mpr ⟨hterm, by simpa using hne⟩, rfl⟩, rfl⟩
    obtain ⟨other, hother, rfl⟩ := List.mem_map.mp hs
    have hother := List.mem_filter.mp hother
    exact ⟨Term.fill_ne_nil (by simpa using hother.2),
      Term.avoids hcase (hglyph term hterm) other⟩
  obtain ⟨rest, hrest⟩ := sliceTo_prefix maxChars output
  refine Bool.eq_false_iff.mpr fun h => Bool.eq_false_iff.mp hclean ?_
  rw [hrest]
  exact occurs_of_append h

/-- One term inside another, and one that begins in it. -/
def sampleTerms : List Term := [⟨"key", false⟩, ⟨"apikey", false⟩, ⟨"yX", true⟩]

theorem ascii_glyph (c : Char) (h : Matcher.ascii.same c redactedGlyph = true) :
    c = redactedGlyph := by
  have h : c.toLower = redactedGlyph := (beq_iff_eq.mp h).trans (by decide)
  by_cases hupper : c.isUpper = true
  · exact absurd h (ascii_induction (p := fun c => c.toLower ≠ redactedGlyph) (by decide)
      (toNat_of_isAlphanum (isAlphanum_of_isUpper hupper)))
  · have hsame : c.toLower = c := by
      unfold Char.toLower
      exact dif_neg fun hbounds => hupper (decide_eq_true hbounds)
    rwa [hsame] at h

/-- The inner term is replaced first, and no other is left. -/
theorem snippet_redacted_sample :
    redactSnippetForStore Matcher.ascii "the APIKEYyX" sampleTerms = "the API▮▮▮▮▮" ∧
      (⟨"apikey", false⟩ : Term).occursIn Matcher.ascii
        (redactSnippetForStore Matcher.ascii "the APIKEYyX" sampleTerms snippetStoreMaxChars) =
        false :=
  ⟨by decide +kernel, snippet_redacted ascii_glyph (by decide +kernel) "the APIKEYyX"
    snippetStoreMaxChars (by decide +kernel) (by decide +kernel)⟩

end CortexHarness.Link
