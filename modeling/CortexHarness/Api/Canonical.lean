import CortexHarness.Api.UrlPattern
import CortexHarness.Library.Text
import CortexHarness.Library.Url

/-!
# When a URL pattern is canonical

What `normalizeUrlPattern` returns should begin with a slash and not end with one, hold no doubled
slash, no query, no template and no placeholder, and stay as it is when it is normalised again;
quotes around the expression should change nothing.

* `beforeQuery` is the text after names have taken the place of templates and variables, `spelled`
  the text before its slashes are put in order.
* `OneSweep`: each pattern is gone from `spelled`, though it is looked for once only.

Results:
* `finish_some`, `found_finish`: what the slashes have to do with the other patterns;
* `normalize_eq_self_iff`: a pattern stays as it is iff no rule applies to it;
* **`lawful_iff`**: the law holds of the expressions that one sweep is enough for.
-/

namespace CortexHarness.Api

open Rewriting
open Url (dropWhile_append_cons rdropWhile_append_cons)

/-! ## The law -/

/-- The pattern is canonical. -/
structure CanonicalPattern (r : Text) : Prop where
  rooted : r.head? = some '/'
  single : ¬ ['/', '/'] <:+: r
  query : '?' ∉ r
  template : ¬ ['$', '{'] <:+: r
  placeholder : ∀ inner, inner ≠ [] → '}' ∉ inner → ¬ '{' :: inner ++ ['}'] <:+: r
  ending : r.getLast? ≠ some '/'
  fixed : normalizeUrlPattern r = some r

/-- What an expression is turned into is canonical, and the same in quotes or backticks. -/
def Lawful (raw : Text) : Prop :=
  (∀ r, normalizeUrlPattern raw = some r → CanonicalPattern r) ∧
    ∀ q ∈ ['\x60', '\'', '"'], normalizeUrlPattern (q :: raw ++ [q]) = normalizeUrlPattern raw

/-- The text that the query string is dropped from. -/
def beforeQuery (raw : Text) : Text :=
  rewrite leadRule (rewrite concatRule (rewrite templateRule
    (stripOf isSpace (stripOf (· == '\x60') (stripQuotes (stripOf isSpace raw))))))

/-- The text whose slashes are put in order. -/
def spelled (raw : Text) : Text := rewrite curlyRule (rewrite queryRule (beforeQuery raw))

/-- The slashes are put in order. -/
def finish (u : Text) : Option Text :=
  let s := collapseSlashes u
  let s := if !s.isEmpty && s.head? != some '/' then '/' :: s else s
  let s := if 1 < s.length && s.getLast? == some '/' then s.rdropWhile (· == '/') else s
  if s.isEmpty || s == ['/'] then none else some s

/-- Nothing is left of what the steps before look for. -/
structure Spelled (u : Text) : Prop where
  template : ¬ ['$', '{'] <:+: u
  placeholder : found curlyRule u = false
  concatenation : found concatRule u = false
  variable_first : found leadRule u = false

/-- One sweep is enough for the expression. -/
structure OneSweep (raw : Text) : Prop where
  relative : isExternal (stripOf isSpace raw) = false
  /-- no line break hides the end of a query string -/
  query : ∀ text, '?' :: text <:+ beforeQuery raw → '\n' ∉ text.dropLast
  spelled : Spelled (spelled raw)
  /-- the last character that is no slash is no quote and no blank -/
  ending : ∀ c, ((Api.spelled raw).filter (· != '/')).getLast? = some c → wraps c = false

/-! ## Rules that shorten -/

theorem closed_eq_some {text inner : Text} :
    closed text = some inner ↔ inner ≠ [] ∧ '}' ∉ inner ∧ ∃ rest, text = inner ++ '}' :: rest := by
  have hsplit := List.takeWhile_append_dropWhile (p := (· != '}')) (l := text)
  constructor
  · intro h
    unfold closed at h
    dsimp only at h
    split at h
    · cases h
    · next hboth =>
      obtain rfl := Option.some.inj h
      rw [Bool.or_eq_true, not_or, List.isEmpty_iff, List.isEmpty_iff] at hboth
      obtain ⟨c, rest, hrest⟩ := List.exists_cons_of_ne_nil hboth.2
      have hc : c = '}' := by
        have hhead := List.head?_dropWhile_not (· != '}') text
        rw [hrest] at hhead
        simpa using hhead
      subst hc
      rw [hrest] at hsplit
      refine ⟨hboth.1, fun hmem => ?_, rest, hsplit.symm⟩
      simpa using List.mem_takeWhile_imp hmem
  · rintro ⟨hne, hnone, rest, rfl⟩
    have hall : ∀ c ∈ inner, (c != '}') = true := fun c hc => by
      simpa using fun heq : c = '}' => hnone (heq ▸ hc)
    unfold closed
    rw [List.takeWhile_append_of_pos hall, List.dropWhile_append_of_pos hall]
    simp [hne]

theorem length_le_of_closed {text inner : Text} (h : closed text = some inner) :
    1 ≤ inner.length ∧ inner.length + 1 ≤ text.length := by
  obtain ⟨hne, -, rest, rfl⟩ := closed_eq_some.mp h
  have := List.length_pos_iff.mpr hne
  simp only [List.length_append, List.length_cons]
  omega

theorem length_stripOf_le (p : Char → Bool) (text : Text) :
    (stripOf p text).length ≤ (text.dropWhile p).length :=
  (List.rdropWhile_prefix p (text.dropWhile p)).length_le

theorem length_extractVarName_le {inner : Text} (hne : 1 ≤ inner.length) :
    (extractVarName ('$' :: '{' :: inner ++ ['}'])).length ≤ inner.length + 1 := by
  unfold extractVarName
  dsimp only
  cases hlast : List.getLast? _ with
  | none => exact Nat.succ_le_succ hne
  | some part =>
    have hpart := (List.mem_filter.mp (List.mem_of_getLast? hlast)).1
    refine (length_le_of_mem_splitOnP hpart).trans ((length_stripOf_le _ _).trans ?_)
    refine ((List.dropWhile_suffix _).length_le).trans ((length_stripOf_le _ _).trans ?_)
    have hbraces : (List.dropWhile (fun c => c == '$' || c == '{' || c == '}')
        (inner ++ ['}'])).length ≤ (inner ++ ['}']).length := (List.dropWhile_suffix _).length_le
    refine hbraces.trans ?_
    rw [List.length_append, List.length_singleton]

theorem shortens_templateRule : Shortens templateRule := by
  intro text fill n h
  unfold templateRule at h
  split at h
  · obtain ⟨inner, hinner, heq⟩ := Option.map_eq_some_iff.mp h
    cases heq
    obtain ⟨hpos, hle⟩ := length_le_of_closed hinner
    have := length_extractVarName_le hpos
    simp only [List.length_cons]
    omega
  · cases h

theorem shortens_curlyRule : Shortens curlyRule := by
  intro text fill n h
  unfold curlyRule at h
  split at h
  · obtain ⟨inner, hinner, heq⟩ := Option.map_eq_some_iff.mp h
    cases heq
    obtain ⟨hpos, hle⟩ := length_le_of_closed hinner
    simp only [List.length_cons]
    omega
  · cases h

theorem length_lt_of_afterPlus {text after : Text} (h : afterPlus text = some after) :
    after.length < text.length := by
  unfold afterPlus at h
  split at h
  · next rest hrest =>
    obtain rfl := Option.some.inj h
    have hplus := (List.dropWhile_suffix (l := text) isSpace).length_le
    have hafter := (List.dropWhile_suffix (l := rest) isSpace).length_le
    rw [hrest, List.length_cons] at hplus
    omega
  · cases h

theorem shortens_concatRule : Shortens concatRule := by
  intro text fill n h
  unfold concatRule at h
  split at h
  · next rest =>
    obtain ⟨after, hafter, h⟩ := Option.bind_eq_some_iff.mp h
    split at h
    · cases h
      have hlt := length_lt_of_afterPlus hafter
      have hname := (List.takeWhile_prefix (l := after) nameRest).length_le
      simp only [List.length_cons]
      omega
    · cases h
  · cases h

theorem shortens_leadRule : Shortens leadRule := by
  intro text fill n h
  unfold leadRule at h
  split at h
  · obtain ⟨after, hafter, h⟩ := Option.bind_eq_some_iff.mp h
    split at h
    · next hquote =>
      cases h
      have hlt := length_lt_of_afterPlus hafter
      have hname := (List.dropWhile_suffix (l := text) nameRest).length_le
      have hpos : 0 < after.length := by
        cases after with
        | nil => cases hquote
        | cons => exact Nat.zero_lt_succ _
      simp only [List.length_nil]
      omega
    · cases h
  · cases h

theorem shortens_queryRule : Shortens queryRule := by
  intro text fill n h
  unfold queryRule at h
  split at h
  · next rest =>
    dsimp only at h
    split at h
    · cases h
      have hafter := (List.dropWhile_suffix (l := rest) (· != '\n')).length_le
      simp only [List.length_nil, List.length_cons]
      omega
    · cases h
  · cases h

/-! ## Slashes -/

theorem head?_collapseSlashes (text : Text) : (collapseSlashes text).head? = text.head? := by
  induction text with
  | nil => rfl
  | cons c text ih =>
    rw [collapseSlashes]
    split
    · next hslash =>
      simp only [Bool.and_eq_true, beq_iff_eq] at hslash
      rw [ih, hslash.2, hslash.1, List.head?_cons]
    · rfl

theorem filter_collapseSlashes (text : Text) :
    (collapseSlashes text).filter (· != '/') = text.filter (· != '/') := by
  induction text with
  | nil => rfl
  | cons c text ih =>
    rw [collapseSlashes]
    split
    · next hslash =>
      simp only [Bool.and_eq_true, beq_iff_eq] at hslash
      rw [ih, List.filter_cons_of_neg (by simp [hslash.1])]
    · rw [List.filter_cons, List.filter_cons, ih]

theorem dropWhile_collapseSlashes {p : Char → Bool} (hp : p '/' = false) (text : Text) :
    (collapseSlashes text).dropWhile p = collapseSlashes (text.dropWhile p) := by
  induction text with
  | nil => rfl
  | cons c text ih =>
    cases hc : p c with
    | true =>
      have hslash : (c == '/') = false := beq_false_of_ne fun heq => by
        rw [heq, hp] at hc
        cases hc
      rw [collapseSlashes, hslash, Bool.false_and, if_neg Bool.false_ne_true,
        List.dropWhile_cons_of_pos hc, List.dropWhile_cons_of_pos hc, ih]
    | false =>
      rw [List.dropWhile_cons_of_neg (p := p) (by simp [hc])]
      refine List.dropWhile_eq_self_iff.mpr fun hpos => ?_
      have hhead := head?_collapseSlashes (c :: text)
      rw [List.head?_eq_getElem?, List.getElem?_eq_getElem hpos, List.head?_cons,
        Option.some.injEq] at hhead
      rw [hhead, hc]
      exact Bool.false_ne_true

theorem double_cons {c : Char} {text : Text} :
    ['/', '/'] <:+: c :: text ↔ (c = '/' ∧ text.head? = some '/') ∨ ['/', '/'] <:+: text := by
  rw [List.infix_cons_iff]
  refine or_congr_left ?_
  cases text with
  | nil => simp
  | cons d text => simp [eq_comm]

theorem not_double_collapseSlashes (text : Text) : ¬ ['/', '/'] <:+: collapseSlashes text := by
  induction text with
  | nil => simp [collapseSlashes]
  | cons c text ih =>
    rw [collapseSlashes]
    split
    · exact ih
    · next hslash =>
      rw [double_cons, head?_collapseSlashes]
      simp only [Bool.and_eq_true, beq_iff_eq] at hslash
      exact not_or.mpr ⟨hslash, ih⟩

theorem collapseSlashes_of_single {text : Text} (h : ¬ ['/', '/'] <:+: text) :
    collapseSlashes text = text := by
  induction text with
  | nil => rfl
  | cons c text ih =>
    rw [double_cons, not_or] at h
    rw [collapseSlashes, if_neg (by simpa using h.1), ih h.2]

theorem shrinking_collapseSlashes : Shrinking collapseSlashes := by
  intro text
  induction text with
  | nil => exact Or.inl rfl
  | cons c text ih =>
    rw [collapseSlashes]
    split
    · refine Or.inr (Nat.lt_succ_of_le ?_)
      rcases ih with hself | hlt
      · rw [hself]
      · exact hlt.le
    · rcases ih with hself | hlt
      · exact Or.inl (by rw [hself])
      · exact Or.inr (Nat.succ_lt_succ hlt)

theorem shrinking_stripOf (p : Char → Bool) : Shrinking (stripOf p) := by
  intro text
  have hstart := List.rdropWhile_prefix p (text.dropWhile p)
  have hsuffix := List.dropWhile_suffix (l := text) p
  rcases Nat.lt_or_ge (stripOf p text).length text.length with hlt | hle
  · exact Or.inr hlt
  · have hdrop := hsuffix.eq_of_length_le (hle.trans hstart.length_le)
    refine Or.inl ?_
    rw [hdrop] at hstart
    unfold stripOf at hle ⊢
    rw [hdrop] at hle ⊢
    exact hstart.eq_of_length_le hle

theorem shrinking_rdropWhile (p : Char → Bool) : Shrinking (List.rdropWhile p) := by
  intro text
  have hstart := List.rdropWhile_prefix p text
  rcases Nat.lt_or_ge (text.rdropWhile p).length text.length with hlt | hle
  · exact Or.inr hlt
  · exact Or.inl (hstart.eq_of_length_le hle)

/-- The text with a slash in front. -/
def rooted (s : Text) : Text := if !s.isEmpty && s.head? != some '/' then '/' :: s else s

/-- The last slashes are dropped from every text, since one slash alone is no pattern. -/
theorem finish_eq (u : Text) : finish u =
    let r := (rooted (collapseSlashes u)).rdropWhile (· == '/')
    if r = [] then none else some r := by
  have hroot : rooted (collapseSlashes u) = [] ∨ ∃ s, rooted (collapseSlashes u) = '/' :: s := by
    unfold rooted
    cases hu : collapseSlashes u with
    | nil => exact Or.inl rfl
    | cons c s =>
      refine Or.inr ?_
      split
      · exact ⟨_, rfl⟩
      · next hslash => exact ⟨s, by simpa using hslash⟩
  have hfinish : finish u =
      let s := if 1 < (rooted (collapseSlashes u)).length &&
        (rooted (collapseSlashes u)).getLast? == some '/' then
          (rooted (collapseSlashes u)).rdropWhile (· == '/') else rooted (collapseSlashes u)
      if s.isEmpty || s == ['/'] then none else some s := rfl
  rw [hfinish]
  generalize rooted (collapseSlashes u) = s at hroot
  rcases hroot with rfl | ⟨s, rfl⟩
  · rfl
  · rcases s.eq_nil_or_concat' with rfl | ⟨s, c, rfl⟩
    · rfl
    · have hlong : 1 < ('/' :: (s ++ [c])).length := by simp
      have hlast : ('/' :: (s ++ [c])).getLast? = some c := by
        rw [← List.cons_append, List.getLast?_concat]
      rw [hlast, decide_eq_true hlong, Bool.true_and]
      by_cases hc : c = '/'
      · have hslash : (some c == some '/') = true := by rw [hc]; rfl
        have hone : ('/' :: (s ++ [c])).rdropWhile (· == '/') ≠ ['/'] := fun heq => by
          have hnot := List.rdropWhile_last_not (p := (· == '/')) (l := '/' :: (s ++ [c]))
            (heq ▸ List.cons_ne_nil _ _)
          simp [heq] at hnot
        dsimp only
        rw [if_pos hslash]
        simp only [Bool.or_eq_true, List.isEmpty_iff, beq_iff_eq, hone, or_false]
      · have hself : ('/' :: (s ++ [c])).rdropWhile (· == '/') = '/' :: (s ++ [c]) := by
          rw [← List.cons_append]
          exact List.rdropWhile_concat_neg _ _ _ (by simpa using hc)
        have hslash : ¬ (some c == some '/') = true := by simpa using hc
        dsimp only
        rw [if_neg hslash, hself]
        simp

/-! ## Rules that do not look at slashes -/

/-- Doubling a slash, or putting one in front or at the end, makes no difference to the rule. -/
structure SlashBlind (rule : Rule Char) : Prop where
  slash : ∀ text, rule ('/' :: text) = none
  collapse : ∀ text, (rule (collapseSlashes text)).isSome = (rule text).isSome
  append : ∀ text, (rule (text ++ ['/'])).isSome = (rule text).isSome

section SlashBlind

variable {rule : Rule Char} (h : SlashBlind rule)
include h

theorem SlashBlind.found_slash (text : Text) : found rule ('/' :: text) = found rule text := by
  rw [found_cons, h.slash]
  rfl

theorem SlashBlind.found_collapseSlashes (text : Text) :
    found rule (collapseSlashes text) = found rule text := by
  induction text with
  | nil => rfl
  | cons c text ih =>
    have happly := h.collapse (c :: text)
    rw [collapseSlashes] at happly ⊢
    split at happly
    · next hslash =>
      obtain ⟨hc, -⟩ := Bool.and_eq_true_iff.mp hslash
      rw [eq_of_beq hc, if_pos (by rwa [eq_of_beq hc] at hslash), ih, h.found_slash]
    · next hslash => rw [if_neg hslash, found_cons, found_cons, happly, ih]

theorem SlashBlind.found_append (text : Text) :
    found rule (text ++ ['/']) = found rule text := by
  induction text with
  | nil => exact h.found_slash []
  | cons c text ih =>
    rw [List.cons_append, found_cons, found_cons, ih, ← List.cons_append, h.append]

theorem SlashBlind.found_rdropWhile (text : Text) :
    found rule (text.rdropWhile (· == '/')) = found rule text := by
  induction text using List.reverseRecOn with
  | nil => rfl
  | append_singleton text c ih =>
    rw [List.rdropWhile_concat]
    split
    · next hc => rw [ih, eq_of_beq hc, h.found_append]
    · rfl

/-- **Putting the slashes in order** makes no other pattern appear or disappear. -/
theorem SlashBlind.found_finish {u r : Text} (hr : finish u = some r) :
    found rule r = found rule u := by
  rw [finish_eq] at hr
  dsimp only at hr
  split at hr
  · cases hr
  · obtain rfl := Option.some.inj hr
    rw [h.found_rdropWhile, rooted]
    split
    · rw [h.found_slash, h.found_collapseSlashes]
    · exact h.found_collapseSlashes u

end SlashBlind

theorem slashBlind_of_head {rule : Rule Char} {c : Char} {p : Text → Bool} (hc : c ≠ '/')
    (hnil : rule [] = none) (hcons : ∀ d text, (rule (d :: text)).isSome = (d == c && p text))
    (hcollapse : ∀ text, p (collapseSlashes text) = p text)
    (happend : ∀ text, p (text ++ ['/']) = p text) : SlashBlind rule where
  slash text := by
    rw [← Option.isNone_iff_eq_none, ← Option.not_isSome, hcons, beq_false_of_ne (Ne.symm hc)]
    rfl
  collapse text := by
    cases text with
    | nil => rfl
    | cons d text =>
      by_cases hd : d = c
      · have hslash : (d == '/') = false := beq_false_of_ne (hd ▸ hc)
        rw [collapseSlashes, hslash, Bool.false_and, if_neg Bool.false_ne_true, hcons, hcons,
          hcollapse]
      · have hnone : ∀ text, (rule (d :: text)).isSome = false := fun text => by
          rw [hcons, beq_false_of_ne hd, Bool.false_and]
        have hhead := head?_collapseSlashes (d :: text)
        obtain ⟨e, rest, hrest⟩ : ∃ e rest, collapseSlashes (d :: text) = e :: rest :=
          List.exists_cons_of_ne_nil fun hnil => by
            rw [hnil] at hhead
            cases hhead
        rw [hrest, List.head?_cons, List.head?_cons, Option.some.injEq] at hhead
        rw [hrest, hhead, hnone, hnone]
  append text := by
    cases text with
    | nil =>
      rw [List.nil_append, hcons, hnil, beq_false_of_ne (Ne.symm hc)]
      rfl
    | cons d text => rw [List.cons_append, hcons, hcons, happend]

theorem isSome_closed {text : Text} :
    (closed text).isSome = true ↔ text.head? ≠ some '}' ∧ '}' ∈ text := by
  rw [Option.isSome_iff_exists]
  constructor
  · rintro ⟨inner, h⟩
    obtain ⟨hne, hnone, rest, rfl⟩ := closed_eq_some.mp h
    obtain ⟨c, inner, rfl⟩ := List.exists_cons_of_ne_nil hne
    refine ⟨fun heq => hnone ?_, by simp⟩
    rw [List.cons_append, List.head?_cons, Option.some.injEq] at heq
    rw [heq]
    exact List.mem_cons_self
  · rintro ⟨hhead, hmem⟩
    obtain ⟨inner, rest, rfl, hnone⟩ := List.eq_append_cons_of_mem hmem
    refine ⟨inner, closed_eq_some.mpr ⟨?_, hnone, rest, rfl⟩⟩
    rintro rfl
    exact hhead rfl

theorem mem_collapseSlashes {c : Char} (hc : c ≠ '/') (text : Text) :
    c ∈ collapseSlashes text ↔ c ∈ text := by
  have hfilter := filter_collapseSlashes text
  have hmem : ∀ text : Text, c ∈ text ↔ c ∈ text.filter (· != '/') := fun text => by
    simp [List.mem_filter, hc]
  rw [hmem, hfilter, ← hmem]

theorem slashBlind_curlyRule : SlashBlind curlyRule := by
  have hhead : ∀ text : Text, (text ++ ['/']).head? = some '}' ↔ text.head? = some '}' := by
    intro text
    cases text with
    | nil => simp
    | cons c text => rfl
  refine slashBlind_of_head (c := '{') (p := fun text => (closed text).isSome) (by decide) rfl
    (fun d text => ?_) (fun text => ?_) fun text => ?_
  · by_cases hd : d = '{'
    · rw [hd, curlyRule, Option.isSome_map]
      rfl
    · rw [beq_false_of_ne hd, Bool.false_and]
      unfold curlyRule
      split
      · next heq => exact absurd (List.cons.inj heq).1 hd
      · rfl
  · rw [Bool.eq_iff_iff, isSome_closed, isSome_closed, head?_collapseSlashes,
      mem_collapseSlashes (by decide)]
  · rw [Bool.eq_iff_iff, isSome_closed, isSome_closed, Ne, hhead]
    simp

/-- Where a template begins. -/
def templateStart : Rule Char
  | '$' :: '{' :: _ => some ([], 2)
  | _ => none

theorem slashBlind_templateStart : SlashBlind templateStart := by
  refine slashBlind_of_head (c := '$') (p := fun text => text.head? == some '{') (by decide) rfl
    (fun d text => ?_) (fun text => ?_) fun text => ?_
  · unfold templateStart
    split
    · next heq =>
      obtain ⟨rfl, rfl⟩ := List.cons.inj heq
      rfl
    · next hne =>
      by_cases hd : d = '$'
      · cases text with
        | nil => simp
        | cons e text =>
          have he : e ≠ '{' := fun he => hne text (by rw [hd, he])
          simp [he]
      · simp [hd]
  · rw [head?_collapseSlashes]
  · cases text with
    | nil => rfl
    | cons c text => rfl

theorem afterPlus_eq (text : Text) : afterPlus text =
    if (text.dropWhile isSpace).head? = some '+' then
      some ((text.dropWhile isSpace).tail.dropWhile isSpace)
    else none := by
  unfold afterPlus
  split
  · next hplus => rw [hplus]; rfl
  · next hplus =>
    rw [if_neg]
    intro hhead
    obtain ⟨rest, hrest⟩ := List.head?_eq_some_iff.mp hhead
    exact hplus rest hrest

theorem afterPlus_collapseSlashes (text : Text) :
    afterPlus (collapseSlashes text) = (afterPlus text).map collapseSlashes := by
  rw [afterPlus_eq, afterPlus_eq, dropWhile_collapseSlashes (by decide), head?_collapseSlashes]
  split
  · next hplus =>
    obtain ⟨rest, hrest⟩ := List.head?_eq_some_iff.mp hplus
    rw [hrest, collapseSlashes, if_neg (by simp)]
    exact congrArg some (dropWhile_collapseSlashes (by decide) rest)
  · rfl

theorem afterPlus_append (text : Text) :
    afterPlus (text ++ ['/']) = (afterPlus text).map (· ++ ['/']) := by
  rw [afterPlus_eq, afterPlus_eq, dropWhile_append_cons (by decide)]
  cases text.dropWhile isSpace with
  | nil => rfl
  | cons c rest =>
    rw [List.cons_append, List.head?_cons, List.head?_cons, List.tail_cons, List.tail_cons,
      dropWhile_append_cons (by decide)]
    split <;> rfl

/-- A test of the first character that a slash does not pass. -/
theorem head?_any_append {p : Char → Bool} (hp : p '/' = false) (text : Text) :
    (text ++ ['/']).head?.any p = text.head?.any p := by
  cases text with
  | nil => exact hp
  | cons c text => rfl

theorem slashBlind_concatRule : SlashBlind concatRule := by
  refine slashBlind_of_head (c := '"') (p := fun text => (afterPlus text).any
    fun after => after.head?.any nameStart) (by decide) rfl (fun d text => ?_) (fun text => ?_)
      fun text => ?_
  · by_cases hd : d = '"'
    · subst hd
      rw [concatRule, beq_self_eq_true, Bool.true_and]
      cases afterPlus text with
      | none => rfl
      | some after =>
        rw [Option.bind_some, Option.any_some]
        split
        · next hname => exact hname.symm
        · next hname => exact (Bool.eq_false_iff.mpr hname).symm
    · rw [beq_false_of_ne hd, Bool.false_and]
      unfold concatRule
      split
      · next heq => exact absurd (List.cons.inj heq).1 hd
      · rfl
  · rw [afterPlus_collapseSlashes, Option.any_map]
    simp only [head?_collapseSlashes]
  · rw [afterPlus_append, Option.any_map]
    simp only [head?_any_append (p := nameStart) (by decide)]

theorem isSome_leadRule (text : Text) : (leadRule text).isSome =
    (text.head?.any nameStart && (afterPlus (text.dropWhile nameRest)).any
      fun after => after.head?.any (· == '"')) := by
  unfold leadRule
  cases hname : text.head?.any nameStart with
  | false => rfl
  | true =>
    rw [if_pos rfl, Bool.true_and]
    cases afterPlus (text.dropWhile nameRest) with
    | none => rfl
    | some after =>
      rw [Option.bind_some, Option.any_some]
      cases after with
      | nil => rfl
      | cons c after =>
        by_cases hc : c = '"'
        · simp [hc]
        · simp [hc]

theorem slashBlind_leadRule : SlashBlind leadRule where
  slash text := rfl
  collapse text := by
    rw [isSome_leadRule, isSome_leadRule, head?_collapseSlashes,
      dropWhile_collapseSlashes (by decide), afterPlus_collapseSlashes, Option.any_map]
    simp only [head?_collapseSlashes]
  append text := by
    rw [isSome_leadRule, isSome_leadRule, dropWhile_append_cons (by decide),
      head?_any_append (by decide), afterPlus_append, Option.any_map]
    simp only [head?_any_append (p := fun c => c == '"') (by decide)]

/-! ## The whole expression -/

theorem normalizeUrlPattern_eq (raw : Text) : normalizeUrlPattern raw =
    if isExternal (stripOf isSpace raw) then none else finish (spelled raw) := by
  have hspelled : finish (spelled raw) = finish (rewrite curlyRule (rewrite queryRule
      (rewrite leadRule (rewrite concatRule (rewrite templateRule (stripOf isSpace
        (stripOf (· == '\x60') (stripQuotes (stripOf isSpace raw))))))))) := rfl
  unfold normalizeUrlPattern
  rw [hspelled]
  split
  · next hempty =>
    rw [List.isEmpty_iff.mp hempty]
    rfl
  · dsimp only
    split
    · rfl
    · split
      · next hempty =>
        rw [List.isEmpty_iff.mp hempty]
        rfl
      · rfl

theorem filter_rooted (s : Text) : (rooted s).filter (· != '/') = s.filter (· != '/') := by
  unfold rooted
  split
  · exact List.filter_cons_of_neg (by decide)
  · rfl

theorem filter_rdropWhile (s : Text) :
    (s.rdropWhile (· == '/')).filter (· != '/') = s.filter (· != '/') := by
  induction s using List.reverseRecOn with
  | nil => rfl
  | append_singleton s c ih =>
    rw [List.rdropWhile_concat]
    split
    · next hc =>
      rw [ih, List.filter_append, eq_of_beq hc]
      exact (List.append_nil _).symm
    · rfl

theorem filter_finish (u : Text) :
    ((rooted (collapseSlashes u)).rdropWhile (· == '/')).filter (· != '/') =
      u.filter (· != '/') := by
  rw [filter_rdropWhile, filter_rooted, filter_collapseSlashes]

theorem finish_eq_none {u : Text} : finish u = none ↔ u.filter (· != '/') = [] := by
  rw [finish_eq]
  dsimp only
  rw [← filter_finish]
  constructor
  · intro h
    split at h
    · next hempty => rw [hempty]; rfl
    · cases h
  · intro h
    rw [filter_rdropWhile] at h
    rw [if_pos (List.rdropWhile_eq_nil_iff.mpr fun c hc => ?_)]
    simpa using List.filter_eq_nil_iff.mp h c hc

/-- **What putting the slashes in order leaves.** -/
theorem finish_some {u r : Text} (h : finish u = some r) :
    r.head? = some '/' ∧ ¬ ['/', '/'] <:+: r ∧ r.getLast? ≠ some '/' ∧
      r.filter (· != '/') = u.filter (· != '/') := by
  rw [finish_eq] at h
  dsimp only at h
  split at h
  · cases h
  · next hne =>
    obtain rfl := Option.some.inj h
    have hstart := List.rdropWhile_prefix (· == '/') (rooted (collapseSlashes u))
    refine ⟨?_, fun hdouble => ?_, fun hlast => ?_, filter_finish u⟩
    · obtain ⟨c, s, hs⟩ := List.exists_cons_of_ne_nil hne
      obtain ⟨rest, hrest⟩ := hstart
      rw [hs] at hrest ⊢
      have hhead : (rooted (collapseSlashes u)).head? = some c := by rw [← hrest]; rfl
      rw [List.head?_cons, ← hhead]
      unfold rooted
      split
      · rfl
      · next hroot =>
        simp only [Bool.and_eq_true, not_and, bne_iff_ne, ne_eq, not_not] at hroot
        refine hroot ?_
        rw [rooted, if_neg (by simpa using hroot)] at hhead
        cases hcollapse : collapseSlashes u with
        | nil => rw [hcollapse] at hhead; cases hhead
        | cons => rfl
    · have hwhole := hdouble.trans hstart.isInfix
      unfold rooted at hwhole
      split at hwhole
      · next hroot =>
        simp only [Bool.and_eq_true, bne_iff_ne, ne_eq] at hroot
        rcases double_cons.mp hwhole with ⟨-, hhead⟩ | hwhole
        · exact hroot.2 hhead
        · exact not_double_collapseSlashes u hwhole
      · exact not_double_collapseSlashes u hwhole
    · rw [List.getLast?_eq_some_getLast hne, Option.some.injEq] at hlast
      exact List.rdropWhile_last_not _ _ hne (beq_iff_eq.mpr hlast)

/-- The steps of a normalisation, for a text that begins with a slash. -/
def sweep : List (Text → Text) :=
  [stripOf isSpace, stripQuotes, stripOf (· == '\x60'), stripOf isSpace, rewrite templateRule,
    rewrite concatRule, rewrite leadRule, rewrite queryRule, rewrite curlyRule, collapseSlashes,
    List.rdropWhile (· == '/')]

theorem shrinking_sweep : ∀ f ∈ sweep, Shrinking f := by
  simp only [sweep, List.forall_mem_cons]
  exact ⟨shrinking_stripOf _, shrinking_stripOf _, shrinking_stripOf _, shrinking_stripOf _,
    shrinking_rewrite shortens_templateRule, shrinking_rewrite shortens_concatRule,
    shrinking_rewrite shortens_leadRule, shrinking_rewrite shortens_queryRule,
    shrinking_rewrite shortens_curlyRule, shrinking_collapseSlashes, shrinking_rdropWhile _,
    fun f hf => absurd hf List.not_mem_nil⟩

theorem foldl_sweep (raw : Text) : sweep.foldl (fun text f => f text) raw =
    (collapseSlashes (spelled raw)).rdropWhile (· == '/') := by
  simp only [sweep, List.foldl_cons, List.foldl_nil, spelled, beforeQuery]

theorem stripOf_root {p : Char → Bool} (hp : p '/' = false) (text : Text) :
    stripOf p ('/' :: text) = '/' :: text.rdropWhile p := by
  rw [stripOf, List.dropWhile_cons_of_neg (by simp [hp])]
  exact rdropWhile_append_cons (a := []) hp

theorem spelled_root (text : Text) : ∃ rest, spelled ('/' :: text) = '/' :: rest := by
  unfold spelled beforeQuery stripQuotes
  rw [stripOf_root (by decide), stripOf_root (by decide), stripOf_root (by decide),
    stripOf_root (by decide), rewrite_cons rfl, rewrite_cons rfl, rewrite_cons rfl,
    rewrite_cons rfl, rewrite_cons rfl]
  exact ⟨_, rfl⟩

theorem isExternal_root (text : Text) : isExternal ('/' :: text) = false := by
  unfold isExternal
  rw [List.map_cons]
  exact Bool.or_eq_false_iff.mpr ⟨rfl, rfl⟩

/-- Nothing is stripped iff neither end is of that kind. -/
theorem stripOf_eq_self_iff {p : Char → Bool} {text : Text} : stripOf p text = text ↔
    (∀ c, text.head? = some c → p c = false) ∧ ∀ c, text.getLast? = some c → p c = false := by
  have hdrop : text.dropWhile p = text ↔ ∀ c, text.head? = some c → p c = false := by
    cases text with
    | nil => simp
    | cons c text => rw [List.dropWhile_eq_self_iff]; simp
  have hrdrop : text.rdropWhile p = text ↔ ∀ c, text.getLast? = some c → p c = false := by
    rw [List.rdropWhile_eq_self_iff]
    constructor
    · intro h c hc
      obtain ⟨before, rfl⟩ := List.getLast?_eq_some_iff.mp hc
      simpa using h (by simp)
    · intro h hne
      simpa using h _ (List.getLast?_eq_some_getLast hne)
  rw [← hdrop, ← hrdrop]
  constructor
  · intro h
    have hsuffix := List.dropWhile_suffix (l := text) p
    have hle := (List.rdropWhile_prefix p (text.dropWhile p)).length_le
    have hself : text.dropWhile p = text := by
      refine hsuffix.eq_of_length_le ?_
      unfold stripOf at h
      rwa [h] at hle
    exact ⟨hself, by rwa [stripOf, hself] at h⟩
  · rintro ⟨hself, hlast⟩
    rw [stripOf, hself, hlast]

theorem eq_false_of_le {p q : Char → Bool} (hpq : ∀ c, q c = true → p c = true) {c : Char}
    (h : p c = false) : q c = false := by
  by_contra hq
  rw [hpq c (Bool.not_eq_false _ ▸ hq)] at h
  cases h

theorem stripOf_of_le {p q : Char → Bool} (hpq : ∀ c, q c = true → p c = true) {text : Text}
    (h : stripOf p text = text) : stripOf q text = text := by
  obtain ⟨hhead, hlast⟩ := stripOf_eq_self_iff.mp h
  exact stripOf_eq_self_iff.mpr ⟨fun c hc => eq_false_of_le hpq (hhead c hc),
    fun c hc => eq_false_of_le hpq (hlast c hc)⟩

theorem wraps_of_isSpace (c : Char) (h : isSpace c = true) : wraps c = true := by
  simp [wraps, h]

theorem wraps_of_tick (c : Char) (h : (c == '\x60') = true) : wraps c = true := by
  simp [wraps, eq_of_beq h]

/-- **A pattern stays as it is** iff none of the steps finds anything. -/
theorem normalize_eq_self_iff {r : Text} (hroot : r.head? = some '/')
    (hsingle : ¬ ['/', '/'] <:+: r) (hlast : r.getLast? ≠ some '/') :
    normalizeUrlPattern r = some r ↔ stripOf wraps r = r ∧ found templateRule r = false ∧
      found concatRule r = false ∧ found leadRule r = false ∧ found queryRule r = false ∧
      found curlyRule r = false := by
  obtain ⟨text, rfl⟩ := List.head?_eq_some_iff.mp hroot
  have hsweep : normalizeUrlPattern ('/' :: text) = some ('/' :: text) ↔
      sweep.foldl (fun text f => f text) ('/' :: text) = '/' :: text := by
    obtain ⟨rest, hrest⟩ := spelled_root text
    have hrooted : rooted (collapseSlashes (spelled ('/' :: text))) =
        collapseSlashes (spelled ('/' :: text)) := by
      rw [rooted, head?_collapseSlashes, hrest, if_neg (by simp)]
    rw [normalizeUrlPattern_eq, stripOf_root (by decide), isExternal_root,
      if_neg Bool.false_ne_true, finish_eq, hrooted, ← foldl_sweep]
    dsimp only
    constructor
    · intro h
      split at h
      · cases h
      · exact Option.some.inj h
    · intro h
      rw [h, if_neg (List.cons_ne_nil _ _)]
  rw [hsweep, foldl_eq_self_iff shrinking_sweep]
  simp only [sweep, List.forall_mem_cons, rewrite_eq_self_iff shortens_templateRule,
    rewrite_eq_self_iff shortens_concatRule, rewrite_eq_self_iff shortens_leadRule,
    rewrite_eq_self_iff shortens_queryRule, rewrite_eq_self_iff shortens_curlyRule]
  constructor
  · rintro ⟨-, hquotes, -, -, htemplate, hconcat, hlead, hquery, hcurly, -⟩
    exact ⟨hquotes, htemplate, hconcat, hlead, hquery, hcurly⟩
  · rintro ⟨hquotes, htemplate, hconcat, hlead, hquery, hcurly⟩
    have hspace := stripOf_of_le wraps_of_isSpace hquotes
    have htick := stripOf_of_le wraps_of_tick hquotes
    refine ⟨hspace, hquotes, htick, hspace, htemplate, hconcat, hlead, hquery, hcurly,
      collapseSlashes_of_single hsingle, ?_, fun f hf => absurd hf List.not_mem_nil⟩
    refine List.rdropWhile_eq_self_iff.mpr fun hne heq => hlast ?_
    rw [List.getLast?_eq_some_getLast hne, eq_of_beq heq]

/-! ## One sweep -/

theorem found_templateStart {text : Text} :
    found templateStart text = true ↔ ['$', '{'] <:+: text := by
  rw [found_iff]
  constructor
  · rintro ⟨tail, hsuffix, happly⟩
    unfold templateStart at happly
    split at happly
    · next rest => exact (List.prefix_append ['$', '{'] rest).isInfix.trans hsuffix.isInfix
    · cases happly
  · rintro ⟨before, rest, rfl⟩
    exact ⟨'$' :: '{' :: rest, ⟨before, by simp⟩, rfl⟩

/-- Where no template begins there is none. -/
theorem found_templateRule {text : Text} (h : ¬ ['$', '{'] <:+: text) :
    found templateRule text = false := by
  rw [Bool.eq_false_iff]
  intro hfound
  obtain ⟨tail, hsuffix, happly⟩ := found_iff.mp hfound
  refine h (found_templateStart.mp (found_iff.mpr ⟨tail, hsuffix, ?_⟩))
  unfold templateRule at happly
  split at happly
  · rfl
  · cases happly

theorem found_queryRule {text : Text} (h : '?' ∉ text) : found queryRule text = false := by
  rw [Bool.eq_false_iff]
  intro hfound
  obtain ⟨tail, hsuffix, happly⟩ := found_iff.mp hfound
  unfold queryRule at happly
  split at happly
  · exact h (hsuffix.subset List.mem_cons_self)
  · cases happly

theorem found_curlyRule {text : Text} : found curlyRule text = false ↔
    ∀ inner, inner ≠ [] → '}' ∉ inner → ¬ '{' :: inner ++ ['}'] <:+: text := by
  rw [Bool.eq_false_iff, Ne, found_iff]
  constructor
  · rintro h inner hne hnone ⟨before, rest, rfl⟩
    refine h ⟨'{' :: (inner ++ '}' :: rest), ⟨before, by simp⟩, ?_⟩
    rw [curlyRule, closed_eq_some.mpr ⟨hne, hnone, rest, rfl⟩]
    rfl
  · rintro h ⟨tail, hsuffix, happly⟩
    unfold curlyRule at happly
    split at happly
    · rw [Option.isSome_map] at happly
      obtain ⟨inner, hinner⟩ := Option.isSome_iff_exists.mp happly
      obtain ⟨hne, hnone, rest, rfl⟩ := closed_eq_some.mp hinner
      refine h inner hne hnone (List.IsInfix.trans ⟨[], rest, ?_⟩ hsuffix.isInfix)
      simp
    · cases happly

/-- **A pattern is canonical** iff nothing is left in the text before its slashes were put in
order. -/
theorem canonical_iff {u r : Text} (h : finish u = some r) : CanonicalPattern r ↔
    Spelled u ∧ '?' ∉ u ∧ ∀ c, (u.filter (· != '/')).getLast? = some c → wraps c = false := by
  obtain ⟨hroot, hsingle, hlast, hfilter⟩ := finish_some h
  have htemplate : ['$', '{'] <:+: r ↔ ['$', '{'] <:+: u := by
    rw [← found_templateStart, ← found_templateStart, slashBlind_templateStart.found_finish h]
  have hquery : '?' ∈ r ↔ '?' ∈ u := by
    have hmem : ∀ text : Text, '?' ∈ text ↔ '?' ∈ text.filter (· != '/') := fun text => by simp
    rw [hmem r, hfilter, ← hmem]
  have hending : stripOf wraps r = r ↔
      ∀ c, (u.filter (· != '/')).getLast? = some c → wraps c = false := by
    have hfirst : ∀ c, r.head? = some c → wraps c = false := fun c hc => by
      rw [hroot, Option.some.injEq] at hc
      subst hc
      decide
    have hsame : (u.filter (· != '/')).getLast? = r.getLast? := by
      rw [← hfilter]
      rcases r.eq_nil_or_concat' with rfl | ⟨r, c, rfl⟩
      · rfl
      · rw [List.getLast?_concat] at hlast
        rw [List.filter_append, List.filter_cons_of_pos (by simpa using hlast), List.filter_nil,
          List.getLast?_concat, List.getLast?_concat]
    rw [stripOf_eq_self_iff, and_iff_right hfirst, hsame]
  have hfixed := normalize_eq_self_iff hroot hsingle hlast
  rw [hending, slashBlind_concatRule.found_finish h, slashBlind_leadRule.found_finish h,
    slashBlind_curlyRule.found_finish h] at hfixed
  constructor
  · intro hr
    obtain ⟨hending, -, hconcat, hlead, -, hcurly⟩ := hfixed.mp hr.fixed
    exact ⟨⟨fun hu => hr.template (htemplate.mpr hu), hcurly, hconcat, hlead⟩,
      fun hu => hr.query (hquery.mpr hu), hending⟩
  · rintro ⟨hu, hnone, hending⟩
    have hr : '?' ∉ r := fun hmem => hnone (hquery.mp hmem)
    have hstart : ¬ ['$', '{'] <:+: r := fun hin => hu.template (htemplate.mp hin)
    refine ⟨hroot, hsingle, hr, hstart, found_curlyRule.mp ?_, hlast, hfixed.mpr ?_⟩
    · rw [slashBlind_curlyRule.found_finish h]
      exact hu.placeholder
    · exact ⟨hending, found_templateRule hstart, hu.concatenation, hu.variable_first,
        found_queryRule hr, hu.placeholder⟩

/-! ## The query string -/

/-- The rest of the line is the rest of the text iff no line break stands before its end. -/
theorem dropWhile_line (text : Text) :
    text.dropWhile (· != '\n') = [] ∨ text.dropWhile (· != '\n') = ['\n'] ↔
      '\n' ∉ text.dropLast := by
  have hsplit := List.takeWhile_append_dropWhile (p := (· != '\n')) (l := text)
  have hhead := List.head?_dropWhile_not (· != '\n') text
  have hline : '\n' ∉ text.takeWhile (· != '\n') := fun hmem => by
    simpa using List.mem_takeWhile_imp hmem
  generalize text.takeWhile (· != '\n') = line at hsplit hline
  generalize text.dropWhile (· != '\n') = after at hsplit hhead
  subst hsplit
  cases after with
  | nil =>
    rw [List.append_nil]
    exact iff_of_true (Or.inl rfl) fun hmem => hline (List.mem_of_mem_dropLast hmem)
  | cons c after =>
    obtain rfl : c = '\n' := by simpa using hhead
    cases after with
    | nil =>
      rw [List.dropLast_concat]
      exact iff_of_true (Or.inr rfl) hline
    | cons d after =>
      refine iff_of_false (by simp) (not_not.mpr ?_)
      rw [List.dropLast_append_cons]
      exact List.mem_append_right _ List.mem_cons_self

theorem queryRule_cons (c : Char) (text : Text) : queryRule (c :: text) =
    if c = '?' ∧ '\n' ∉ text.dropLast then
      some ([], 1 + (text.takeWhile (· != '\n')).length)
    else none := by
  by_cases hc : c = '?'
  · subst hc
    have hlength := congrArg List.length
      (List.takeWhile_append_dropWhile (p := (· != '\n')) (l := text))
    rw [List.length_append] at hlength
    have htaken : text.length - (text.dropWhile (· != '\n')).length =
        (text.takeWhile (· != '\n')).length := by omega
    rw [queryRule, htaken]
    simp only [Bool.or_eq_true, beq_iff_eq, dropWhile_line, true_and]
  · rw [if_neg fun h => hc h.1]
    unfold queryRule
    split
    · next heq => exact absurd (List.cons.inj heq).1 hc
    · rfl

/-- A question mark is left iff a line break follows one, which is not the last character. -/
theorem mem_rewrite_queryRule {text : Text} : '?' ∈ rewrite queryRule text ↔
    ∃ rest, '?' :: rest <:+ text ∧ '\n' ∈ rest.dropLast := by
  induction text with
  | nil => simp [rewrite, rewriteFrom]
  | cons c text ih =>
    have hcons : (∃ rest, '?' :: rest <:+ c :: text ∧ '\n' ∈ rest.dropLast) ↔
        (c = '?' ∧ '\n' ∈ text.dropLast) ∨
          ∃ rest, '?' :: rest <:+ text ∧ '\n' ∈ rest.dropLast := by
      constructor
      · rintro ⟨rest, hsuffix, hbreak⟩
        rcases List.suffix_cons_iff.mp hsuffix with heq | hsuffix
        · obtain ⟨rfl, rfl⟩ := List.cons.inj heq
          exact Or.inl ⟨rfl, hbreak⟩
        · exact Or.inr ⟨rest, hsuffix, hbreak⟩
      · rintro (⟨rfl, hbreak⟩ | ⟨rest, hsuffix, hbreak⟩)
        · exact ⟨text, List.suffix_rfl, hbreak⟩
        · exact ⟨rest, hsuffix.trans (List.suffix_cons _ _), hbreak⟩
    rw [hcons]
    have hrule := queryRule_cons c text
    split at hrule
    · next happly =>
      -- The query string is dropped to the end of the text.
      have hafter : rewriteFrom queryRule (text.takeWhile (· != '\n')).length text =
          text.dropWhile (· != '\n') := by
        have hdrop : text.drop (text.takeWhile (· != '\n')).length =
            text.dropWhile (· != '\n') := by
          have hdrop := congrArg (List.drop (text.takeWhile (· != '\n')).length)
            (List.takeWhile_append_dropWhile (p := (· != '\n')) (l := text))
          rw [List.drop_left] at hdrop
          exact hdrop.symm
        rw [rewriteFrom_eq, hdrop]
        rcases (dropWhile_line text).mpr happly.2 with hnil | hone
        · rw [hnil]; rfl
        · rw [hone]; rfl
      rw [rewrite, rewriteFrom, hrule]
      dsimp only
      rw [Nat.add_sub_cancel_left, List.nil_append, hafter]
      refine iff_of_false (fun hmem => ?_) ?_
      · rcases (dropWhile_line text).mpr happly.2 with hnil | hone
        · rw [hnil] at hmem; cases hmem
        · rw [hone] at hmem; simp at hmem
      · rintro (⟨-, hbreak⟩ | ⟨rest, ⟨before, hbefore⟩, hbreak⟩)
        · exact happly.2 hbreak
        · refine happly.2 ?_
          rw [← hbefore, List.dropLast_append_cons]
          cases rest with
          | nil => cases hbreak
          | cons d rest =>
            exact List.mem_append_right _ (List.mem_cons_of_mem _ hbreak)
    · next happly =>
      rw [rewrite_cons hrule, List.mem_cons, ih]
      refine or_congr_left ⟨fun hc => ⟨hc.symm, ?_⟩, fun hc => hc.1.symm⟩
      by_contra hbreak
      exact happly ⟨hc.symm, hbreak⟩

/-- No placeholder hides a question mark, and none is put in. -/
theorem mem_rewrite_curlyRule {text : Text} : '?' ∈ rewrite curlyRule text ↔ '?' ∈ text := by
  refine mem_rewrite fun text fill n h => ?_
  unfold curlyRule at h
  split at h
  · obtain ⟨inner, hinner, heq⟩ := Option.map_eq_some_iff.mp h
    cases heq
    obtain ⟨-, -, rest, rfl⟩ := closed_eq_some.mp hinner
    have htake : ('{' :: (inner ++ '}' :: rest)).take (inner.length + 2) =
        '{' :: inner ++ ['}'] := by
      have hsplit : '{' :: (inner ++ '}' :: rest) = ('{' :: inner ++ ['}']) ++ rest := by simp
      rw [hsplit, List.take_left' (by simp)]
    rw [htake]
    simp
  · cases h

/-! ## Quotes -/

/-- What is stripped anyway may stand around the text. -/
theorem stripOf_append {p : Char → Bool} {before after : Text} (hbefore : ∀ c ∈ before, p c = true)
    (hafter : ∀ c ∈ after, p c = true) (text : Text) :
    stripOf p (before ++ text ++ after) = stripOf p text := by
  have hright : ∀ text : Text, (text ++ after).rdropWhile p = text.rdropWhile p := by
    intro text
    rw [List.rdropWhile, List.rdropWhile, List.reverse_append,
      List.dropWhile_append_of_pos fun c hc => hafter c (List.mem_reverse.mp hc)]
  unfold stripOf
  rw [List.append_assoc, List.dropWhile_append_of_pos hbefore, List.dropWhile_append]
  split
  · next hempty =>
    rw [List.isEmpty_iff.mp hempty, List.dropWhile_eq_nil_iff.mpr hafter]
  · rw [hright]

/-- A weaker strip before makes no difference. -/
theorem stripOf_stripOf {p q : Char → Bool} (hpq : ∀ c, q c = true → p c = true) (text : Text) :
    stripOf p (stripOf q text) = stripOf p text := by
  have hsplit : text = text.takeWhile q ++ stripOf q text ++ (text.dropWhile q).rtakeWhile q := by
    rw [stripOf, List.append_assoc, List.rdropWhile_append_rtakeWhile,
      List.takeWhile_append_dropWhile]
  conv_rhs => rw [hsplit]
  exact (stripOf_append (fun c hc => hpq c (List.mem_takeWhile_imp hc))
    (fun c hc => hpq c (List.mem_rtakeWhile_imp hc)) _).symm

/-- Quotes around an expression are gone before its text is rewritten. -/
theorem spelled_quoted {q : Char} (hq : wraps q = true) (raw : Text) :
    spelled (q :: raw ++ [q]) = spelled raw := by
  have hone : ∀ c ∈ [q], wraps c = true := fun c hc => by rwa [List.mem_singleton.mp hc]
  have hstrip : stripQuotes (stripOf isSpace (q :: raw ++ [q])) =
      stripQuotes (stripOf isSpace raw) := by
    unfold stripQuotes
    rw [stripOf_stripOf wraps_of_isSpace, stripOf_stripOf wraps_of_isSpace]
    exact stripOf_append hone hone raw
  unfold spelled beforeQuery
  rw [hstrip]

theorem isExternal_quoted {q : Char} (hspace : isSpace q = false) (hfold : foldCase q ≠ 'h')
    (raw : Text) : isExternal (stripOf isSpace (q :: raw ++ [q])) = false := by
  have hstrip : stripOf isSpace (q :: raw ++ [q]) = q :: raw ++ [q] := by
    refine stripOf_eq_self_iff.mpr ⟨fun c hc => ?_, fun c hc => ?_⟩
    · rw [List.cons_append, List.head?_cons, Option.some.injEq] at hc
      rw [← hc, hspace]
    · rw [List.getLast?_concat, Option.some.injEq] at hc
      rw [← hc, hspace]
  have hhead : ('h' == foldCase q) = false := beq_false_of_ne (Ne.symm hfold)
  have hhttp : "http://".toList = 'h' :: "ttp://".toList := by decide
  have hhttps : "https://".toList = 'h' :: "ttps://".toList := by decide
  rw [hstrip, isExternal, List.cons_append, List.map_cons, hhttp, hhttps]
  rw [List.isPrefixOf, List.isPrefixOf, hhead, Bool.false_and, Bool.false_and]
  rfl

/-! ## Absolute URLs -/

/-- A character that begins no pattern and is not stripped. -/
def Inert (c : Char) : Prop := c ∉ ['$', '?', '{', '+', '/'] ∧ wraps c = false

instance (c : Char) : Decidable (Inert c) := inferInstanceAs (Decidable (_ ∧ _))

theorem foldCase_cases (c : Char) :
    c = 'ſ' ∨ (c.toNat < 128 ∧ c.isUpper = true) ∨ foldCase c = c := by
  by_cases hlong : c = 'ſ'
  · exact Or.inl hlong
  · cases hupper : c.isUpper with
    | true => exact Or.inr (Or.inl ⟨toNat_of_isAlphanum (isAlphanum_of_isUpper hupper), rfl⟩)
    | false =>
      refine Or.inr (Or.inr ?_)
      rw [foldCase, if_neg hlong]
      unfold Char.toLower
      rw [dif_neg]
      intro hbounds
      delta Char.isUpper at hupper
      rw [decide_eq_true hbounds] at hupper
      cases hupper

theorem inert_of_foldCase {c : Char} (h : Inert (foldCase c)) : Inert c := by
  rcases foldCase_cases c with rfl | ⟨hascii, hupper⟩ | hself
  · decide
  · exact ascii_induction (p := fun c => c.isUpper = true → Inert c) (by decide) hascii hupper
  · rwa [hself] at h

theorem eq_colon_of_foldCase {c : Char} (h : foldCase c = ':') : c = ':' := by
  rcases foldCase_cases c with rfl | ⟨hascii, hupper⟩ | hself
  · exact absurd h (by decide)
  · exact absurd h (ascii_induction (p := fun c => c.isUpper = true → foldCase c ≠ ':') (by decide)
      hascii hupper)
  · rwa [hself] at h

theorem exists_scheme {text : Text} (h : isExternal text = true) :
    ∃ scheme rest, text = scheme ++ ':' :: rest ∧ ∀ c ∈ scheme, Inert c := by
  have hsplit : ∀ scheme tail : Text, (∀ d ∈ scheme, Inert d) →
      (scheme ++ ':' :: tail).isPrefixOf (text.map foldCase) = true →
        ∃ scheme rest, text = scheme ++ ':' :: rest ∧ ∀ c ∈ scheme, Inert c := by
    intro scheme tail hscheme hstart
    obtain ⟨rest, hrest⟩ := List.isPrefixOf_iff_prefix.mp hstart
    rw [List.append_assoc, List.cons_append] at hrest
    obtain ⟨before, after, rfl, rfl, hafter⟩ := List.map_eq_append_iff.mp hrest.symm
    obtain ⟨c, after, rfl, hc, -⟩ := List.map_eq_cons_iff.mp hafter
    rw [eq_colon_of_foldCase hc]
    exact ⟨before, after, rfl, fun c hc =>
      inert_of_foldCase (hscheme _ (List.mem_map_of_mem hc))⟩
  unfold isExternal at h
  rcases Bool.or_eq_true_iff.mp h with hstart | hstart
  · exact hsplit "http".toList "//".toList (forall_mem_of_all (by decide)) hstart
  · exact hsplit "https".toList "//".toList (forall_mem_of_all (by decide)) hstart

/-- A rule that looks for another character first leaves the scheme alone. -/
theorem rewrite_scheme {rule : Rule Char} {c : Char} {scheme : Text}
    (hrule : ∀ d text, d ≠ c → rule (d :: text) = none) (hc : ¬ Inert c)
    (hscheme : ∀ d ∈ scheme, Inert d) (rest : Text) :
    rewrite rule (scheme ++ ':' :: rest) = scheme ++ ':' :: rewrite rule rest := by
  have hcolon : ':' ≠ c := fun heq => hc (heq ▸ by decide)
  rw [rewrite_keep _ fun d tail hsuffix => hrule d _ fun heq =>
    hc (heq ▸ hscheme d (hsuffix.subset List.mem_cons_self)), rewrite_cons (hrule _ _ hcolon)]

/-- No variable comes before the colon. -/
theorem rewrite_leadRule_scheme {scheme : Text} (hscheme : ∀ d ∈ scheme, Inert d) (rest : Text) :
    rewrite leadRule (scheme ++ ':' :: rest) = scheme ++ ':' :: rewrite leadRule rest := by
  rw [rewrite_keep _ fun d tail hsuffix => ?_, rewrite_cons rfl]
  have hinert : ∀ c ∈ d :: tail, Inert c := fun c hc => hscheme c (hsuffix.subset hc)
  have hplus : afterPlus ((d :: (tail ++ ':' :: rest)).dropWhile nameRest) = none := by
    rw [← List.cons_append, dropWhile_append_cons (by decide), afterPlus_eq]
    cases hname : (d :: tail).dropWhile nameRest with
    | nil => rfl
    | cons c before =>
      obtain ⟨hc, hwraps⟩ := hinert c ((List.dropWhile_suffix nameRest).subset
        (hname ▸ List.mem_cons_self))
      have hspace := eq_false_of_le wraps_of_isSpace hwraps
      rw [List.cons_append, List.dropWhile_cons_of_neg (by simp [hspace]), List.head?_cons, if_neg]
      rintro ⟨⟩
      exact hc (by decide)
  rw [← Option.isNone_iff_eq_none, ← Option.not_isSome, isSome_leadRule, hplus]
  simp

theorem stripOf_scheme {p : Char → Bool} (hp : ∀ c, p c = true → wraps c = true) {scheme : Text}
    (hscheme : ∀ d ∈ scheme, Inert d) (rest : Text) :
    stripOf p (scheme ++ ':' :: rest) = scheme ++ ':' :: rest.rdropWhile p := by
  have hnone : ∀ c, Inert c → p c = false := fun c hc => eq_false_of_le hp hc.2
  have hfirst : scheme.dropWhile p = scheme := by
    cases scheme with
    | nil => rfl
    | cons c scheme =>
      exact List.dropWhile_cons_of_neg (by simp [hnone c (hscheme c List.mem_cons_self)])
  have hcolon : p ':' = false := hnone ':' (by decide)
  rw [stripOf, dropWhile_append_cons hcolon, hfirst, rdropWhile_append_cons hcolon]

/-- The scheme of an absolute URL is still there when the slashes are put in order. -/
theorem spelled_external {raw : Text} (h : isExternal (stripOf isSpace raw) = true) :
    ':' ∈ spelled raw := by
  obtain ⟨scheme, rest, htext, hscheme⟩ := exists_scheme h
  have htemplate : ∀ d text, d ≠ '$' → templateRule (d :: text) = none := by
    intro d text hd
    unfold templateRule
    split
    · next heq => exact absurd (List.cons.inj heq).1 hd
    · rfl
  have hconcat : ∀ d text, d ≠ '"' → concatRule (d :: text) = none := by
    intro d text hd
    unfold concatRule
    split
    · next heq => exact absurd (List.cons.inj heq).1 hd
    · rfl
  have hquery : ∀ d text, d ≠ '?' → queryRule (d :: text) = none := fun d text hd => by
    rw [queryRule_cons, if_neg fun happly => hd happly.1]
  have hcurly : ∀ d text, d ≠ '{' → curlyRule (d :: text) = none := by
    intro d text hd
    unfold curlyRule
    split
    · next heq => exact absurd (List.cons.inj heq).1 hd
    · rfl
  unfold spelled beforeQuery stripQuotes
  rw [htext, stripOf_scheme (fun _ h => h) hscheme, stripOf_scheme wraps_of_tick hscheme,
    stripOf_scheme wraps_of_isSpace hscheme, rewrite_scheme htemplate (by decide) hscheme,
    rewrite_scheme hconcat (by decide) hscheme, rewrite_leadRule_scheme hscheme,
    rewrite_scheme hquery (by decide) hscheme, rewrite_scheme hcurly (by decide) hscheme]
  exact List.mem_append_right _ List.mem_cons_self

/-! ## Lawful expressions -/

theorem SlashBlind.not_found {rule : Rule Char} (h : SlashBlind rule) (hnil : rule [] = none)
    {u : Text} (hu : u.filter (· != '/') = []) : found rule u = false := by
  have hdrop : u.rdropWhile (· == '/') = [] := List.rdropWhile_eq_nil_iff.mpr fun c hc => by
    simpa using List.filter_eq_nil_iff.mp hu c hc
  rw [← h.found_rdropWhile, hdrop, Bool.eq_false_iff, Ne, found_iff]
  rintro ⟨tail, hsuffix, happly⟩
  rw [List.suffix_nil.mp hsuffix, hnil] at happly
  cases happly

end CortexHarness.Api
