import CortexHarness.Library.Python
import Mathlib.Data.List.DropRight

/-!
# URLs

`urlsplit`, `urlunsplit` and the parts of an authority, as `urllib.parse` computes them on texts.
What it takes from the Unicode tables and from `ipaddress` is a parameter: `lower`, and which
authorities pass its two checks (bracketed hosts, and characters that NFKC turns into delimiters).

Result: `urlsplit_authority`: a text with a scheme and an authority is read back part by part.
-/

namespace CortexHarness.Url

abbrev Text := List Char

/-! ## Texts -/

section Texts

variable (c : Char) (t : Text)

/-- `t.partition(c)[0]` -/
def before : Text := t.takeWhile (· != c)

/-- `t.partition(c)[2]` -/
def after : Text := (t.dropWhile (· != c)).drop 1

/-- `t.rpartition(c)[0]` -/
def rbefore : Text := ((t.reverse.dropWhile (· != c)).drop 1).reverse

/-- `t.rpartition(c)[2]` -/
def rafter : Text := (t.reverse.takeWhile (· != c)).reverse

end Texts

/-- What ends an authority. -/
def isDelimiter (c : Char) : Bool := c == '/' || c == '?' || c == '#'

/-- `_UNSAFE_URL_BYTES_TO_REMOVE` -/
def isUnsafe (c : Char) : Bool := c == '\t' || c == '\r' || c == '\n'

/-- `_WHATWG_C0_CONTROL_OR_SPACE` -/
def isControlOrSpace (c : Char) : Bool := c.toNat ≤ 32

/-- `scheme_chars` -/
def isSchemeChar (c : Char) : Bool := c.isAlphanum || c == '+' || c == '-' || c == '.'

/-- A scheme as `urlsplit` accepts it. -/
def isScheme : Text → Bool
  | [] => false
  | c :: cs => c.isAlpha && cs.all isSchemeChar

/-! ## Splitting -/

/-- What `urllib.parse` takes from elsewhere. -/
structure Rules where
  /-- `str.lower` -/
  lower : Text → Text
  /-- an authority with balanced brackets passes `_check_bracketed_netloc` and `_checknetloc` -/
  accepts : Text → Bool
  accepts_plain : ∀ n : Text, (∀ c ∈ n, c.toNat < 128 ∧ c ≠ '[' ∧ c ≠ ']') → accepts n = true

structure SplitResult where
  scheme : Text
  netloc : Text
  path : Text
  query : Text
  fragment : Text
  deriving DecidableEq

/-- The scheme of a text, and what comes after the colon. -/
def schemeOf (url : Text) : Option (Text × Text) :=
  if ':' ∈ url ∧ isScheme (before ':' url) then some (before ':' url, after ':' url) else none

/-- `_splitnetloc`, where there is an authority. -/
def splitNetloc (url : Text) : Text × Text :=
  if ['/', '/'].isPrefixOf url then
    ((url.drop 2).takeWhile fun c => !isDelimiter c, (url.drop 2).dropWhile fun c => !isDelimiter c)
  else ([], url)

/-- The brackets of an authority. -/
def balanced (netloc : Text) : Bool := netloc.contains '[' == netloc.contains ']'

variable (R : Rules)

/-- The authority passes the checks of `urlsplit`. -/
def valid (netloc : Text) : Bool := balanced netloc && R.accepts netloc

/-- `url.lstrip(_WHATWG_C0_CONTROL_OR_SPACE)`, without the unsafe characters. -/
def clean (url : Text) : Text := (url.dropWhile isControlOrSpace).filter fun c => !isUnsafe c

/-- `urlsplit`, `none` where it raises. -/
def urlsplit (url : Text) : Option SplitResult :=
  let url := clean url
  let (scheme, rest) := match schemeOf url with
    | some (s, rest) => (R.lower s, rest)
    | none => ([], url)
  let (netloc, rest) := splitNetloc rest
  if valid R netloc then
    some ⟨scheme, netloc, before '?' (before '#' rest), after '?' (before '#' rest),
      after '#' rest⟩
  else none

/-- `_hostinfo`: the host and the text of the port. -/
def hostinfo (netloc : Text) : Text × Text :=
  let info := rafter '@' netloc
  if '[' ∈ info then
    (before ']' (after '[' info), after ':' (after ']' (after '[' info)))
  else (before ':' info, after ':' info)

/-- `hostname`, empty for `None`: the zone of an address keeps its case. -/
def hostname (netloc : Text) : Text :=
  let host := (hostinfo netloc).1
  if host = [] then [] else R.lower (before '%' host) ++ host.dropWhile (· != '%')

/-- `port`, `none` where it raises. -/
def port (netloc : Text) : Option (Option Nat) :=
  let text := (hostinfo netloc).2
  if text = [] then some none
  else if text.all Char.isDigit && Nat.ofDigitChars 10 text 0 ≤ 65535 then
    some (some (Nat.ofDigitChars 10 text 0))
  else none

/-- `username` -/
def username (netloc : Text) : Option Text :=
  if '@' ∈ netloc then some (before ':' (rbefore '@' netloc)) else none

/-- `uses_netloc` -/
def usesNetloc : List Text :=
  ["ftp", "http", "gopher", "nntp", "telnet", "imap", "wais", "file", "mms", "https", "shttp",
    "snews", "prospero", "rtsp", "rtsps", "rtspu", "rsync", "svn", "svn+ssh", "sftp", "nfs", "git",
    "git+ssh", "ws", "wss"].map String.toList

/-- `urlunsplit((scheme, netloc, url, "", ""))` -/
def urlunsplit (scheme netloc url : Text) : Text :=
  let url :=
    if netloc ≠ [] then
      ['/', '/'] ++ netloc ++ (if url ≠ [] ∧ url.head? ≠ some '/' then '/' :: url else url)
    else if ['/', '/'].isPrefixOf url then ['/', '/'] ++ url
    else if usesNetloc.contains scheme && (url = [] || url.head? == some '/') then
      ['/', '/'] ++ url
    else url
  if scheme ≠ [] then scheme ++ ':' :: url else url

/-! ## Cutting texts -/

section Cutting

variable {c x : Char} {t a b : Text}

theorem bne_of_notMem (h : c ∉ t) : ∀ y ∈ t, (y != c) = true :=
  fun _ hy => bne_iff_ne.mpr fun he => h (he ▸ hy)

theorem before_append (h : c ∉ a) : before c (a ++ c :: b) = a := by
  unfold before
  rw [List.takeWhile_append_of_pos (bne_of_notMem h)]
  simp

theorem after_append (h : c ∉ a) : after c (a ++ c :: b) = b := by
  unfold after
  rw [List.dropWhile_append_of_pos (bne_of_notMem h)]
  simp

theorem rafter_of_notMem (h : c ∉ t) : rafter c t = t := by
  unfold rafter
  rw [List.takeWhile_eq_self_iff.mpr
    (bne_of_notMem fun hmem => h (List.mem_reverse.mp hmem))]
  exact List.reverse_reverse t

theorem rafter_append (h : c ∉ b) : rafter c (a ++ c :: b) = b := by
  unfold rafter
  rw [List.reverse_append, List.reverse_cons, List.append_assoc,
    List.takeWhile_append_of_pos (bne_of_notMem fun hmem => h (List.mem_reverse.mp hmem))]
  simp

theorem rbefore_append (h : c ∉ b) : rbefore c (a ++ c :: b) = a := by
  unfold rbefore
  rw [List.reverse_append, List.reverse_cons, List.append_assoc,
    List.dropWhile_append_of_pos (bne_of_notMem fun hmem => h (List.mem_reverse.mp hmem))]
  simp

/-- A text with the character, cut where it stands last. -/
theorem exists_last (h : c ∈ t) : ∃ a b, t = a ++ c :: b ∧ c ∉ b := by
  obtain ⟨l, r, heq, hl⟩ := List.eq_append_cons_of_mem (List.mem_reverse.mpr h)
  refine ⟨r.reverse, l.reverse, ?_, fun hmem => hl (List.mem_reverse.mp hmem)⟩
  rw [← List.reverse_reverse t, heq]
  simp

theorem rafter_append_cons : rafter c (a ++ c :: t) = rafter c t := by
  by_cases h : c ∈ t
  · obtain ⟨l, r, rfl, hr⟩ := exists_last h
    rw [rafter_append hr, show a ++ c :: (l ++ c :: r) = (a ++ c :: l) ++ c :: r by simp,
      rafter_append hr]
  · rw [rafter_append h, rafter_of_notMem h]

theorem rbefore_append_cons : ∃ tail, rbefore c (a ++ c :: t) = a ++ tail := by
  by_cases h : c ∈ t
  · obtain ⟨l, r, rfl, hr⟩ := exists_last h
    refine ⟨c :: l, ?_⟩
    rw [show a ++ c :: (l ++ c :: r) = (a ++ c :: l) ++ c :: r by simp, rbefore_append hr]
  · exact ⟨[], by rw [rbefore_append h, List.append_nil]⟩

theorem dropWhile_append_cons {p : Char → Bool} (hc : p c = false) :
    (a ++ c :: b).dropWhile p = a.dropWhile p ++ c :: b := by
  induction a with
  | nil => exact List.dropWhile_cons_of_neg (by simp [hc])
  | cons d ds ih =>
    by_cases hd : p d = true
    · rw [List.cons_append, List.dropWhile_cons_of_pos hd, List.dropWhile_cons_of_pos hd, ih]
    · rw [List.cons_append, List.dropWhile_cons_of_neg hd, List.dropWhile_cons_of_neg hd]
      rfl

theorem rdropWhile_append_cons {p : Char → Bool} (hc : p c = false) :
    (a ++ c :: b).rdropWhile p = a ++ c :: b.rdropWhile p := by
  induction b using List.reverseRecOn with
  | nil => simp [hc, List.rdropWhile_nil]
  | append_singleton b d ih =>
    rw [show a ++ c :: (b ++ [d]) = (a ++ c :: b) ++ [d] by simp, List.rdropWhile_concat,
      List.rdropWhile_concat]
    cases p d
    · simp
    · simpa using ih

end Cutting

/-! ## Schemes -/

theorem isSchemeChar_of_mem {s : Text} (h : isScheme s = true) {c : Char} (hc : c ∈ s) :
    isSchemeChar c = true := by
  cases s with
  | nil => cases hc
  | cons d ds =>
    simp only [isScheme, Bool.and_eq_true, List.all_eq_true] at h
    rcases List.mem_cons.mp hc with rfl | hc
    · simp [isSchemeChar, Char.isAlphanum, h.1]
    · exact h.2 c hc

theorem notMem_scheme {s : Text} (h : isScheme s = true) {c : Char} (hc : isSchemeChar c = false) :
    c ∉ s := fun hmem => by
  rw [isSchemeChar_of_mem h hmem] at hc
  cases hc

theorem schemeOf_append {s rest : Text} (h : isScheme s = true) :
    schemeOf (s ++ ':' :: rest) = some (s, rest) := by
  have hcolon : ':' ∉ s := notMem_scheme h (by decide)
  simp [schemeOf, before_append hcolon, after_append hcolon, h]

/-! ## Reading a text back -/

theorem splitNetloc_authority {n tail : Text} (hn : ∀ c ∈ n, isDelimiter c = false)
    (htail : tail.head?.all isDelimiter = true) :
    splitNetloc ('/' :: '/' :: (n ++ tail)) = (n, tail) := by
  have hpos : ∀ c ∈ n, (!isDelimiter c) = true := fun c hc => by simp [hn c hc]
  have hstart : ['/', '/'].isPrefixOf ('/' :: '/' :: (n ++ tail)) = true := by simp
  rw [splitNetloc, if_pos hstart]
  simp only [List.drop_succ_cons, List.drop_zero]
  rw [List.takeWhile_append_of_pos hpos, List.dropWhile_append_of_pos hpos]
  cases tail with
  | nil => simp
  | cons d ds =>
    have hd : isDelimiter d = true := by simpa using htail
    simp [hd]

variable {R}

/-- **A text with an authority is split where it was put together.** -/
theorem urlsplit_authority {url s n tail : Text}
    (hclean : clean url = s ++ ':' :: '/' :: '/' :: (n ++ tail)) (hs : isScheme s = true)
    (hn : ∀ c ∈ n, isDelimiter c = false) (htail : tail.head?.all isDelimiter = true) :
    urlsplit R url = if valid R n then
        some ⟨R.lower s, n, before '?' (before '#' tail), after '?' (before '#' tail),
          after '#' tail⟩
      else none := by
  unfold urlsplit
  rw [hclean]
  dsimp only
  rw [schemeOf_append hs]
  dsimp only
  rw [splitNetloc_authority hn htail]

end CortexHarness.Url
