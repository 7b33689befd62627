import CortexHarness.Library.PosixPath
import CortexHarness.Library.Fallible

/-!
# The allowlist of compile arguments

Model of `_contained_path`, `_resolve_root_path` and `sanitize_compile_arguments`
(`cplus/parse_recovery.py:43-75, 104-195`): the vector of a compile command, read from the left. A
flag is dropped, kept, kept with its value, or refused; the operand of a path flag is replaced by
what it resolves to.

`Group` is the grammar of what may come out: one allowlisted flag, or a flag with its value.

Results:
* `sanitizeFrom_groups` and `sanitizeFrom_group`: the loop writes groups, and reads a group back
  unchanged;
* `sanitized_allowed`: what is not refused is a row of groups whose paths lie in the root, and is its
  own result.
-/

namespace CortexHarness.Cplus

open PosixPath Fallible

abbrev Token := List Char

/-! ## Flags -/

/-- `_REJECTED_PREFIXES` -/
def rejectedPrefixes : List Token :=
  ["@".toList, "-fplugin".toList, "-fmodule-file".toList, "-fmodules-cache-path".toList,
    "-include-pch".toList, "-load".toList, "-serialize-diagnostics".toList, "-save-temps".toList]

/-- `_REJECTED_WITH_VALUE` -/
def rejectedWithValue : List Token :=
  ["-o".toList, "-MF".toList, "-MT".toList, "-MQ".toList, "-MJ".toList, "-Xclang".toList,
    "-include-pch".toList, "-fmodule-file".toList, "-fmodules-cache-path".toList]

/-- `_PATH_FLAGS` -/
def pathFlags : List Token :=
  ["-I".toList, "-isystem".toList, "-iquote".toList, "-include".toList]

/-- The path flags that may have their value attached, in the order they are tried. -/
def attachedPathFlags : List Token := ["-isystem".toList, "-iquote".toList, "-I".toList]

/-- `_SAFE_EXACT_FLAGS` -/
def safeExactFlags : List Token :=
  ["-nostdinc".toList, "-nostdinc++".toList, "-fms-extensions".toList,
    "-fms-compatibility".toList, "-fshort-wchar".toList]

/-- The flags whose separate value is kept. -/
def valueFlags : List Token := ["-D".toList, "-U".toList, "-std".toList]

/-- What a token starts with that has its value attached. -/
def attachedFlags : List Token := ["-D".toList, "-U".toList, "-std=".toList]

def languages : List Token :=
  ["c".toList, "c++".toList, "c-header".toList, "c++-header".toList]

/-! ## Paths -/

variable (fs : FileSystem)

/-- `_contained_path` -/
def containedPath (root path : Path) : Except String Path :=
  match fs.resolve root, fs.resolve path with
  | some rootReal, some pathReal =>
    if commonpath rootReal pathReal = some rootReal then .ok pathReal
    else .error "path escapes repository root"
  | _, _ => .error "embedded null byte"

/-- `_resolve_root_path` -/
def resolveRootPath (root baseDir value : Path) : Except String Path :=
  containedPath fs root (if isAbs value then value else join baseDir value)

/-- `attached_path_flag` -/
def attachedPathFlag (token : Token) : Option Token :=
  attachedPathFlags.find? fun flag => flag.isPrefixOf token && token != flag

/-- `os.path.realpath(os.path.abspath(token_candidate))` -/
def candidateOf (directory : Path) (token : Token) : Option Path :=
  fs.resolve (if isAbs token then token else join directory token)

/-! ## The loop -/

variable (rootReal directory sourceReal : Path)

local instance token_lawful : LawfulBEq Token := inferInstance

/-- An exception with the token it is about. -/
def refused (message : String) (token : Token) : Except String (List Token) :=
  .error (message ++ String.ofList token)

/-- The loop of `sanitize_compile_arguments`. -/
def sanitizeFrom : List Token → Except String (List Token)
  | [] => .ok []
  | token :: rest =>
    if rejectedPrefixes.any (·.isPrefixOf token) then refused "unsafe compile flag rejected: " token
    else if token ∈ rejectedWithValue then refused "unsafe compile flag rejected: " token
    else if token = "-c".toList ∨ token = "--compile".toList then sanitizeFrom rest
    else if token = "-x".toList then
      match rest with
      | [] => .error "missing -x language value"
      | language :: rest =>
        if language ∉ languages then refused "unsupported language mode: " language
        else (sanitizeFrom rest).map ([token, language] ++ ·)
    else if token ∈ valueFlags then
      match rest with
      | [] => refused "missing value for " token
      | value :: rest =>
        if value = [] ∨ value.head? = some '-' then refused "invalid value for " token
        else (sanitizeFrom rest).map ([token, value] ++ ·)
    else if token ∈ pathFlags then
      match rest with
      | [] => refused "missing path for " token
      | value :: rest =>
        (resolveRootPath fs rootReal directory value).bind fun resolved =>
          (sanitizeFrom rest).map ([token, resolved] ++ ·)
    else
      match attachedPathFlag token with
      | some flag =>
        (resolveRootPath fs rootReal directory (token.drop flag.length)).bind fun resolved =>
          (sanitizeFrom rest).map ([flag ++ resolved] ++ ·)
      | none =>
        if attachedFlags.any (·.isPrefixOf token) ∨ token ∈ safeExactFlags then
          (sanitizeFrom rest).map ([token] ++ ·)
        else
          match candidateOf fs directory token with
          | none => .error "embedded null byte"
          | some candidate =>
            if candidate = sourceReal then sanitizeFrom rest
            else if token.head? = some '-' then refused "compile flag is not allowlisted: " token
            else refused "unexpected compile command token: " token

/-- `sanitize_compile_arguments`; the first argument is dropped when it is no flag. -/
def sanitizeCompileArguments (root sourcePath : Path) (arguments : List Token) :
    Except String (List Token) :=
  match fs.resolve root with
  | none => .error "embedded null byte"
  | some rootReal =>
    (containedPath fs rootReal sourcePath).bind fun sourceReal =>
      match arguments with
      | [] => .ok []
      | token :: rest =>
        sanitizeFrom fs rootReal directory sourceReal
          (if token.head? = some '-' then token :: rest else rest)

/-! ## The grammar -/

/-- The path leads to itself, and lies in the root. -/
def Inside (path : Path) : Prop :=
  fs.realpath path = some path ∧ isAbs path = true ∧ components rootReal <+: components path

/-- An allowlisted flag, or a flag and its value. -/
inductive Group : List Token → Prop
  | language {value : Token} (h : value ∈ languages) : Group ["-x".toList, value]
  | value {flag value : Token} (hflag : flag ∈ valueFlags) (hempty : value ≠ [])
      (hflagless : value.head? ≠ some '-') : Group [flag, value]
  | path {flag : Token} {operand : Path} (hflag : flag ∈ pathFlags)
      (hinside : Inside fs rootReal operand) : Group [flag, operand]
  | attachedPath {flag : Token} {operand : Path} (hflag : flag ∈ attachedPathFlags)
      (hinside : Inside fs rootReal operand) : Group [flag ++ operand]
  | attached {flag value : Token} (hflag : flag ∈ attachedFlags)
      (hvalue : flag ++ value ∉ valueFlags) : Group [flag ++ value]
  | exact {flag : Token} (hflag : flag ∈ safeExactFlags) : Group [flag]

section Grammar

variable {fs rootReal directory sourceReal} {root path : Path} {tokens safe : List Token}

theorem map_ok {ε α β : Type} {f : α → β} {x : Except ε α} {b : β} (h : x.map f = .ok b) :
    ∃ a, x = .ok a ∧ b = f a := by
  cases x with
  | error e => cases h
  | ok a =>
    cases h
    exact ⟨a, rfl, rfl⟩

theorem inside_of_contained (hroot : fs.resolve root = some root) {real : Path}
    (h : containedPath fs root path = .ok real) : Inside fs root real := by
  unfold containedPath at h
  rw [hroot] at h
  cases hreal : fs.resolve path with
  | none =>
    rw [hreal] at h
    cases h
  | some r =>
    rw [hreal] at h
    dsimp only at h
    split at h
    · next hcommon =>
      cases h
      exact ⟨fs.idempotent hreal, fs.absolute hreal,
        components_below (fs.absolute_resolve hroot) hcommon⟩
    · cases h

/-- What one step of the loop does where it goes on: it drops tokens, or writes a group. -/
theorem sanitizeFrom_cons (hroot : fs.resolve rootReal = some rootReal) {token : Token}
    {rest : List Token}
    (h : sanitizeFrom fs rootReal directory sourceReal (token :: rest) = .ok safe) :
    ∃ rest' written safe', rest' <:+ rest ∧
      sanitizeFrom fs rootReal directory sourceReal rest' = .ok safe' ∧
      safe = written ++ safe' ∧ (written = [] ∨ Group fs rootReal written) := by
  unfold sanitizeFrom at h
  by_cases hpre : (rejectedPrefixes.any fun p => p.isPrefixOf token) = true
  · rw [if_pos hpre] at h
    cases h
  rw [if_neg hpre] at h
  by_cases hrejected : token ∈ rejectedWithValue
  · rw [if_pos hrejected] at h
    cases h
  rw [if_neg hrejected] at h
  by_cases hdropped : token = "-c".toList ∨ token = "--compile".toList
  · rw [if_pos hdropped] at h
    exact ⟨rest, [], safe, List.suffix_rfl, h, rfl, .inl rfl⟩
  rw [if_neg hdropped] at h
  by_cases hlanguage : token = "-x".toList
  · rw [if_pos hlanguage] at h
    cases rest with
    | nil => cases h
    | cons language rest =>
      dsimp only at h
      split at h
      · cases h
      · next hknown =>
        obtain ⟨safe', hrest, rfl⟩ := map_ok h
        refine ⟨rest, _, safe', List.suffix_cons .., hrest, rfl, .inr ?_⟩
        rw [hlanguage]
        exact .language (not_not.mp hknown)
  rw [if_neg hlanguage] at h
  by_cases hvalued : token ∈ valueFlags
  · rw [if_pos hvalued] at h
    cases rest with
    | nil => cases h
    | cons value rest =>
      dsimp only at h
      split at h
      · cases h
      · next hfilled =>
        obtain ⟨safe', hrest, rfl⟩ := map_ok h
        obtain ⟨hempty, hflagless⟩ := not_or.mp hfilled
        exact ⟨rest, _, safe', List.suffix_cons .., hrest, rfl,
          .inr (.value hvalued hempty hflagless)⟩
  rw [if_neg hvalued] at h
  by_cases hpath : token ∈ pathFlags
  · rw [if_pos hpath] at h
    cases rest with
    | nil => cases h
    | cons value rest =>
      obtain ⟨resolved, hresolved, h⟩ := bind_ok.mp h
      obtain ⟨safe', hrest, rfl⟩ := map_ok h
      exact ⟨rest, _, safe', List.suffix_cons .., hrest, rfl,
        .inr (.path hpath (inside_of_contained hroot hresolved))⟩
  rw [if_neg hpath] at h
  cases hflag : attachedPathFlag token with
  | some flag =>
    rw [hflag] at h
    obtain ⟨resolved, hresolved, h⟩ := bind_ok.mp h
    obtain ⟨safe', hrest, rfl⟩ := map_ok h
    exact ⟨rest, _, safe', List.suffix_rfl, hrest, rfl,
      .inr (.attachedPath (List.mem_of_find?_eq_some hflag)
        (inside_of_contained hroot hresolved))⟩
  | none =>
    rw [hflag] at h
    dsimp only at h
    by_cases hkept : attachedFlags.any (·.isPrefixOf token) ∨ token ∈ safeExactFlags
    · rw [if_pos hkept] at h
      obtain ⟨safe', hrest, rfl⟩ := map_ok h
      refine ⟨rest, _, safe', List.suffix_rfl, hrest, rfl, .inr ?_⟩
      rcases hkept with hattached | hexact
      · obtain ⟨flag, hmem, hstart⟩ := List.any_eq_true.mp hattached
        obtain ⟨value, rfl⟩ := List.isPrefixOf_iff_prefix.mp hstart
        exact .attached hmem hvalued
      · exact .exact hexact
    -- What is left names the source file, or is refused.
    · rw [if_neg hkept] at h
      cases hcandidate : candidateOf fs directory token with
      | none =>
        rw [hcandidate] at h
        cases h
      | some candidate =>
        rw [hcandidate] at h
        dsimp only at h
        split_ifs at h
        · exact ⟨rest, [], safe, List.suffix_rfl, h, rfl, .inl rfl⟩
        · cases h
        · cases h

/-- A row of groups. -/
def Allowed (fs : FileSystem) (rootReal : Path) (safe : List Token) : Prop :=
  ∃ groups : List (List Token), safe = groups.flatten ∧ ∀ g ∈ groups, Group fs rootReal g

theorem Allowed.nil : Allowed fs rootReal [] := ⟨[], rfl, fun _ h => absurd h List.not_mem_nil⟩

theorem Allowed.cons {g : List Token} (hg : Group fs rootReal g) (h : Allowed fs rootReal safe) :
    Allowed fs rootReal (g ++ safe) := by
  obtain ⟨groups, rfl, hgroups⟩ := h
  exact ⟨g :: groups, rfl, List.forall_mem_cons.mpr ⟨hg, hgroups⟩⟩

/-- **The loop writes groups.** -/
theorem sanitizeFrom_groups (hroot : fs.resolve rootReal = some rootReal)
    (h : sanitizeFrom fs rootReal directory sourceReal tokens = .ok safe) :
    Allowed fs rootReal safe := by
  induction hn : tokens.length using Nat.strong_induction_on generalizing tokens safe with
  | _ n ih =>
    cases tokens with
    | nil =>
      cases h
      exact .nil
    | cons token rest =>
      obtain ⟨rest', written, safe', hsuffix, hrest, rfl, hwritten⟩ := sanitizeFrom_cons hroot h
      have hshorter : rest'.length < n := by
        rw [← hn]
        exact Nat.lt_succ_of_le hsuffix.length_le
      have hallowed := ih _ hshorter hrest rfl
      rcases hwritten with rfl | hgroup
      · exact hallowed
      · exact hallowed.cons hgroup

/-! ## Reading a group back -/

/-- A flag with something attached starts with nothing that the flag does not. -/
theorem not_prefix_append {p flag value : Token} (hp : p.isPrefixOf flag = false)
    (hflag : flag.isPrefixOf p = false) : p.isPrefixOf (flag ++ value) = false := by
  rw [Bool.eq_false_iff] at *
  intro h
  rcases List.prefix_or_prefix_of_prefix (List.isPrefixOf_iff_prefix.mp h)
    (List.prefix_append flag value) with h | h
  · exact hp (List.isPrefixOf_iff_prefix.mpr h)
  · exact hflag (List.isPrefixOf_iff_prefix.mpr h)

theorem append_ne {flag value other : Token} (h : flag.isPrefixOf other = false) :
    flag ++ value ≠ other := by
  rintro rfl
  rw [List.isPrefixOf_iff_prefix.mpr (List.prefix_append flag value)] at h
  cases h

theorem append_not_mem {flag value : Token} {others : List Token}
    (h : ∀ other ∈ others, flag.isPrefixOf other = false) : flag ++ value ∉ others :=
  fun hmem => append_ne (h _ hmem) rfl

/-- The flags that what has a value attached is not mistaken for. -/
structure Clear (token : Token) : Prop where
  prefixes : ¬ (rejectedPrefixes.any fun p => p.isPrefixOf token) = true
  rejected : token ∉ rejectedWithValue
  dropped : ¬ (token = "-c".toList ∨ token = "--compile".toList)

theorem Clear.append {flag value : Token}
    (hpre : ∀ p ∈ rejectedPrefixes, p.isPrefixOf flag = false ∧ flag.isPrefixOf p = false)
    (hother : ∀ other ∈ "-c".toList :: "--compile".toList :: rejectedWithValue,
      flag.isPrefixOf other = false) : Clear (flag ++ value) where
  prefixes := by
    rw [List.any_eq_true]
    rintro ⟨p, hp, hstart⟩
    rw [not_prefix_append (hpre p hp).1 (hpre p hp).2] at hstart
    cases hstart
  rejected := append_not_mem fun other h =>
    hother other (List.mem_cons_of_mem _ (List.mem_cons_of_mem _ h))
  dropped := by
    rintro (h | h)
    · exact append_ne (hother _ List.mem_cons_self) h
    · exact append_ne (hother _ (List.mem_cons_of_mem _ List.mem_cons_self)) h

theorem Clear.of_mem {token : Token} {tokens : List Token} (h : token ∈ tokens)
    (hclear : ∀ token ∈ tokens, ¬ (rejectedPrefixes.any fun p => p.isPrefixOf token) = true ∧
      token ∉ rejectedWithValue ∧ ¬ (token = "-c".toList ∨ token = "--compile".toList)) :
    Clear token :=
  ⟨(hclear token h).1, (hclear token h).2.1, (hclear token h).2.2⟩

/-- The root as the loop knows it. -/
structure Root (fs : FileSystem) (rootReal : Path) : Prop where
  resolved : fs.resolve rootReal = some rootReal
  text : rootReal = '/' :: ['/'].intercalate (components rootReal)

theorem Root.contained (hroot : Root fs rootReal) {operand : Path}
    (h : Inside fs rootReal operand) :
    resolveRootPath fs rootReal directory operand = .ok operand := by
  obtain ⟨hreal, habs, hbelow⟩ := h
  have hresolve : fs.resolve operand = some operand := by
    unfold FileSystem.resolve abspath
    rw [if_pos habs, fs.normal hreal]
    exact hreal
  unfold resolveRootPath containedPath
  rw [if_pos habs, hroot.resolved, hresolve]
  exact if_pos (commonpath_of_below (fs.absolute hroot.resolved) hroot.text habs hbelow)

theorem attachedPathFlag_append {flag operand : Token} (h : flag ∈ attachedPathFlags)
    (hoperand : operand ≠ []) : attachedPathFlag (flag ++ operand) = some flag := by
  have hsome : (attachedPathFlag (flag ++ operand)).isSome := by
    unfold attachedPathFlag
    rw [List.find?_isSome]
    refine ⟨flag, h, ?_⟩
    simp [hoperand]
  obtain ⟨found, hfound⟩ := Option.isSome_iff_exists.mp hsome
  have hstart := List.find?_some hfound
  rw [Bool.and_eq_true] at hstart
  -- No other flag of the list starts a token that this one starts.
  have honly : ∀ flag ∈ attachedPathFlags, ∀ other ∈ attachedPathFlags, other ≠ flag →
      other.isPrefixOf flag = false ∧ flag.isPrefixOf other = false := by decide
  by_contra hne
  have hother : found ≠ flag := fun he => hne (he ▸ hfound)
  obtain ⟨hleft, hright⟩ := honly flag h found (List.mem_of_find?_eq_some hfound) hother
  rw [not_prefix_append hleft hright] at hstart
  cases hstart.1

theorem attachedPathFlag_none {token : Token}
    (h : ∀ flag ∈ attachedPathFlags, flag.isPrefixOf token = false) :
    attachedPathFlag token = none := by
  unfold attachedPathFlag
  rw [List.find?_eq_none]
  intro flag hflag
  simp [h flag hflag]

/-- **A group is read back unchanged.** -/
theorem sanitizeFrom_group {g : List Token} (hroot : Root fs rootReal)
    (h : Group fs rootReal g) {rest : List Token} {result : Except String (List Token)}
    (hrest : sanitizeFrom fs rootReal directory sourceReal rest = result) :
    sanitizeFrom fs rootReal directory sourceReal (g ++ rest) = result.map (g ++ ·) := by
  subst hrest
  cases h with
  | language hvalue =>
    have hclear : Clear "-x".toList := ⟨by decide, by decide, by decide⟩
    rw [List.cons_append, List.cons_append, List.nil_append, sanitizeFrom.eq_def]
    dsimp only
    rw [if_neg hclear.prefixes, if_neg hclear.rejected, if_neg hclear.dropped, if_pos rfl,
      if_neg (not_not.mpr hvalue)]
  | value hflag hempty hflagless =>
    have hclear := Clear.of_mem hflag (by decide)
    have hnot : ∀ flag ∈ valueFlags, flag ≠ "-x".toList := by decide
    rw [List.cons_append, List.cons_append, List.nil_append, sanitizeFrom.eq_def]
    dsimp only
    rw [if_neg hclear.prefixes, if_neg hclear.rejected, if_neg hclear.dropped,
      if_neg (hnot _ hflag), if_pos hflag, if_neg (not_or.mpr ⟨hempty, hflagless⟩)]
  | path hflag hinside =>
    have hclear := Clear.of_mem hflag (by decide)
    have hnot : ∀ flag ∈ pathFlags, flag ≠ "-x".toList ∧ flag ∉ valueFlags := by decide
    rw [List.cons_append, List.cons_append, List.nil_append, sanitizeFrom.eq_def]
    dsimp only
    rw [if_neg hclear.prefixes, if_neg hclear.rejected, if_neg hclear.dropped,
      if_neg (hnot _ hflag).1, if_neg (hnot _ hflag).2, if_pos hflag, hroot.contained hinside]
    rfl
  | @attachedPath flag operand hflag hinside =>
    have hoperand : operand ≠ [] := by
      rintro rfl
      exact absurd hinside.2.1 (by decide)
    have hclear : Clear (flag ++ operand) := .append
      ((by decide : ∀ flag ∈ attachedPathFlags, ∀ p ∈ rejectedPrefixes,
        p.isPrefixOf flag = false ∧ flag.isPrefixOf p = false) flag hflag)
      ((by decide : ∀ flag ∈ attachedPathFlags,
        ∀ other ∈ "-c".toList :: "--compile".toList :: rejectedWithValue,
          flag.isPrefixOf other = false) flag hflag)
    have hnot : ∀ flag ∈ attachedPathFlags,
        ∀ other ∈ "-x".toList :: valueFlags, flag.isPrefixOf other = false := by decide
    have hpath : flag ++ operand ∉ pathFlags := by
      intro hmem
      have hself : ∀ flag ∈ attachedPathFlags, ∀ other ∈ pathFlags,
          flag.isPrefixOf other = true → other = flag := by decide
      have he := hself flag hflag _ hmem
        (List.isPrefixOf_iff_prefix.mpr (List.prefix_append flag operand))
      exact hoperand (List.append_right_eq_self.mp he)
    rw [List.singleton_append, sanitizeFrom.eq_def]
    dsimp only
    rw [if_neg hclear.prefixes, if_neg hclear.rejected, if_neg hclear.dropped,
      if_neg (append_ne (hnot _ hflag _ List.mem_cons_self)),
      if_neg (append_not_mem fun other ho => hnot _ hflag _ (List.mem_cons_of_mem _ ho)),
      if_neg hpath, attachedPathFlag_append hflag hoperand]
    dsimp only
    rw [List.drop_left, hroot.contained hinside]
    rfl
  | @attached flag value hflag hvalue =>
    have hclear : Clear (flag ++ value) := .append
      ((by decide : ∀ flag ∈ attachedFlags, ∀ p ∈ rejectedPrefixes,
        p.isPrefixOf flag = false ∧ flag.isPrefixOf p = false) flag hflag)
      ((by decide : ∀ flag ∈ attachedFlags,
        ∀ other ∈ "-c".toList :: "--compile".toList :: rejectedWithValue,
          flag.isPrefixOf other = false) flag hflag)
    have hnot : ∀ flag ∈ attachedFlags, ∀ other ∈ "-x".toList :: pathFlags,
        flag.isPrefixOf other = false := by decide
    have hfree : ∀ flag ∈ attachedFlags, ∀ other ∈ attachedPathFlags,
        other.isPrefixOf flag = false ∧ flag.isPrefixOf other = false := by decide
    have hkept : attachedFlags.any (·.isPrefixOf (flag ++ value)) = true :=
      List.any_eq_true.mpr ⟨flag, hflag,
        List.isPrefixOf_iff_prefix.mpr (List.prefix_append flag value)⟩
    rw [List.singleton_append, sanitizeFrom.eq_def]
    dsimp only
    rw [if_neg hclear.prefixes, if_neg hclear.rejected, if_neg hclear.dropped,
      if_neg (append_ne (hnot _ hflag _ List.mem_cons_self)), if_neg hvalue,
      if_neg (append_not_mem fun other ho => hnot _ hflag _ (List.mem_cons_of_mem _ ho)),
      attachedPathFlag_none fun other ho =>
        not_prefix_append (hfree _ hflag _ ho).1 (hfree _ hflag _ ho).2]
    dsimp only
    rw [if_pos (.inl hkept)]
  | exact hflag =>
    have hclear := Clear.of_mem hflag (by decide)
    have hnot : ∀ flag ∈ safeExactFlags, flag ≠ "-x".toList ∧ flag ∉ valueFlags ∧
        flag ∉ pathFlags ∧ attachedPathFlag flag = none := by decide
    obtain ⟨hlanguage, hvalued, hpath, hattached⟩ := hnot _ hflag
    rw [List.singleton_append, sanitizeFrom.eq_def]
    dsimp only
    rw [if_neg hclear.prefixes, if_neg hclear.rejected, if_neg hclear.dropped,
      if_neg hlanguage, if_neg hvalued, if_neg hpath, hattached]
    dsimp only
    rw [if_pos (.inr hflag)]

/-- A row of groups is its own result. -/
theorem sanitizeFrom_allowed (hroot : Root fs rootReal) (h : Allowed fs rootReal safe) :
    sanitizeFrom fs rootReal directory sourceReal safe = .ok safe := by
  obtain ⟨groups, rfl, hgroups⟩ := h
  induction groups with
  | nil => rfl
  | cons g groups ih =>
    obtain ⟨hg, hgroups⟩ := List.forall_mem_cons.mp hgroups
    rw [List.flatten_cons, sanitizeFrom_group hroot hg (ih hgroups)]
    rfl

theorem Group.head {g : List Token} (h : Group fs rootReal g) :
    ∃ token rest, g = token :: rest ∧ token.head? = some '-' := by
  have hall : ∀ flag ∈ valueFlags ++ pathFlags ++ attachedPathFlags ++ attachedFlags ++
      safeExactFlags, flag.head? = some '-' := by decide
  have happend {flag value : Token} (hflag : flag.head? = some '-') :
      (flag ++ value).head? = some '-' := by
    rw [List.head?_append, hflag, Option.some_or]
  cases h with
  | language h => exact ⟨_, _, rfl, by decide⟩
  | value hflag => exact ⟨_, _, rfl, hall _ (by simp [hflag])⟩
  | path hflag => exact ⟨_, _, rfl, hall _ (by simp [hflag])⟩
  | attachedPath hflag => exact ⟨_, _, rfl, happend (hall _ (by simp [hflag]))⟩
  | attached hflag => exact ⟨_, _, rfl, happend (hall _ (by simp [hflag]))⟩
  | exact hflag => exact ⟨_, _, rfl, hall _ (by simp [hflag])⟩

theorem root_of_contained {sourcePath : Path} (hroot : fs.resolve root = some rootReal)
    (h : containedPath fs rootReal sourcePath = .ok sourceReal) : Root fs rootReal := by
  have hresolved := fs.resolve_resolve hroot
  refine ⟨hresolved, ?_⟩
  unfold containedPath at h
  rw [hresolved] at h
  cases hsource : fs.resolve sourcePath with
  | none =>
    rw [hsource] at h
    cases h
  | some real =>
    rw [hsource] at h
    dsimp only at h
    split at h
    · next hcommon => exact root_text (fs.absolute hroot) hcommon
    · cases h

/-- **The vector is allowlisted, its paths lie in the root, and it is its own result.** -/
theorem sanitized_allowed {sourcePath : Path} {arguments : List Token}
    (h : sanitizeCompileArguments fs directory root sourcePath arguments = .ok safe) :
    (∃ rootReal, fs.resolve root = some rootReal ∧ Allowed fs rootReal safe) ∧
      sanitizeCompileArguments fs directory root sourcePath safe = .ok safe := by
  unfold sanitizeCompileArguments at h ⊢
  cases hroot : fs.resolve root with
  | none =>
    rw [hroot] at h
    cases h
  | some rootReal =>
    rw [hroot] at h
    dsimp only at h ⊢
    obtain ⟨sourceReal, hsource, h⟩ := bind_ok.mp h
    have hroot' := root_of_contained hroot hsource
    have hallowed : Allowed fs rootReal safe := by
      cases arguments with
      | nil =>
        cases h
        exact .nil
      | cons token rest => exact sanitizeFrom_groups hroot'.resolved h
    refine ⟨⟨rootReal, rfl, hallowed⟩, ?_⟩
    have hagain : sanitizeFrom fs rootReal directory sourceReal safe = .ok safe :=
      sanitizeFrom_allowed hroot' hallowed
    rw [hsource]
    obtain ⟨groups, rfl, hgroups⟩ := hallowed
    cases groups with
    | nil => rfl
    | cons g groups =>
      obtain ⟨token, rest, rfl, hflag⟩ := (hgroups g List.mem_cons_self).head
      rw [List.flatten_cons, List.cons_append] at hagain ⊢
      dsimp only [Except.bind]
      rw [if_pos hflag]
      exact hagain

end Grammar

/-! ## A sample command -/

/-- The paths of the sample that exist; there are no links. -/
def samplePaths : List Path := ["/".toList, "/src".toList, "/src/a.c".toList, "/src/inc".toList]

def sampleFileSystem : FileSystem where
  cwd := "/src".toList
  realpath path := some (if path ∈ samplePaths then path else "/".toList)
  idempotent := by
    rintro path real h
    obtain rfl := Option.some.inj h
    by_cases hpath : path ∈ samplePaths
    · simp only [hpath, if_true]
    · simp only [hpath, if_false]
      rw [if_pos (by decide)]
  absolute := by
    rintro path real h
    obtain rfl := Option.some.inj h
    have hall : ∀ path ∈ samplePaths, isAbs path = true := by decide
    split
    · next hpath => exact hall path hpath
    · decide
  normal := by
    rintro path real h
    obtain rfl := Option.some.inj h
    have hall : ∀ path ∈ samplePaths, normpath path = path := by decide
    split
    · next hpath => exact hall path hpath
    · decide

/-- `cc -Iinc -D X -c a.c -std=c++17` -/
def sampleArguments : List Token :=
  ["cc".toList, "-Iinc".toList, "-D".toList, "X".toList, "-c".toList, "a.c".toList,
    "-std=c++17".toList]

def sampleSanitized : List Token :=
  ["-I/src/inc".toList, "-D".toList, "X".toList, "-std=c++17".toList]

theorem sampleArguments_sanitized :
    sanitizeCompileArguments sampleFileSystem "/src".toList "/src".toList "/src/a.c".toList
      sampleArguments = .ok sampleSanitized := by
  decide

theorem sanitized_allowed_sample :
    (∃ rootReal, sampleFileSystem.resolve "/src".toList = some rootReal ∧
      Allowed sampleFileSystem rootReal sampleSanitized) ∧
    sanitizeCompileArguments sampleFileSystem "/src".toList "/src".toList "/src/a.c".toList
      sampleSanitized = .ok sampleSanitized :=
  sanitized_allowed sampleArguments_sanitized

end CortexHarness.Cplus
