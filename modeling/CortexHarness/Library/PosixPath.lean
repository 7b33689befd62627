import Mathlib.Data.List.Infix
import Mathlib.Tactic.Common
import CortexHarness.Library.Text

/-!
# POSIX paths

`os.path` on texts: `isAbs`, `join`, `normpath`, `abspath` and `commonpath`. What needs the file
system is `realpath`, a parameter: `none` is the `ValueError` of a path that holds a NUL, and a
result is canonical, so it leads to itself.

Result: `components_below`: a path that `commonpath` finds below another has its components first.
-/

namespace CortexHarness.PosixPath

abbrev Path := List Char

/-- `os.path.isabs` -/
def isAbs (path : Path) : Bool := path.head? == some '/'

/-- `os.path.join` of two paths -/
def join (base path : Path) : Path :=
  if isAbs path then path
  else if base = [] ∨ base.getLast? = some '/' then base ++ path
  else base ++ '/' :: path

/-- The loop of `normpath`; `kept` has the last component first. -/
def normalize (absolute : Bool) (kept : List Path) : List Path → List Path
  | [] => kept.reverse
  | component :: rest =>
    if component = [] ∨ component = ['.'] then normalize absolute kept rest
    else if component ≠ ['.', '.'] ∨ (absolute = false ∧ kept = []) ∨
        kept.head? = some ['.', '.'] then
      normalize absolute (component :: kept) rest
    else normalize absolute kept.tail rest

/-- The slashes `normpath` leaves at the start: two stay two. -/
def initialSlashes (path : Path) : Path :=
  if ['/', '/'].isPrefixOf path && !(['/', '/', '/'].isPrefixOf path) then ['/', '/']
  else if isAbs path then ['/']
  else []

/-- `os.path.normpath` -/
def normpath (path : Path) : Path :=
  let normal := initialSlashes path ++
    ['/'].intercalate (normalize (isAbs path) [] (path.splitOn '/'))
  if normal = [] then ['.'] else normal

/-- `os.path.abspath` -/
def abspath (cwd path : Path) : Path :=
  normpath (if isAbs path then path else join cwd path)

/-- The components `commonpath` compares. -/
def components (path : Path) : List Path :=
  (path.splitOn '/').filter fun component => component != [] && component != ['.']

/-- The longest list that both start with. -/
def commonPrefix {α : Type} [DecidableEq α] : List α → List α → List α
  | a :: as, b :: bs => if a = b then a :: commonPrefix as bs else []
  | _, _ => []

/-- `os.path.commonpath` of two paths, `none` where it raises. -/
def commonpath (a b : Path) : Option Path :=
  if isAbs a = isAbs b then
    some ((if isAbs a then ['/'] else []) ++
      ['/'].intercalate (commonPrefix (components a) (components b)))
  else none

/-- The part of a file system that paths are resolved in. -/
structure FileSystem where
  cwd : Path
  /-- `os.path.realpath` -/
  realpath : Path → Option Path
  idempotent : ∀ {path real}, realpath path = some real → realpath real = some real
  absolute : ∀ {path real}, realpath path = some real → isAbs real = true
  normal : ∀ {path real}, realpath path = some real → normpath real = real

namespace FileSystem

variable (fs : FileSystem)

/-- `os.path.realpath(os.path.abspath(path))` -/
def resolve (path : Path) : Option Path := fs.realpath (abspath fs.cwd path)

/-- What is resolved leads to itself. -/
theorem resolve_resolve {path real : Path} (h : fs.resolve path = some real) :
    fs.resolve real = some real := by
  unfold resolve abspath
  rw [if_pos (fs.absolute h), fs.normal h]
  exact fs.idempotent h

theorem absolute_resolve {path real : Path} (h : fs.resolve path = some real) :
    isAbs real = true :=
  fs.absolute h

end FileSystem

/-! ## Containment -/

theorem commonPrefix_prefix_left {α : Type} [DecidableEq α] (as bs : List α) :
    commonPrefix as bs <+: as := by
  induction as generalizing bs with
  | nil => cases bs <;> exact List.nil_prefix
  | cons a as ih =>
    cases bs with
    | nil => exact List.nil_prefix
    | cons b bs =>
      unfold commonPrefix
      split
      · exact List.cons_prefix_cons.mpr ⟨rfl, ih bs⟩
      · exact List.nil_prefix

theorem commonPrefix_comm {α : Type} [DecidableEq α] (as bs : List α) :
    commonPrefix as bs = commonPrefix bs as := by
  induction as generalizing bs with
  | nil => cases bs <;> rfl
  | cons a as ih =>
    cases bs with
    | nil => rfl
    | cons b bs =>
      unfold commonPrefix
      by_cases hab : a = b
      · rw [if_pos hab, if_pos hab.symm, ih, hab]
      · rw [if_neg hab, if_neg (Ne.symm hab)]

theorem not_mem_of_mem_splitOn {c : Char} {text part : Path} (h : part ∈ text.splitOn c) :
    c ∉ part := by
  rw [List.splitOn_eq_splitOnP] at h
  exact fun hc => by simpa using not_of_mem_splitOnP h c hc

/-- What a component of a path is. -/
def IsComponent (component : Path) : Prop :=
  component ≠ [] ∧ component ≠ ['.'] ∧ '/' ∉ component

theorem mem_components {path component : Path} (h : component ∈ components path) :
    IsComponent component := by
  obtain ⟨hsplit, hkept⟩ := List.mem_filter.mp h
  simp only [Bool.and_eq_true, bne_iff_ne] at hkept
  exact ⟨hkept.1, hkept.2, not_mem_of_mem_splitOn hsplit⟩

theorem components_intercalate {parts : List Path} (h : ∀ part ∈ parts, IsComponent part) :
    components ('/' :: ['/'].intercalate parts) = parts := by
  have hkept : parts.filter (fun part => part != [] && part != ['.']) = parts := by
    refine List.filter_eq_self.mpr fun part hpart => ?_
    simp [(h part hpart).1, (h part hpart).2.1]
  unfold components
  rw [show '/' :: ['/'].intercalate parts = [] ++ '/' :: ['/'].intercalate parts from rfl,
    List.splitOn_append_cons_self_of_not_mem List.not_mem_nil]
  by_cases hparts : parts = []
  · subst hparts
    rfl
  · rw [List.splitOn_intercalate '/' (fun part hpart => (h part hpart).2.2) hparts]
    simpa using hkept

/-- **A path whose common path with another is itself has its components first.** -/
theorem components_below {root path : Path} (hroot : isAbs root = true)
    (h : commonpath root path = some root) : components root <+: components path := by
  unfold commonpath at h
  by_cases hsame : isAbs root = isAbs path
  · rw [if_pos hsame, if_pos hroot, List.singleton_append, Option.some.injEq] at h
    have hcommon := components_intercalate
      (fun part (hpart : part ∈ commonPrefix (components root) (components path)) =>
        mem_components ((commonPrefix_prefix_left _ _).subset hpart))
    rw [h] at hcommon
    rw [hcommon, commonPrefix_comm]
    exact commonPrefix_prefix_left _ _
  · rw [if_neg hsame] at h
    cases h

theorem commonPrefix_of_prefix {α : Type} [DecidableEq α] {as bs : List α} (h : as <+: bs) :
    commonPrefix as bs = as := by
  induction as generalizing bs with
  | nil => cases bs <;> rfl
  | cons a as ih =>
    obtain ⟨rest, rfl⟩ := h
    rw [List.cons_append, commonPrefix, if_pos rfl, ih (List.prefix_append as rest)]

theorem root_text {root path : Path} (hroot : isAbs root = true)
    (h : commonpath root path = some root) :
    root = '/' :: ['/'].intercalate (components root) := by
  have hbelow := commonPrefix_of_prefix (components_below hroot h)
  unfold commonpath at h
  by_cases hsame : isAbs root = isAbs path
  · rw [if_pos hsame, if_pos hroot, hbelow] at h
    exact (Option.some.inj h).symm
  · rw [if_neg hsame] at h
    cases h

theorem commonpath_of_below {root path : Path} (hroot : isAbs root = true)
    (htext : root = '/' :: ['/'].intercalate (components root)) (hpath : isAbs path = true)
    (h : components root <+: components path) : commonpath root path = some root := by
  unfold commonpath
  rw [if_pos (hroot.trans hpath.symm), if_pos hroot, commonPrefix_of_prefix h]
  exact congrArg some htext.symm

end CortexHarness.PosixPath
