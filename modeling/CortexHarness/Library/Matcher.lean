import Mathlib.Tactic.Common

/-!
# Regular expressions as a backtracking search runs them

A matcher leads from a place in a text to the places where a match may end, in the order in which
the search comes to them. A place keeps the characters before it, for `\b`. What the engine knows of
characters is a parameter.
-/

namespace CortexHarness.Matcher

/-- What `re` knows of characters. -/
structure Alphabet where
  /-- `\w` -/
  word : Char → Bool
  /-- under `IGNORECASE`, the characters a literal one stands for -/
  same : Char → Char → Bool

/-- The ASCII part of what `re` knows. -/
def ascii : Alphabet where
  word c := c.isAlphanum || c == '_'
  same c d := c.toLower == d.toLower

/-- A place in a text: what stands before it, the last character first, and what comes after. -/
structure Cursor where
  before : List Char
  after : List Char
  deriving DecidableEq

/-- The places of a text, from the start to the end. -/
def cursors : List Char → List Char → List Cursor
  | before, [] => [⟨before, []⟩]
  | before, c :: cs => ⟨before, c :: cs⟩ :: cursors (c :: before) cs

abbrev Pattern := Cursor → List Cursor

/-- `p1 p2 …` -/
def seq : List Pattern → Pattern
  | [], c => [c]
  | p :: ps, c => (p c).flatMap (seq ps)

/-- `p|q` -/
def either (p q : Pattern) : Pattern := fun c => p c ++ q c

/-- `(?:p)?` -/
def opt (p : Pattern) : Pattern := fun c => p c ++ [c]

/-- One character of a class. -/
def one (p : Char → Bool) : Pattern
  | ⟨_, []⟩ => []
  | ⟨before, c :: cs⟩ => if p c then [⟨c :: before, cs⟩] else []

/-- `[…]*` from a place, the longest first. -/
def starFrom (p : Char → Bool) : List Char → List Char → List Cursor
  | before, [] => [⟨before, []⟩]
  | before, c :: cs =>
    if p c then starFrom p (c :: before) cs ++ [⟨before, c :: cs⟩] else [⟨before, c :: cs⟩]

/-- `[…]*` -/
def star (p : Char → Bool) : Pattern := fun c => starFrom p c.before c.after

/-- `[…]+` -/
def plus (p : Char → Bool) : Pattern := seq [one p, star p]

/-- `[…]{0,n}` -/
def upTo (p : Char → Bool) : Nat → Pattern
  | 0, c => [c]
  | n + 1, c => (one p c).flatMap (upTo p n) ++ [c]

/-- `^` under `MULTILINE` -/
def lineStart : Pattern := fun c => if c.before.head?.all (· == '\n') then [c] else []

/-- `pattern.search(text) is not None` -/
def found (p : Pattern) (text : List Char) : Bool :=
  (cursors [] text).any fun c => !(p c).isEmpty

/-- `pattern.match(text) is not None` -/
def startsWith (p : Pattern) (text : List Char) : Bool := !(p ⟨[], text⟩).isEmpty

variable (alphabet : Alphabet)

/-- A literal text. -/
def literal (text : String) : Pattern := seq (text.toList.map fun c => one (alphabet.same c))

/-- `\b` -/
def boundary : Pattern := fun c =>
  if c.before.head?.any alphabet.word = c.after.head?.any alphabet.word then [] else [c]

end CortexHarness.Matcher
