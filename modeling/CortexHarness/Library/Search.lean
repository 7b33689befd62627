import CortexHarness.Library.Matcher

/-!
# Groups, and the matches of a text

What a search reads: the text of a group stands between two places, `many` repeats a group, and
`findAll` collects the matches that `finditer` goes through.
-/

namespace CortexHarness.Matcher

/-- The text between two places of a text. -/
def between (start stop : Cursor) : String :=
  String.ofList (start.after.take (start.after.length - stop.after.length))

/-- `(?:p)*` from a place with `fuel` characters after it; a turn that reads nothing ends it. -/
def manyFrom (p : Pattern) : Nat → Pattern
  | 0, c => [c]
  | fuel + 1, c =>
    ((p c).filter fun d => d.after.length < c.after.length).flatMap (manyFrom p fuel) ++ [c]

/-- `(?:p)*` -/
def many (p : Pattern) : Pattern := fun c => manyFrom p c.after.length c

/-- `[…]*?` from a place, the shortest first. -/
def lazyStarFrom (p : Char → Bool) : List Char → List Char → List Cursor
  | before, [] => [⟨before, []⟩]
  | before, c :: cs =>
    ⟨before, c :: cs⟩ :: if p c then lazyStarFrom p (c :: before) cs else []

/-- `[…]*?` -/
def lazyStar (p : Char → Bool) : Pattern := fun c => lazyStarFrom p c.before c.after

/-- `p1|p2|…` -/
def anyOf (ps : List Pattern) : Pattern := fun c => ps.flatMap fun p => p c

/-- A literal text, in its case. -/
def exactly (text : String) : Pattern := seq (text.toList.map fun c => one (· == c))

/-- A pattern with groups: what it captures, and where it ends. -/
abbrev Reader (α : Type) := Cursor → List (α × Cursor)

/-- `pattern.match(text)`, what it captures. -/
def Reader.match? {α : Type} (r : Reader α) (text : List Char) : Option α :=
  (r ⟨[], text⟩).head?.map Prod.fst

/-- A match of `finditer`: the number of characters before it, its text and what it captures. -/
structure Found (α : Type) where
  start : Nat
  text : String
  captured : α

/-- `pattern.finditer(text)` from a place, for a pattern that reads something; `fuel` bounds the
places to try. -/
def findAllFrom {α : Type} (r : Reader α) : Nat → Cursor → List (Found α)
  | 0, _ => []
  | fuel + 1, c =>
    match (r c).head? with
    | some (captured, stop) =>
      ⟨c.before.length, between c stop, captured⟩ :: findAllFrom r fuel stop
    | none =>
      match c.after with
      | [] => []
      | a :: rest => findAllFrom r fuel ⟨a :: c.before, rest⟩

/-- `pattern.finditer(text)` -/
def findAll {α : Type} (r : Reader α) (text : List Char) : List (Found α) :=
  findAllFrom r (text.length + 1) ⟨[], text⟩

/-- What the first match of `pattern.search(text)` captures. -/
def Reader.search? {α : Type} (r : Reader α) (text : List Char) : Option α :=
  (findAll r text).head?.map Found.captured

end CortexHarness.Matcher
