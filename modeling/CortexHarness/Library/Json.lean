import Mathlib.Data.List.Sort
import Mathlib.Data.String.Basic

/-!
# JSON values as Python reads and writes them

`Json` is what `json.loads` returns: integers and floats are different values, and an object is
its member list in insertion order. A float is carried as its `repr`, the text `json.dumps` prints.

* `dumps` is `json.dumps(value, ensure_ascii=False, separators=(",", ":"), sort_keys=True)`;
* `truthy` is `bool(value)`, and `orElse` is Python's `a or b`;
* `get?` is `mapping.get(key)` on an object, `none` where the key is missing.
-/

namespace CortexHarness

/-- A JSON value. -/
inductive Json where
  | null
  | bool (b : Bool)
  | int (n : Int)
  | float (repr : String)
  | str (s : String)
  | arr (items : List Json)
  | obj (members : List (String × Json))
  deriving Repr

namespace Json

instance : Inhabited Json := ⟨.null⟩

/-- One hexadecimal digit, lower case. -/
def hexDigit (n : Nat) : Char := "0123456789abcdef".toList.getD n '0'

/-- The escape of one character inside a JSON string, `ensure_ascii=False`. -/
def escapeChar (c : Char) : List Char :=
  if c = '"' then ['\\', '"']
  else if c = '\\' then ['\\', '\\']
  else if c = '\n' then ['\\', 'n']
  else if c = '\r' then ['\\', 'r']
  else if c = '\t' then ['\\', 't']
  else if c.toNat = 8 then ['\\', 'b']
  else if c.toNat = 12 then ['\\', 'f']
  else if c.toNat < 32 then ['\\', 'u', '0', '0', hexDigit (c.toNat / 16), hexDigit (c.toNat % 16)]
  else [c]

/-- A JSON string literal. -/
def quote (s : String) : String :=
  String.ofList (['"'] ++ s.toList.flatMap escapeChar ++ ['"'])

/-- The members of an object in the order `sort_keys` prints them. -/
def sortMembers (members : List (String × String)) : List (String × String) :=
  members.insertionSort fun a b => a.1 ≤ b.1

mutual

/-- `json.dumps` with sorted keys and compact separators. -/
def dumps : Json → String
  | .null => "null"
  | .bool b => if b then "true" else "false"
  | .int n => toString n
  | .float repr => repr
  | .str s => quote s
  | .arr items => "[" ++ ",".intercalate (dumpsItems items) ++ "]"
  | .obj members =>
    "\x7b" ++ ",".intercalate ((sortMembers (dumpsMembers members)).map fun m =>
      quote m.1 ++ ":" ++ m.2) ++ "\x7d"

/-- The printed items of an array. -/
def dumpsItems : List Json → List String
  | [] => []
  | v :: vs => dumps v :: dumpsItems vs

/-- The members of an object with their values printed. -/
def dumpsMembers : List (String × Json) → List (String × String)
  | [] => []
  | (k, v) :: ms => (k, dumps v) :: dumpsMembers ms

end

/-- `bool(value)`. -/
def truthy : Json → Bool
  | .null => false
  | .bool b => b
  | .int n => n != 0
  | .float repr => !(repr == "0.0" || repr == "-0.0")
  | .str s => s != ""
  | .arr items => !items.isEmpty
  | .obj members => !members.isEmpty

/-- `mapping.get(key)` on a member list. -/
def find? (members : List (String × Json)) (key : String) : Option Json :=
  (members.find? fun m => m.1 == key).map Prod.snd

/-- `value.get(key)` on an object; every other value reads as the empty object. -/
def get? (value : Json) (key : String) : Option Json :=
  match value with
  | .obj members => find? members key
  | _ => none

/-- `a or b`, where a missing `a` is `None`. -/
def orElse (a : Option Json) (b : Option Json) : Option Json :=
  match a with
  | some v => if v.truthy then some v else b
  | none => b

end Json

end CortexHarness
