import CortexHarness.Library.Json
import Mathlib.Data.List.DropRight

/-!
# Texts and values as Python's standard library reads them

* `isSpace`, `strip` (and `strip_strip`), `blank`, `startsWith`, `endsWith`, `slashes`: the methods
  of `str` the program calls;
* `Python` collects what the standard library computes and the program only compares: the SHA-256
  digest, `str` of a list or a dict, `str.casefold`, and `int` of a float or a text. Every result
  holds for every such function, unless it says otherwise;
* `Python.str`, `Python.int` and the functions beside them are `str(...)` and `int(...)` on JSON
  values.
-/

namespace CortexHarness

/-! ## Texts -/

/-- `c.isspace()`: the characters `str.strip` removes. -/
def isSpace (c : Char) : Bool :=
  let n := c.toNat
  (9 ≤ n && n ≤ 13) || (28 ≤ n && n ≤ 32) || n == 0x85 || n == 0xa0 || n == 0x1680 ||
    (0x2000 ≤ n && n ≤ 0x200a) || n == 0x2028 || n == 0x2029 || n == 0x202f || n == 0x205f ||
    n == 0x3000

/-- `text.strip()`. -/
def strip (text : String) : String :=
  String.ofList ((text.toList.dropWhile isSpace).reverse.dropWhile isSpace).reverse

/-- The characters `strip` keeps. -/
def stripChars (l : List Char) : List Char :=
  ((l.dropWhile isSpace).reverse.dropWhile isSpace).reverse

theorem stripChars_stripChars (l : List Char) : stripChars (stripChars l) = stripChars l := by
  -- Nothing to strip on the left: the kept part starts as the text without its leading blanks.
  have hleft : (stripChars l).dropWhile isSpace = stripChars l := by
    have hpre : stripChars l <+: l.dropWhile isSpace :=
      List.rdropWhile_prefix isSpace (l.dropWhile isSpace)
    refine List.dropWhile_eq_self_iff.mpr fun hpos => ?_
    obtain ⟨rest, hrest⟩ := hpre
    have hlen : 0 < (l.dropWhile isSpace).length := by
      rw [← hrest, List.length_append]
      omega
    have hhead := List.head_dropWhile_not isSpace (List.ne_nil_of_length_pos hlen)
    rw [List.head_eq_getElem] at hhead
    simpa [← hrest, List.getElem_append_left hpos] using hhead
  unfold stripChars at hleft ⊢
  rw [hleft, List.reverse_reverse, List.dropWhile_idempotent]

theorem stripChars_map {f : Char → Char} (hf : ∀ c, isSpace (f c) = isSpace c) (l : List Char) :
    stripChars (l.map f) = (stripChars l).map f := by
  have hcomp : isSpace ∘ f = isSpace := funext hf
  unfold stripChars
  rw [List.dropWhile_map, hcomp, ← List.map_reverse, List.dropWhile_map, hcomp, List.map_reverse]

theorem toList_strip (text : String) : (strip text).toList = stripChars text.toList := by
  unfold strip stripChars
  rw [String.toList_ofList]

/-- A text is stripped once. -/
theorem strip_strip (text : String) : strip (strip text) = strip text := by
  apply String.toList_inj.mp
  rw [toList_strip, toList_strip, stripChars_stripChars]

/-- `not text.strip()`. -/
def blank (text : String) : Bool := text.toList.all isSpace

theorem strip_of_blank {text : String} (h : blank text = true) : strip text = "" := by
  apply String.toList_inj.mp
  rw [toList_strip, stripChars, List.dropWhile_eq_nil_iff.mpr (List.all_eq_true.mp h)]
  rfl

/-- `text.startswith(start)`. -/
def startsWith (text start : String) : Bool := start.toList.isPrefixOf text.toList

/-- `text.endswith(tail)`. -/
def endsWith (text tail : String) : Bool := tail.toList.isSuffixOf text.toList

/-- `text.replace("\\", "/")` -/
def slashes (text : String) : String :=
  String.ofList (text.toList.map fun c => if c = '\\' then '/' else c)

/-! ## Values -/

/-- The standard-library functions the journal calls on texts. -/
structure Python where
  /-- `hashlib.sha256(text.encode("utf-8")).hexdigest()` -/
  sha256Hex : String → String
  /-- `str(value)` of a list or a dict -/
  reprContainer : Json → String
  /-- `str.casefold` -/
  casefold : String → String
  /-- `int(value)` of a float or a text, or the text of its exception -/
  parseInt : Json → Except String Int

variable (py : Python)

/-- `str(value)`. -/
def Python.str : Json → String
  | .null => "None"
  | .bool b => if b then "True" else "False"
  | .int n => toString n
  | .float repr => repr
  | .str s => s
  | v => py.reprContainer v

/-- `str(a or b)` with a text default. -/
def Python.strOr (value : Option Json) (default : String) : String :=
  match Json.orElse value none with
  | some v => py.str v
  | none => default

/-- `str(value[key]) if value.get(key) else None`. -/
def Python.optional (value : Option Json) : Option String :=
  (Json.orElse value none).map py.str

/-- `str(value.get(key, default))`. -/
def Python.strDefault (value : Option Json) (default : String) : String :=
  match value with
  | some v => py.str v
  | none => default

/-- `int(value)`. -/
def Python.int : Json → Except String Int
  | .int n => .ok n
  | .bool b => .ok (if b then 1 else 0)
  | v => py.parseInt v

end CortexHarness
