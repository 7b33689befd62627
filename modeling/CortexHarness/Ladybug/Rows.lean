import CortexHarness.Library.Dict
import CortexHarness.Library.Points
import CortexHarness.Library.Python
import CortexHarness.Ladybug.Schema

/-!
# Node writes of the embedded graph

Model of what `LadybugDBDriver` makes of `UNWIND $rows AS row MERGE (n:Label {pk: row.pk})
SET n += row`: the rewriting of the rows (`_rewrite_set_merge`, `_unify_row_shapes`,
`_top_up_unwind_row_fields`), the store of the label's table, and the node as it is read back
(`_normalize_ladybug_value`).

Results: `execute_eq` says what a statement does row by row, and `field_readBack` what a stored node
reads back as.

Model notes:

* `json.loads` undoes `json.dumps` on an object, so the spill column holds the object itself; the
  bound `__spill` of a row, a text that the later steps leave alone, is kept beside its fields.
* A table is a function from primary keys to nodes. `CAST` keeps the values of the column's type.
-/

namespace CortexHarness.Ladybug

open Json

/-! ## Values -/

/-- The functions of the standard library that the driver calls on values. -/
structure Builtins extends Python where
  /-- `json.loads`, `none` where it raises -/
  loads : String → Option Json
  /-- `json.dumps(value, default=str)` of a list or a dict -/
  dumps : Json → String
  /-- `float(value)` of a value that is no float, `none` where it raises -/
  parseFloat : Json → Option String

def isStr : Json → Bool
  | .str _ => true
  | _ => false

/-- The values of a column type. -/
def ColumnType.holds : ColumnType → Json → Bool
  | _, .null => true
  | .string, value => isStr value
  | .stringList, .arr items => items.all isStr
  | .int64, .int n => -(2 ^ 63) ≤ n && n < 2 ^ 63
  | .double, .float _ => true
  | .bool, .bool _ => true
  | _, _ => false

section Coercion

variable (b : Builtins)

/-- The end of the list branch of `_coerce_column`. -/
def stringItems : Json → Json
  | .arr items => .arr (items.map fun item => .str (b.str item))
  | value => .arr [.str (b.str value)]

/-- `_coerce_column` of a value that is not `None`, `none` where it raises. -/
def coerceColumn (column : String) (value : Json) : Option Json :=
  match columnType column, value with
  | .stringList, .str s =>
    let text := strip s
    if startsWith text "[" then some (((b.loads text).map (stringItems b)).getD (.arr []))
    else some (.arr (if text = "" then [] else [.str s]))
  | .stringList, value => some (stringItems b value)
  | .string, .arr items => some (.str (b.dumps (.arr items)))
  | .string, .obj members => some (.str (b.dumps (.obj members)))
  | .string, value => some (.str (b.str value))
  | .int64, value => ((b.int value).toOption).map .int
  | .double, .float repr => some (.float repr)
  | .double, value => (b.parseFloat value).map .float
  | .bool, value => some (.bool value.truthy)

/-- `_safe_coerce` -/
def safeCoerce (column : String) (value : Json) : Json :=
  match value with
  | .null => .null
  | value => (coerceColumn b column value).getD .null

/-- `_decode_json_column` -/
def decodeJsonColumn (key : String) (value : Json) : Json :=
  match value with
  | .str s =>
    if key ∈ jsonProperties ∧ (startsWith s "[" ∨ startsWith s "\x7b") then
      (b.loads s).getD value
    else value
  | value => value

end Coercion

/-! ## The rewriting of the rows -/

section Rewriting

variable (b : Builtins) (spec : String × List String)

/-- A row that is bound to the rewritten statement. -/
structure BoundRow where
  fields : Row
  /-- the object that `row["__spill"]` prints -/
  spill : Row

/-- What a row spills. -/
def spillOf (row : Row) : Row :=
  row.filter fun m => m.1 ∉ spec.2 ∧ m.1 ≠ "__spill" ∧ m.1 ≠ spec.1

/-- The row of `replace_var` in `_rewrite_set_merge`. -/
def rewriteRow (row : Row) : BoundRow where
  spill := spillOf spec row
  fields := spec.2.foldl
    (fun row column => put row column (safeCoerce b column (field row column))) row

/-- The keys of the rows, each where it is first met. -/
def rowKeys (rows : List BoundRow) : List String :=
  (rows.flatMap fun row => row.fields.map Prod.fst).eraseDups

/-- `_unify_row_shapes` -/
def unifyRowShapes (rows : List BoundRow) : List BoundRow :=
  if rows.length < 2 then rows
  else rows.map fun row =>
    { row with fields := (rowKeys rows).foldl (fun row key => setDefault row key .null) row.fields }

/-- Every key of the rows, and the fields that the statement mentions: the primary key, beside
`__spill`. -/
def orderedFields (rows : List BoundRow) : List String :=
  if spec.1 ∈ rowKeys rows then rowKeys rows else rowKeys rows ++ [spec.1]

/-- `_top_up_unwind_row_fields` -/
def topUpUnwindRowFields (rows : List BoundRow) : List BoundRow :=
  rows.map fun row =>
    { row with fields := (orderedFields spec rows).map fun key =>
        (key, safeCoerce b key (field row.fields key)) }

/-- The rows that are bound to the rewritten statement. -/
def bindRows (rows : List Row) : List BoundRow :=
  topUpUnwindRowFields b spec (unifyRowShapes (rows.map (rewriteRow b spec)))

end Rewriting

/-! ## The table -/

/-- A stored node. -/
structure Node where
  key : String
  columns : String → Json
  spill : Row

/-- The table of a label. -/
abbrev NodeTable := String → Option Node

section Tables

variable (b : Builtins) (spec : String × List String)

/-- One row of the rewritten statement: `MERGE` on the primary key, then every column and the spill
are set. A row without a text under its primary key is a binder error. -/
def mergeRow (table : NodeTable) (row : BoundRow) : NodeTable :=
  match field row.fields spec.1 with
  | .str key => Function.update table key (some {
      key
      columns := fun column => if column ∈ spec.2 then field row.fields column else .null
      spill := row.spill })
  | _ => table

/-- A statement. -/
def execute (table : NodeTable) (rows : List Row) : NodeTable :=
  (bindRows b spec rows).foldl (mergeRow spec) table

/-- `_normalize_ladybug_value` of a node: the primary key, the other columns and the spill. -/
def readBack (node : Node) : Row :=
  let assigned := (spec.2.filter fun column => column ≠ spec.1).foldl
    (fun row column => put row column (decodeJsonColumn b column (node.columns column)))
    (put [] spec.1 (decodeJsonColumn b spec.1 (.str node.key)))
  node.spill.foldl (fun row m => setDefault row m.1 (decodeJsonColumn b m.1 m.2)) assigned

end Tables

/-! ## Well-typed rows -/

/-- A row as its writers promise it: a text under the primary key, values of the column's type in the
columns, any value under another key. -/
structure TypedRow (spec : String × List String) where
  row : Row
  key : String
  keyed : find? row spec.1 = some (.str key)
  typed : ∀ column ∈ spec.2, (columnType column).holds (field row column) = true

section Results

variable {b : Builtins} {spec : String × List String}

theorem safeCoerce_of_holds {column : String} {value : Json}
    (h : (columnType column).holds value = true) : safeCoerce b column value = value := by
  cases hcolumn : columnType column <;> rw [hcolumn] at h <;> cases value <;>
    simp_all [ColumnType.holds, isStr, safeCoerce, coerceColumn, Python.str, Python.int, Json.truthy]
  case stringList.arr items =>
    have hitems : (items.map fun item => Json.str (b.str item)) = items.map id := by
      refine List.map_congr_left fun item hitem => ?_
      have hstr := h item hitem
      cases item <;> simp_all [Python.str]
    simpa [stringItems] using hitems
  case int64.int n => rfl

theorem safeCoerce_str_of_string {key s : String} (h : columnType key = .string) :
    safeCoerce b key (.str s) = .str s :=
  safeCoerce_of_holds (by rw [h]; rfl)

/-- The bound row carries the typed row: its primary key, its columns and its spill. -/
def Carries (r : TypedRow spec) (bound : BoundRow) : Prop :=
  bound.spill = spillOf spec r.row ∧
    ∀ key, key = spec.1 ∨ key ∈ spec.2 → field bound.fields key = field r.row key

theorem rewriteRow_carries (r : TypedRow spec) : Carries r (rewriteRow b spec r.row) := by
  refine ⟨rfl, fun key _ => ?_⟩
  exact field_foldl_put_self _ (fun column hcolumn => safeCoerce_of_holds (r.typed column hcolumn)) _

theorem unifyRowShapes_carries {rs : List (TypedRow spec)} {rows : List BoundRow}
    (h : List.Forall₂ Carries rs rows) : List.Forall₂ Carries rs (unifyRowShapes rows) := by
  unfold unifyRowShapes
  split
  · exact h
  · refine List.forall₂_map_right_iff.mpr (h.imp fun r bound hcarries => ⟨hcarries.1, ?_⟩)
    intro key hkey
    rw [field_foldl_setDefault_null]
    exact hcarries.2 key hkey

theorem topUpUnwindRowFields_carries (hspec : SpecSound spec) {rs : List (TypedRow spec)}
    {rows : List BoundRow} (h : List.Forall₂ Carries rs rows) :
    List.Forall₂ Carries rs (topUpUnwindRowFields b spec rows) := by
  refine List.forall₂_map_right_iff.mpr (List.forall₂_iff_get.mpr ⟨h.length_eq, ?_⟩)
  intro i hi hi'
  obtain ⟨hspill, hfields⟩ := h.get hi hi'
  refine ⟨hspill, fun key hkey => ?_⟩
  have hcoerced : safeCoerce b key (field (rows.get ⟨i, hi'⟩).fields key) =
      field (rs.get ⟨i, hi⟩).row key := by
    rw [hfields key hkey]
    rcases hkey with rfl | hcolumn
    · rw [field, (rs.get ⟨i, hi⟩).keyed]
      exact safeCoerce_str_of_string hspec.2.1
    · exact safeCoerce_of_holds ((rs.get ⟨i, hi⟩).typed key hcolumn)
  rw [field_map]
  split
  · exact hcoerced
  · next hmissing =>
    -- a key that no row has is `None` before and after
    rw [← hfields key hkey, field_of_notMem]
    intro hmem
    have hkeys : key ∈ rowKeys rows :=
      List.mem_eraseDups.mpr (List.mem_flatMap.mpr ⟨_, List.get_mem rows _, hmem⟩)
    refine hmissing ?_
    unfold orderedFields
    split
    · exact hkeys
    · exact List.mem_append_left _ hkeys

theorem bindRows_carries (hspec : SpecSound spec) (rs : List (TypedRow spec)) :
    List.Forall₂ Carries rs (bindRows b spec (rs.map (·.row))) := by
  refine topUpUnwindRowFields_carries hspec (unifyRowShapes_carries ?_)
  rw [List.map_map, List.forall₂_map_right_iff, List.forall₂_same]
  exact fun r _ => rewriteRow_carries r

/-- The node that a row leaves. -/
def nodeOf (r : TypedRow spec) : Node where
  key := r.key
  columns := fun column => if column ∈ spec.2 then field r.row column else .null
  spill := spillOf spec r.row

theorem mergeRow_of_carries {r : TypedRow spec} {bound : BoundRow} (h : Carries r bound)
    (table : NodeTable) :
    mergeRow spec table bound = Function.update table r.key (some (nodeOf r)) := by
  have hkey : field bound.fields spec.1 = .str r.key := by
    rw [h.2 spec.1 (.inl rfl), field, r.keyed]
    rfl
  have hcolumns : (fun column => if column ∈ spec.2 then field bound.fields column else .null) =
      (nodeOf r).columns := by
    funext column
    by_cases hcolumn : column ∈ spec.2
    · simp only [nodeOf, if_pos hcolumn]
      exact h.2 column (.inr hcolumn)
    · simp only [nodeOf, if_neg hcolumn]
  unfold mergeRow
  rw [hkey]
  simp only [hcolumns, h.1]
  rfl

/-- **A statement writes the node of each of its rows, one after the other.** -/
theorem execute_eq (hspec : SpecSound spec) (table : NodeTable) (rs : List (TypedRow spec)) :
    execute b spec table (rs.map (·.row)) =
      Points.upsert (rs.map fun r => (r.key, nodeOf r)) table := by
  have hcarries := bindRows_carries (b := b) hspec rs
  unfold execute
  generalize bindRows b spec (rs.map (·.row)) = rows at hcarries ⊢
  induction hcarries generalizing table with
  | nil => rfl
  | cons hfirst _ ih =>
    rw [List.foldl_cons, mergeRow_of_carries hfirst, ih]
    rfl

theorem decodeJsonColumn_plain {key : String} (h : key ∉ jsonProperties) (value : Json) :
    decodeJsonColumn b key value = value := by
  cases value <;> simp [decodeJsonColumn, h]

@[simp] theorem decodeJsonColumn_null (key : String) : decodeJsonColumn b key .null = .null := rfl

/-- What a stored node reads back as. -/
theorem field_readBack (hspec : SpecSound spec) (node : Node) (k : String) :
    field (readBack b spec node) k =
      if k = spec.1 then .str node.key
      else if k ∈ spec.2 then decodeJsonColumn b k (node.columns k)
      else decodeJsonColumn b k (field node.spill k) := by
  unfold field readBack
  rw [find?_foldl_setDefault, find?_foldl_put, find?_put]
  by_cases hpk : k = spec.1
  · subst hpk
    simp [decodeJsonColumn_plain hspec.1]
  · by_cases hcolumn : k ∈ spec.2
    · simp [hpk, hcolumn]
    · cases hspill : find? node.spill k <;> simp [hpk, hcolumn, find?]

end Results

end CortexHarness.Ladybug
