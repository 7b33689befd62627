import CortexHarness.Ladybug.Rows

/-!
# Property maps

A schema-less node is a map of properties, where a null stands for a missing one, and `SET n += row`
overwrites the keys of the row. `view` reads the nodes of a typed table as such maps.

Results: `view_write_iff`: the exact rows whose write the two stores agree on; `view_statements`: they
agree after any statements whose rows are all of this kind.
-/

namespace CortexHarness.Ladybug

open Json

/-! ## The schema-less store -/

/-- The properties of a node. -/
abbrev Props := String → Json

/-- The nodes of a label, by their primary key. -/
abbrev PropTable := String → Option Props

/-- `SET n += row` -/
def setMerge (props : Props) (row : Row) : Props := fun k => (find? row k).getD (props k)

section Stores

variable {spec : String × List String}

/-- The node that `MERGE` finds or makes for a row. -/
def merged (table : PropTable) (r : TypedRow spec) : Props :=
  (table r.key).getD fun k => if k = spec.1 then .str r.key else .null

def mergeProps (table : PropTable) (r : TypedRow spec) : PropTable :=
  Function.update table r.key (some (setMerge (merged table r) r.row))

/-- The statements of a history, on the schema-less store. -/
def propStatements (batches : List (List (TypedRow spec))) : PropTable :=
  batches.foldl (fun table rs => rs.foldl mergeProps table) fun _ => none

end Stores

section Views

variable (b : Builtins) (spec : String × List String)

/-- The nodes of a table, as they are read back. -/
def view (table : NodeTable) : PropTable :=
  fun key => (table key).map fun node => field (readBack b spec node)

/-- The statements of a history, as the driver rewrites them. -/
def statements (batches : List (List (TypedRow spec))) : NodeTable :=
  batches.foldl (fun table rs => execute b spec table (rs.map (·.row))) fun _ => none

end Views

/-! ## The condition -/

section Condition

variable (b : Builtins) {spec : String × List String}

/-- A row writes every property that its node has, does not use the key `__spill`, and holds no text
that a JSON property decodes. -/
structure RowCovered (props : Props) (row : Row) : Prop where
  keeps : ∀ k, props k ≠ .null → (find? row k).isSome
  spill : field row "__spill" = .null
  plain : ∀ k, decodeJsonColumn b k (field row k) = field row k

/-- Every row is covered when it is written. -/
def RowsCovered : NodeTable → List (TypedRow spec) → Prop
  | _, [] => True
  | table, r :: rs =>
    RowCovered b (merged (view b spec table) r) r.row ∧
      RowsCovered (execute b spec table [r.row]) rs

end Condition

/-! ## The two stores -/

section Agreement

variable {b : Builtins} {spec : String × List String}

theorem field_readBack_nodeOf (hspec : SpecSound spec) (r : TypedRow spec) (k : String) :
    field (readBack b spec (nodeOf r)) k =
      if k = "__spill" then .null else decodeJsonColumn b k (field r.row k) := by
  obtain ⟨hpk, hcolumn⟩ := hspec.2.2 "__spill" (by decide)
  rw [field_readBack hspec]
  by_cases hkey : k = spec.1
  · subst hkey
    have hfield : field r.row spec.1 = .str r.key := by rw [field, r.keyed]; rfl
    rw [if_pos rfl, if_neg hpk.symm, hfield, decodeJsonColumn_plain hspec.1]
    rfl
  · rw [if_neg hkey]
    by_cases hk : k ∈ spec.2
    · have hne : k ≠ "__spill" := fun he => hcolumn (he ▸ hk)
      rw [if_pos hk, if_neg hne]
      simp only [nodeOf, if_pos hk]
    · have hspilled : find? (spillOf spec r.row) k =
          if k = "__spill" then none else find? r.row k := by
        have hfilter := find?_filter
          (fun k => decide (k ∉ spec.2 ∧ k ≠ "__spill" ∧ k ≠ spec.1)) r.row k
        simpa [spillOf, hk, hkey] using hfilter
      rw [if_neg hk]
      simp only [nodeOf, field, hspilled]
      by_cases hs : k = "__spill"
      · simp [hs]
      · simp [hs]

/-- **The rows whose write the two stores agree on.** -/
theorem view_write_iff (hspec : SpecSound spec) (table : NodeTable) (r : TypedRow spec) :
    view b spec (Function.update table r.key (some (nodeOf r))) =
        mergeProps (view b spec table) r ↔
      RowCovered b (merged (view b spec table) r) r.row := by
  have hview : view b spec (Function.update table r.key (some (nodeOf r))) =
      Function.update (view b spec table) r.key
        (some (field (readBack b spec (nodeOf r)))) := by
    funext key
    by_cases hkey : key = r.key
    · subst hkey
      simp [view]
    · simp [view, hkey]
  rw [hview, mergeProps, (Function.update_injective _ _).eq_iff, Option.some.injEq, funext_iff]
  simp only [field_readBack_nodeOf hspec, setMerge]
  generalize merged (view b spec table) r = props
  constructor
  · intro h
    constructor
    case keeps =>
      intro k hk
      by_contra hmissing
      have hnone : find? r.row k = none := by simpa using hmissing
      have hnow := h k
      rw [field, hnone] at hnow
      simp only [Option.getD_none, decodeJsonColumn_null, ite_self] at hnow
      exact hk hnow.symm
    case spill =>
      have hnow := h "__spill"
      rw [if_pos rfl] at hnow
      cases hfind : find? r.row "__spill" with
      | none => rw [field, hfind]; rfl
      | some v => rw [field, hfind]; rw [hfind] at hnow; exact hnow.symm
    case plain =>
      intro k
      by_cases hs : k = "__spill"
      · subst hs
        exact decodeJsonColumn_plain (by decide) _
      · have hnow := h k
        rw [if_neg hs] at hnow
        cases hfind : find? r.row k with
        | none => rw [field, hfind]; rfl
        | some v => rw [hnow, field, hfind]; rfl
  · intro h k
    by_cases hs : k = "__spill"
    · subst hs
      have hspill := h.spill
      rw [if_pos rfl]
      cases hfind : find? r.row "__spill" with
      | none =>
        simp only [Option.getD_none]
        by_contra hne
        have hkept := h.keeps "__spill" fun hnull => hne hnull.symm
        simp [hfind] at hkept
      | some v => rw [field, hfind] at hspill; exact hspill.symm
    · rw [if_neg hs, h.plain]
      cases hfind : find? r.row k with
      | none =>
        rw [field, hfind]
        simp only [Option.getD_none]
        by_contra hne
        have hkept := h.keeps k fun hnull => hne hnull.symm
        simp [hfind] at hkept
      | some v => rw [field, hfind]; rfl

theorem rows_agree (hspec : SpecSound spec) {table : NodeTable} {props : PropTable}
    (hview : view b spec table = props) {rs : List (TypedRow spec)}
    (h : RowsCovered b table rs) :
    view b spec (Points.upsert (rs.map fun r => (r.key, nodeOf r)) table) =
      rs.foldl mergeProps props := by
  induction rs generalizing table props with
  | nil => exact hview
  | cons r rs ih =>
    obtain ⟨hrow, hrest⟩ := h
    have hone := execute_eq (b := b) hspec table [r]
    simp only [List.map_cons, List.map_nil, Points.upsert_cons, Points.upsert_nil] at hone
    rw [hone] at hrest
    have hnow := (view_write_iff hspec table r).mpr hrow
    rw [hview] at hnow
    exact ih hnow hrest

theorem statements_eq (hspec : SpecSound spec) (batches : List (List (TypedRow spec))) :
    statements b spec batches =
      Points.upsert (batches.flatten.map fun r => (r.key, nodeOf r)) fun _ => none := by
  unfold statements
  generalize (fun _ => none : NodeTable) = table
  induction batches generalizing table with
  | nil => rfl
  | cons rs batches ih =>
    rw [List.foldl_cons, execute_eq hspec, ih, List.flatten_cons, List.map_append,
      Points.upsert_append]

theorem propStatements_eq (batches : List (List (TypedRow spec))) :
    propStatements batches = batches.flatten.foldl mergeProps fun _ => none := by
  rw [propStatements, List.foldl_flatten]

end Agreement

/-- **A table whose rows are all covered when they are written reads back as the schema-less store.**
-/
theorem view_statements (b : Builtins) (label : String)
    (batches : List (List (TypedRow (nodeSpec label))))
    (h : RowsCovered b (fun _ => none) batches.flatten) :
    view b (nodeSpec label) (statements b (nodeSpec label) batches) = propStatements batches := by
  have hspec := nodeSpec_sound label
  rw [statements_eq hspec, propStatements_eq]
  exact rows_agree hspec rfl h

/-! ## Samples -/

/-- The functions that the sample rows meet; no sample holds a JSON text. -/
def sampleBuiltins : Builtins where
  sha256Hex := id
  reprContainer _ := ""
  casefold := id
  parseInt _ := .error ""
  loads _ := none
  dumps _ := ""
  parseFloat _ := none

/-- Sample: a file as its first writer stores it. -/
def summarisedFile : TypedRow (nodeSpec "File") where
  row := [("id", .str "src/main.go"), ("name", .str "main.go"), ("summary", .str "entry point")]
  key := "src/main.go"
  keyed := rfl
  typed := by decide +kernel

/-- Sample: the same file as a writer stores it that knows no summary. -/
def namedFile : TypedRow (nodeSpec "File") where
  row := [("id", .str "src/main.go"), ("name", .str "main.go")]
  key := "src/main.go"
  keyed := rfl
  typed := by decide +kernel

/-- The second statement erases the summary that the first one stored. -/
theorem summary_erased :
    view sampleBuiltins (nodeSpec "File")
        (statements sampleBuiltins (nodeSpec "File") [[summarisedFile], [namedFile]]) ≠
      propStatements [[summarisedFile], [namedFile]] := by
  intro h
  have hspec := nodeSpec_sound "File"
  rw [statements_eq hspec] at h
  have hnode := congrFun h "src/main.go"
  have hview : (view sampleBuiltins (nodeSpec "File") (Points.upsert
      ([[summarisedFile], [namedFile]].flatten.map fun r => (r.key, nodeOf r))
        fun _ => none)) "src/main.go" =
      some (field (readBack sampleBuiltins (nodeSpec "File") (nodeOf namedFile))) := rfl
  rw [hview] at hnode
  have hsummary := congrFun (Option.some.inj hnode) "summary"
  rw [field_readBack_nodeOf hspec] at hsummary
  exact Json.noConfusion (hsummary : Json.null = .str "entry point")

theorem sample_plain (k : String) (value : Json) :
    decodeJsonColumn sampleBuiltins k value = value := by
  cases value with
  | str s =>
    simp only [decodeJsonColumn, sampleBuiltins]
    split <;> rfl
  | _ => rfl

theorem sample_keeps {props : Props} {k : String} (h : props k ≠ .null)
    (r : TypedRow (nodeSpec "File"))
    (hprops : ∀ k, k ≠ "id" → k ≠ "name" → props k = .null)
    (hid : (find? r.row "id").isSome) (hname : (find? r.row "name").isSome) :
    (find? r.row k).isSome := by
  by_cases h1 : k = "id"
  · exact h1 ▸ hid
  · by_cases h2 : k = "name"
    · exact h2 ▸ hname
    · exact absurd (hprops k h1 h2) h

theorem file_written_again :
    view sampleBuiltins (nodeSpec "File")
        (statements sampleBuiltins (nodeSpec "File") [[namedFile], [summarisedFile]]) =
      propStatements [[namedFile], [summarisedFile]] := by
  refine view_statements sampleBuiltins "File" [[namedFile], [summarisedFile]] ⟨?_, ?_, trivial⟩
  · refine ⟨fun k hk => sample_keeps hk namedFile ?_ rfl rfl, rfl, fun k => sample_plain k _⟩
    intro k hid _
    exact if_neg hid
  · refine ⟨fun k hk => sample_keeps hk summarisedFile ?_ rfl rfl, rfl, fun k => sample_plain k _⟩
    intro k hid hname
    have hnode : merged (view sampleBuiltins (nodeSpec "File")
        (execute sampleBuiltins (nodeSpec "File") (fun _ => none) [namedFile.row]))
          summarisedFile = field (readBack sampleBuiltins (nodeSpec "File") (nodeOf namedFile)) := by
      rw [show [namedFile.row] = [namedFile].map (·.row) from rfl, execute_eq (nodeSpec_sound _)]
      rfl
    rw [hnode, field_readBack_nodeOf (nodeSpec_sound _), sample_plain]
    simp [namedFile, field, find?, Ne.symm hid, Ne.symm hname]

end CortexHarness.Ladybug
