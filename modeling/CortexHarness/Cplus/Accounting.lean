import CortexHarness.Cplus.Validation

/-!
# Accounting of a payload

`accounting_for_payload` (`payload_validation.py:67-92, 725-738`) counts what is left of a payload
after its validation. `supplied` is what came in.

Results:
* `checkCollection_length`, `validateRecords_accounted`: where the records are looked at one by one,
  each of them is accepted, counted as a duplicate, or quarantined;
* **`accounting_exact_iff`**: a file that is quarantined as a whole loses its relations and calls, and
  under the legacy backend what is no mapping, and nothing else gets lost.
-/

namespace CortexHarness.Cplus

open Json Evidence Fallible

variable (rt : Runtime)

/-! ## Counts -/

/-- `PayloadAccounting` -/
structure PayloadAccounting where
  discovered : Nat
  accepted : Nat
  quarantined : Nat
  rejected : Nat
  balanced : discovered = accepted + quarantined + rejected

/-- `accounting_for_payload` -/
def accountingForPayload (p : Payload) (records : List QuarantineRecord) :
    Except MergeError PayloadAccounting := do
  let nodes ← Collection.all.mapM fun c => lengthOf (p.nodes c)
  let relations ← lengthOf p.relations
  let calls ← lengthOf p.calls
  let accepted := nodes.sum + relations + calls
  return ⟨accepted + records.length + p.rejectedCount, accepted, records.length, p.rejectedCount, rfl⟩

/-- How many records a value holds. -/
def records (value : Json) : Nat :=
  match iterate value with
  | .ok items => items.length
  | .error _ => 0

/-- The records supplied in a payload. -/
def supplied (p : Payload) : Nat :=
  (Collection.all.map fun c => records (p.nodes c)).sum + records p.relations + records p.calls

/-- The path of the file is valid. -/
def validPath (p : Payload) : Bool :=
  match dictOr p.fileDef with
  | .ok fileDef => (normalizeRelativePath (recordPath rt fileDef "")).isSome
  | .error _ => false

/-- The structure comes from the legacy backend. -/
def legacyBackend (p : Payload) : Bool :=
  match structuralBackend rt p with
  | .ok backend => backend = "libclang"
  | .error _ => false

/-- The records are looked at one by one. -/
def looksAtRecords (p : Payload) : Bool := validPath rt p && !legacyBackend rt p

/-- The quarantine record of the file itself. -/
def fileRecords (p : Payload) : Nat := if looksAtRecords rt p then 0 else 1

/-- Every record supplied was accepted, counted or quarantined. -/
def Accounted (p : Payload) (v : Validated) : Prop :=
  ∃ accounting, accountingForPayload v.payload v.quarantine = .ok accounting ∧
    supplied p + fileRecords rt p =
      accounting.accepted + accounting.rejected + accounting.quarantined

/-- The file is not quarantined as a whole, or there is nothing that gets lost. -/
def Accountable (p : Payload) : Prop :=
  looksAtRecords rt p = true ∨
    records p.relations = 0 ∧ records p.calls = 0 ∧
      (validPath rt p = true → ∀ c items, iterate (p.nodes c) = .ok items → nonMappings items = [])

variable {rt} {p : Payload} {v : Validated} {args : Arguments} {scope : Scope} {ids : Ids}
  {c : Collection} {items : List Json}

/-! ## Exits -/

/-- A list is split by two readings that exclude each other. -/
theorem length_filterMap_add {α β γ : Type} {f : α → Option β} {g : α → Option γ}
    (h : ∀ a, (g a).isSome = !(f a).isSome) (l : List α) :
    (l.filterMap f).length + (l.filterMap g).length = l.length := by
  rw [List.length_filterMap_eq_countP, List.length_filterMap_eq_countP,
    List.length_eq_countP_add_countP (p := fun a => (f a).isSome) (l := l)]
  congr 2
  funext a
  rw [h]
  cases (f a).isSome <;> rfl

theorem length_mappings (items : List Json) :
    (mappings items).length + (nonMappings items).length = items.length := by
  induction items with
  | nil => rfl
  | cons item items ih => cases item <;> simp [mappings, nonMappings] at ih ⊢ <;> omega

theorem length_verdicts (verdicts : List Verdict) : (verdicts.filterMap Verdict.row?).length +
    (verdicts.filterMap Verdict.record?).length = verdicts.length :=
  length_filterMap_add (fun verdict => by cases verdict <;> rfl) verdicts

theorem length_edges (edges : List Edge) : (edges.filterMap Edge.row?).length +
    (edges.filterMap Edge.record?).length = edges.length :=
  length_filterMap_add (fun edge => by cases edge <;> rfl) edges

theorem settleRows_length {rows : List Row} {rest : List (Row × Nat)} {seen : List String}
    {checked : Checked} (h : settleRows rt scope c rows rest seen = .ok checked) :
    checked.rows.length + checked.quarantine.length + checked.rejected = rest.length := by
  induction rest generalizing seen checked with
  | nil =>
    cases h
    rfl
  | cons r rest ih =>
    rw [settleRows] at h
    split at h
    · obtain ⟨record, -, h⟩ := bind_ok.mp h
      obtain ⟨checked, hrest, h⟩ := bind_ok.mp h
      cases h
      have hlen := ih hrest
      simp only [List.length_cons]
      omega
    · split at h
      · obtain ⟨checked, hrest, h⟩ := bind_ok.mp h
        cases h
        have hlen := ih hrest
        simp only [List.length_cons]
        omega
      · obtain ⟨checked, hrest, h⟩ := bind_ok.mp h
        cases h
        have hlen := ih hrest
        simp only [List.length_cons]
        omega

/-- Every item of a collection has one exit. -/
theorem checkCollection_length {checked : Checked}
    (h : checkCollection rt scope c items = .ok checked) :
    checked.rows.length + checked.quarantine.length + checked.rejected = items.length := by
  obtain ⟨strays, hstrays, h⟩ := bind_ok.mp h
  have hstrays := mapM_length hstrays
  have hitems := length_mappings items
  split at h
  · obtain ⟨records, hrecords, h⟩ := bind_ok.mp h
    cases h
    have hrecords := mapM_length hrecords
    simp only [List.length_nil, List.length_append]
    omega
  · obtain ⟨verdicts, hverdicts, h⟩ := bind_ok.mp h
    obtain ⟨settled, hsettled, h⟩ := bind_ok.mp h
    cases h
    have hverdicts := mapM_length hverdicts
    have hsplit := length_verdicts verdicts
    have hsettled := settleRows_length hsettled
    rw [List.length_zipIdx] at hsettled
    simp only [List.length_append]
    omega

/-! ## Totals -/

theorem records_of_iterate {value : Json} (h : iterate value = .ok items) :
    records value = items.length := by
  rw [records, h]

theorem lengthOf_arr (items : List Json) : lengthOf (.arr items) = .ok items.length := by
  cases items <;> rfl

theorem accounting_of_arr {rows : Collection → List Json} {relations calls : List Json}
    (hrows : ∀ c, p.nodes c = .arr (rows c)) (hrelations : p.relations = .arr relations)
    (hcalls : p.calls = .arr calls) (quarantined : List QuarantineRecord) :
    ∃ accounting, accountingForPayload p quarantined = .ok accounting ∧
      accounting.accepted = (Collection.all.map fun c => (rows c).length).sum + relations.length +
        calls.length ∧ accounting.rejected = p.rejectedCount ∧
      accounting.quarantined = quarantined.length := by
  have hnodes : (Collection.all.mapM fun c => lengthOf (p.nodes c)) =
      .ok (Collection.all.map fun c => (rows c).length) :=
    mapM_eq_map fun c _ => by rw [hrows, lengthOf_arr]
  unfold accountingForPayload
  rw [hnodes, hrelations, hcalls, lengthOf_arr, lengthOf_arr]
  exact ⟨_, rfl, rfl, rfl, rfl⟩

/-- The loop over the collections looks at each of them. -/
theorem checkCollections_ok {checked : List (Collection × Checked)}
    (h : checkCollections rt scope p = .ok checked) : ∃ g : Collection → Checked,
      checked = Collection.all.map (fun c => (c, g c)) ∧ ∀ c, ∃ items,
        iterate (p.nodes c) = .ok items ∧ checkCollection rt scope c items = .ok (g c) := by
  have hbeside : (Collection.all.mapM fun c => do
      return (c, ← (do checkCollection rt scope c (← iterate (p.nodes c))))) = .ok checked := by
    rw [← h, checkCollections]
    simp only [bind_assoc]
  obtain ⟨g, hchecked, hg⟩ := mapM_beside hbeside
  exact ⟨g, hchecked, fun c => bind_ok.mp (hg c (Collection.mem_all c))⟩

theorem rowsOf_map (g : Collection → Checked) (c : Collection) :
    rowsOf (Collection.all.map fun c => (c, g c)) c = (g c).rows := by
  cases c <;> simp [rowsOf, Collection.all]

/-- **Where the records are looked at, none gets lost.** -/
theorem validateRecords_accounted {fileDef : Row}
    (h : validateRecords rt scope p fileDef = .ok v) :
    ∃ accounting, accountingForPayload v.payload v.quarantine = .ok accounting ∧
      supplied p = accounting.accepted + accounting.rejected + accounting.quarantined := by
  obtain ⟨checked, hchecked, h⟩ := bind_ok.mp h
  obtain ⟨relationItems, hrelationItems, h⟩ := bind_ok.mp h
  obtain ⟨relations, hrelations, h⟩ := bind_ok.mp h
  obtain ⟨callItems, hcallItems, h⟩ := bind_ok.mp h
  obtain ⟨calls, hcalls, h⟩ := bind_ok.mp h
  cases h
  obtain ⟨g, rfl, hg⟩ := checkCollections_ok hchecked
  obtain ⟨accounting, haccounting, haccepted, hrejected, hquarantined⟩ :=
    accounting_of_arr (p := { p with
      fileDef := .obj fileDef
      nodes := fun c => .arr ((rowsOf (Collection.all.map fun c => (c, g c)) c).map .obj)
      relations := .arr ((relations.filterMap Edge.row?).map .obj)
      calls := .arr ((calls.filterMap Edge.row?).map .obj)
      rejectedCount := ((Collection.all.map fun c => (c, g c)).map fun r => r.2.rejected).sum })
      (fun _ => rfl) rfl rfl
      (((Collection.all.map fun c => (c, g c)).flatMap fun r => r.2.quarantine) ++
        relations.filterMap Edge.record? ++ calls.filterMap Edge.record?)
  refine ⟨accounting, haccounting, ?_⟩
  have hnode : ∀ c, records (p.nodes c) =
      (g c).rows.length + (g c).quarantine.length + (g c).rejected := by
    intro c
    obtain ⟨items, hitems, hc⟩ := hg c
    rw [records_of_iterate hitems, checkCollection_length hc]
  have hrelations := (mapM_length hrelations).symm.trans (length_edges relations).symm
  have hcalls := (mapM_length hcalls).symm.trans (length_edges calls).symm
  rw [haccepted, hrejected, hquarantined, supplied, records_of_iterate hrelationItems,
    records_of_iterate hcallItems, hrelations, hcalls]
  simp only [hnode, rowsOf_map, List.sum_map_add, List.length_append, List.length_flatMap,
    List.length_map, List.map_map, Function.comp_def]
  omega

/-! ## Files quarantined as a whole -/

theorem emptied_accounting (fileDef : Row) (quarantined : List QuarantineRecord) :
    ∃ accounting, accountingForPayload (emptied p fileDef) quarantined = .ok accounting ∧
      accounting.accepted = 0 ∧ accounting.rejected = 0 ∧
      accounting.quarantined = quarantined.length := by
  have hrows : ∀ c, (emptied p fileDef).nodes c = .arr ((fun _ => []) c) := fun _ => rfl
  obtain ⟨accounting, haccounting, haccepted, hrejected, hquarantined⟩ :=
    accounting_of_arr hrows rfl rfl quarantined
  refine ⟨accounting, haccounting, haccepted.trans ?_, hrejected, hquarantined⟩
  simp

theorem emptied_accounted_iff {fileDef : Row} {quarantined : List QuarantineRecord}
    (hfile : looksAtRecords rt p = false) :
    Accounted rt p ⟨emptied p fileDef, quarantined⟩ ↔ supplied p + 1 = quarantined.length := by
  obtain ⟨accounting, haccounting, haccepted, hrejected, hquarantined⟩ :=
    emptied_accounting (p := p) fileDef quarantined
  have hone : fileRecords rt p = 1 := by
    rw [fileRecords, hfile]
    rfl
  constructor
  · rintro ⟨accounting', haccounting', h⟩
    cases haccounting.symm.trans haccounting'
    omega
  · intro h
    exact ⟨accounting, haccounting, by omega⟩

theorem validate_cases (h : validateCplusPayload rt args p = .ok v) :
    ∃ fileDef backend, dictOr p.fileDef = .ok fileDef ∧ structuralBackend rt p = .ok backend ∧
      (normalizeRelativePath (recordPath rt fileDef "") = none ∧ invalidPath rt p fileDef = .ok v ∨
        ∃ path, normalizeRelativePath (recordPath rt fileDef "") = some path ∧
          (backend = "libclang" ∧ legacyStructure rt p
              (withDefaults (put fileDef "file_path" (.str path))) path = .ok v ∨
            backend ≠ "libclang" ∧ ∃ quarantined, fileQuarantined rt p
                (withDefaults (put fileDef "file_path" (.str path))) = .ok quarantined ∧
              validateRecords rt ⟨args.projectId, args.known, args.blocked, path, quarantined⟩ p
                (withDefaults (put fileDef "file_path" (.str path))) = .ok v)) := by
  obtain ⟨fileDef, hfileDef, h⟩ := bind_ok.mp h
  obtain ⟨backend, hbackend, h⟩ := bind_ok.mp h
  refine ⟨fileDef, backend, hfileDef, hbackend, ?_⟩
  split at h
  · next hpath => exact Or.inl ⟨hpath, h⟩
  · next path hpath =>
    refine Or.inr ⟨path, hpath, ?_⟩
    split at h
    · next hlegacy => exact Or.inl ⟨hlegacy, h⟩
    · next hbackend =>
      obtain ⟨quarantined, hquarantined, h⟩ := bind_ok.mp h
      exact Or.inr ⟨hbackend, quarantined, hquarantined, h⟩

theorem invalidPath_accounted_iff {fileDef : Row} (hfile : looksAtRecords rt p = false)
    (h : invalidPath rt p fileDef = .ok v) :
    Accounted rt p v ↔ records p.relations = 0 ∧ records p.calls = 0 := by
  obtain ⟨file, -, h⟩ := bind_ok.mp h
  obtain ⟨rows, hrows, h⟩ := bind_ok.mp h
  cases h
  have hlength := mapM_flatten_length (n := fun c => records (p.nodes c)) (fun c results hc => by
    obtain ⟨items, hitems, hc⟩ := bind_ok.mp hc
    rw [records_of_iterate hitems, mapM_length hc]) hrows
  rw [emptied_accounted_iff hfile, List.length_cons, hlength, supplied]
  omega

theorem legacyStructure_accounted_iff {fileDef : Row} {path : String}
    (hfile : looksAtRecords rt p = false) (h : legacyStructure rt p fileDef path = .ok v) :
    Accounted rt p v ↔ records p.relations = 0 ∧ records p.calls = 0 ∧
      ∀ c items, iterate (p.nodes c) = .ok items → nonMappings items = [] := by
  obtain ⟨file, -, h⟩ := bind_ok.mp h
  obtain ⟨rows, hrows, h⟩ := bind_ok.mp h
  cases h
  -- What is left out of a collection.
  let stray (c : Collection) : Nat := match iterate (p.nodes c) with
    | .ok items => (nonMappings items).length
    | .error _ => 0
  have hlength := mapM_flatten_length (n := fun c => records (p.nodes c) - stray c)
    (fun c results hc => by
      obtain ⟨items, hitems, hc⟩ := bind_ok.mp hc
      have hsplit := length_mappings items
      have hstray : stray c = (nonMappings items).length := by
        simp only [stray, hitems]
      have hresults := mapM_length hc
      rw [records_of_iterate hitems, hstray]
      omega) hrows
  have hle : ∀ c, stray c ≤ records (p.nodes c) := by
    intro c
    simp only [stray, records]
    split
    · exact List.length_filter_le _ _
    · exact Nat.le_refl 0
  have htotal : (Collection.all.map fun c => records (p.nodes c)).sum =
      (Collection.all.map fun c => records (p.nodes c) - stray c).sum +
        (Collection.all.map stray).sum := by
    rw [← List.sum_map_add]
    exact congrArg List.sum (List.map_congr_left fun c _ => (Nat.sub_add_cancel (hle c)).symm)
  have hstray : (Collection.all.map stray).sum = 0 ↔
      ∀ c items, iterate (p.nodes c) = .ok items → nonMappings items = [] := by
    rw [List.sum_eq_zero_iff_forall_eq_nat]
    constructor
    · intro hzero c items hitems
      have hc := hzero _ (List.mem_map_of_mem (Collection.mem_all c))
      simpa only [stray, hitems, List.length_eq_zero_iff] using hc
    · intro hnone n hn
      obtain ⟨c, -, rfl⟩ := List.mem_map.mp hn
      simp only [stray]
      split
      · next items hitems => rw [hnone c items hitems, List.length_nil]
      · rfl
  rw [emptied_accounted_iff hfile, List.length_cons, hlength, supplied, ← hstray]
  omega

/-- **The accounting is exact** for a file whose records are looked at, and for one that is
quarantined as a whole if there was nothing to lose. -/
theorem accounting_exact_iff (rt : Runtime) (args : Arguments) (p : Payload) (v : Validated)
    (h : validateCplusPayload rt args p = .ok v) : Accounted rt p v ↔ Accountable rt p := by
  obtain ⟨fileDef, backend, hfileDef, hbackend, hcase⟩ := validate_cases h
  have hvalid : validPath rt p =
      (normalizeRelativePath (recordPath rt fileDef "")).isSome := by
    rw [validPath, hfileDef]
  have hlegacy : legacyBackend rt p = decide (backend = "libclang") := by
    rw [legacyBackend, hbackend]
  rcases hcase with ⟨hpath, h⟩ | ⟨path, hpath, ⟨hlib, h⟩ | ⟨hlib, quarantined, -, h⟩⟩
  · have hinvalid : validPath rt p = false := by rw [hvalid, hpath]; rfl
    have hlooks : looksAtRecords rt p = false := by rw [looksAtRecords, hinvalid, Bool.false_and]
    rw [invalidPath_accounted_iff hlooks h, Accountable, hlooks, hinvalid]
    simp
  · have hpath : validPath rt p = true := by rw [hvalid, hpath]; rfl
    have hlooks : looksAtRecords rt p = false := by simp [looksAtRecords, hlegacy, hlib]
    rw [legacyStructure_accounted_iff hlooks h, Accountable, hlooks, hpath]
    simp
  · have hpath : validPath rt p = true := by rw [hvalid, hpath]; rfl
    have hlooks : looksAtRecords rt p = true := by simp [looksAtRecords, hpath, hlegacy, hlib]
    obtain ⟨accounting, haccounting, hsum⟩ := validateRecords_accounted h
    refine iff_of_true ⟨accounting, haccounting, ?_⟩ (Or.inl hlooks)
    rw [fileRecords, hlooks, if_pos rfl, Nat.add_zero]
    exact hsum

/-- A runtime for texts. -/
def textRuntime : Runtime where
  sha256Hex text := text
  reprContainer _ := "container"
  casefold text := text
  parseInt _ := .error "no integer"
  uuid5 key := key
  repr _ := "value"
  floatInt _ := none
  sortMixed values := .ok values

/-- A file that includes itself, and nothing else. -/
def samplePayload (path : String) : Payload where
  fileDef := .obj [("file_path", .str path)]
  qualityProvenance := .null
  parseMeta := .null
  evidencePolicy := .null
  nodes _ := .null
  relations := .arr [.obj [("source_label", .str "File"), ("target_label", .str "File"),
    ("source_id", .str "a.c"), ("target_id", .str "a.c"), ("rel_type", .str "INCLUDES")]]
  calls := .null
  rejectedCount := 0
  quarantineEntire := false

theorem accounting_exact_sample : ∃ v,
    validateCplusPayload textRuntime ⟨"p", none, none⟩ (samplePayload "src/../a.c") = .ok v ∧
      Accounted textRuntime (samplePayload "src/../a.c") v := by
  refine ⟨_, rfl, ?_⟩
  rw [accounting_exact_iff textRuntime ⟨"p", none, none⟩ _ _ rfl]
  exact Or.inl (by decide +kernel)

/-- **A relation gets lost** where the path of the file leads out of the repository. -/
theorem relation_lost : ∃ v,
    validateCplusPayload textRuntime ⟨"p", none, none⟩ (samplePayload "../a.c") = .ok v ∧
      ¬ Accounted textRuntime (samplePayload "../a.c") v := by
  refine ⟨_, rfl, ?_⟩
  rw [emptied_accounted_iff (by decide +kernel)]
  decide +kernel

end CortexHarness.Cplus
