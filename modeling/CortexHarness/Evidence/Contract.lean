import CortexHarness.Library.Dict
import CortexHarness.Library.Fallible
import CortexHarness.Library.Python

/-!
# The call-evidence contract

Model of `call_evidence.py:29-186` and of the identities of `evidence_merge.py:45-113`: how a call
observation is classified (`normalize_call_row`), which one is strong (`is_strong_call_evidence`),
and the identities it is filed under (`evidence_identity`, `callsite_node_id`,
`logical_callsite_id`, `callsite_site_id`).

An observation is a dict of JSON values. What the functions take from the standard library is a
`Runtime`: `uuid.uuid5` in the URL namespace, `repr`, which integer a float equals, and the order of
values that are not all texts. Values are read the way Python reads them: `a or b` on any value,
`str` and `int` of it, `1 == True == 1.0` in a set, and an unhashable value raises.

Results:
* `normalize_reading`: normalising a row changes none of the identities, nor whether it is strong;
* `reading_of_agrees`: nor does any change to the fields that the merge writes.
-/

namespace CortexHarness.Evidence

open Json

/-- What the merge takes from the standard library. -/
structure Runtime extends Python where
  /-- `str(uuid.uuid5(uuid.NAMESPACE_URL, key))` -/
  uuid5 : String → String
  /-- `repr(value)` -/
  repr : Json → String
  /-- the integer a float is equal to -/
  floatInt : String → Option Int
  /-- `sorted(set(values))`, for values that are not all texts -/
  sortMixed : List Json → Except String (List Json)

/-- What the merge raises. -/
inductive MergeError where
  | value (message : String)
  | type (message : String)
  /-- `int` of a value that is no integer -/
  | convert (message : String)
  deriving Repr, DecidableEq

variable (rt : Runtime)

/-- `str(value or "")`. -/
def Runtime.textOr (value : Json) : String := rt.str (either value (.str ""))

/-- `int(value)`. -/
def Runtime.integer (value : Json) : Except MergeError Int :=
  match rt.int value with
  | .ok n => .ok n
  | .error message => .error (.convert message)

/-- `int(value) if value is not None else None`. -/
def Runtime.integer? (value : Json) : Except MergeError (Option Int) :=
  if value.isNull then .ok none else (rt.integer value).map some

/-- A value as a member of a set: equal numbers of different types are one member. -/
inductive Key where
  | none
  | int (n : Int)
  | float (repr : String)
  | str (s : String)
  deriving Repr, DecidableEq

/-- The member a value is, unless it is unhashable. -/
def Runtime.key : Json → Option Key
  | .null => some .none
  | .bool b => some (.int (if b then 1 else 0))
  | .int n => some (.int n)
  | .float repr =>
    match rt.floatInt repr with
    | some n => some (.int n)
    | none => some (.float repr)
  | .str s => some (.str s)
  | _ => none

/-- `value in texts` for a set of texts. -/
def memberOf (value : Json) (texts : List String) : Except MergeError Bool :=
  match value with
  | .str s => .ok (texts.contains s)
  | .arr _ => .error (.type "unhashable type: 'list'")
  | .obj _ => .error (.type "unhashable type: 'dict'")
  | _ => .ok false

/-! ## Classes -/

/-- `CALL_EVIDENCE_SCHEMA_VERSION`. -/
def callEvidenceSchemaVersion : String := "2"

/-- `RESOLUTION_CLASS_DIRECT_RESOLVED`. -/
def directResolved : String := "direct_resolved"

/-- `RESOLUTION_CLASS_LEXICAL_CANDIDATE`. -/
def lexicalCandidate : String := "lexical_candidate"

/-- `RESOLUTION_CLASSES`. -/
def resolutionClasses : List String :=
  [directResolved, "declared_virtual_target", "possible_dispatch_target", "indirect_callsite",
    "dependent_template_call", lexicalCandidate, "constructor_call", "unresolved"]

/-- `SEMANTIC_PROVIDERS`. -/
def semanticProviders : List String := ["clang_worker"]

/-- `COVERAGE_STATUSES`. -/
def coverageStatuses : List String :=
  ["complete", "partial", "ineligible", "failed", "not_analyzed"]

/-- `STRONG_CALL_REQUIRED_PROPS`. -/
def strongCallRequiredProps : List String :=
  ["resolution_class", "semantic_provider", "tu_key", "config_fingerprint", "callee_usr",
    "context_attestation", "manifest_key"]

/-- `isinstance(value, str) and value.strip()`. -/
def nonBlankText : Json → Bool
  | .str s => !blank s
  | _ => false

/-- `context_is_strictly_eligible`. -/
def contextIsStrictlyEligible (props : Row) : Bool :=
  (field props "context_fidelity").isText "faithful" &&
    (field props "context_admission").isText "accepted" &&
    (field props "execution_coverage").isText "complete" &&
    ["context_attestation", "manifest_key"].all fun key => nonBlankText (field props key)

/-- `is_strong_call_evidence`. -/
def isStrongCallEvidence (props : Row) : Except MergeError Bool :=
  if (field props "resolution_class").isText directResolved then do
    let approved ← memberOf (field props "semantic_provider") semanticProviders
    return approved && contextIsStrictlyEligible props &&
      strongCallRequiredProps.all fun prop => nonBlankText (field props prop)
  else .ok false

/-- `is_strong_call_evidence` of a row that does not make it raise. -/
def strong (props : Row) : Bool :=
  match isStrongCallEvidence props with
  | .ok b => b
  | .error _ => false

/-- `normalize_call_row`. -/
def normalizeCallRow (row : Row) : Except MergeError Row :=
  if (field row "resolution_class").isNull then
    .ok (setDefault (put row "resolution_class" (.str lexicalCandidate)) "semantic_provider"
      (.str "tree_sitter"))
  else do
    if ← memberOf (field row "resolution_class") resolutionClasses then return row
    else throw (.value
      ("unknown call resolution class: " ++ rt.repr (field row "resolution_class")))

/-! ## Identities -/

/-- What `_observation_site_parts` returns. -/
structure SiteParts where
  callerId : String
  filePath : String
  line : Int
  column : Int
  callType : String
  deriving Repr, DecidableEq

/-- `_observation_site_parts`. -/
def observationSiteParts (row : Row) : Except MergeError SiteParts := do
  let callerId := rt.textOr (either (field row "caller_id") (field row "caller_symbol_id"))
  let filePath := rt.textOr (either (field row "file_path") (field row "file"))
  let line ← rt.integer (either (either (field row "line") (field row "start_line")) (.int 0))
  let column ← rt.integer (either (either (field row "column") (field row "start_column")) (.int 0))
  let callType := rt.str (either (field row "call_type") (.str "call"))
  if callerId = "" ∨ filePath = "" ∨ line ≤ 0 then
    throw (.value ("call observations require caller identity and source position: " ++
      rt.repr (.str callerId) ++ "@" ++ rt.repr (.str filePath) ++ ":" ++ toString line ++ ":" ++
      toString column))
  else return { callerId, filePath, line, column, callType }

/-- `obs.get("callee_id") or obs.get("callee_symbol_id")`. -/
def callee (row : Row) : Json := either (field row "callee_id") (field row "callee_symbol_id")

/-- The payload of `evidence_identity`. -/
def evidencePayload (normalized : Row) (site : SiteParts) : Json :=
  .obj
    [("schema_version", .str callEvidenceSchemaVersion),
      ("site", .arr [.str site.callerId, .str site.filePath, .int site.line, .int site.column,
        .str site.callType]),
      ("callee_id", .str (rt.textOr (callee normalized))),
      ("callee_usr", .str (rt.textOr (field normalized "callee_usr"))),
      ("resolution_class", field normalized "resolution_class"),
      ("semantic_provider", field normalized "semantic_provider"),
      ("tu_key", .str (rt.textOr (field normalized "tu_key"))),
      ("config_fingerprint", .str (rt.textOr (field normalized "config_fingerprint"))),
      ("generated_code_class", .str (rt.textOr (field normalized "generated_code_class"))),
      ("source_map_quality", .str (rt.textOr (field normalized "source_map_quality")))]

/-- `evidence_identity`. -/
def evidenceIdentity (row : Row) : Except MergeError String := do
  let normalized ← normalizeCallRow rt row
  let site ← observationSiteParts rt normalized
  return rt.sha256Hex (evidencePayload rt normalized site).dumpsAscii

/-- `logical_callsite_id`. -/
def logicalCallsiteId (callerId filePath : String) (spellingOffset : Int)
    (expansionOffset : Option Int) (ordinal : Int) (callType : String) : String :=
  let expansion := expansionOffset.getD spellingOffset
  let path := String.ofList (filePath.toList.map fun c => if c = '\\' then '/' else c)
  rt.uuid5 (dumpsAscii (.obj
    [("schema", .str callEvidenceSchemaVersion), ("caller", .str callerId), ("file", .str path),
      ("spelling_offset", .int (max 0 spellingOffset)),
      ("expansion_offset", .int (max 0 expansion)), ("ordinal", .int (max 0 ordinal)),
      ("call_type", .str (if callType = "" then "call" else callType))]))

/-- `callsite_node_id`. -/
def callsiteNodeId (site : SiteParts) (spellingOffset expansionOffset : Option Int)
    (ordinal : Int) : String :=
  match spellingOffset with
  | some offset =>
    logicalCallsiteId rt site.callerId site.filePath offset expansionOffset ordinal site.callType
  | none =>
    rt.uuid5 (site.callerId ++ ":" ++ site.filePath ++ ":" ++ toString site.line ++ ":" ++
      toString site.column ++ ":" ++ site.callType)

/-- The `callsite_node_id` of an observation, from its offsets and its ordinal. -/
def observationNodeId (row : Row) (site : SiteParts) : Except MergeError String := do
  let spelling := if (field row "spelling_start_byte").isNull then field row "call_start_byte"
    else field row "spelling_start_byte"
  let spellingOffset ← rt.integer? spelling
  let expansionOffset ← rt.integer? (field row "expansion_start_byte")
  let ordinal ← rt.integer (either (field row "call_ordinal") (.int 0))
  return callsiteNodeId rt site spellingOffset expansionOffset ordinal

/-- `callsite_site_id`. -/
def callsiteSiteId (callerId calleeId filePath : String) (line column : Int) (callType : String) :
    String :=
  rt.uuid5 (callerId ++ ":" ++ calleeId ++ ":" ++ filePath ++ ":" ++ toString line ++ ":" ++
    toString column ++ ":" ++ callType)

/-- The `callsite_node_id` of an observation and the parts of its site. -/
def observationSite (row : Row) : Except MergeError (SiteParts × String) := do
  let site ← observationSiteParts rt row
  let siteId ← observationNodeId rt row site
  return (site, siteId)

/-! ## What the identities read -/

/-- The fields that classify an observation. -/
def classification : List String := ["resolution_class", "semantic_provider"]

/-- The fields that the merge writes. -/
def annotations : List String := ["project_id", "evidence_id", "observation_count", "_repeat_runs"]

/-- The merge reads the same from both rows. -/
structure SameReading (row row' : Row) : Prop where
  parts : observationSiteParts rt row' = observationSiteParts rt row
  nodeId : observationNodeId rt row' = observationNodeId rt row
  identity : evidenceIdentity rt row' = evidenceIdentity rt row
  strong : strong row' = strong row
  callee : callee row' = callee row
  calleeUsr : field row' "callee_usr" = field row "callee_usr"

variable {rt} {row row' : Row}

theorem SameReading.trans {row'' : Row} (h : SameReading rt row row')
    (h' : SameReading rt row' row'') : SameReading rt row row'' :=
  ⟨h'.parts.trans h.parts, h'.nodeId.trans h.nodeId, h'.identity.trans h.identity,
    h'.strong.trans h.strong, h'.callee.trans h.callee, h'.calleeUsr.trans h.calleeUsr⟩

theorem parts_of_agrees (h : Agrees (classification ++ annotations) row row') :
    observationSiteParts rt row' = observationSiteParts rt row := by
  unfold observationSiteParts
  rw [h "caller_id" (by decide), h "caller_symbol_id" (by decide), h "file_path" (by decide),
    h "file" (by decide), h "line" (by decide), h "start_line" (by decide), h "column" (by decide),
    h "start_column" (by decide), h "call_type" (by decide)]

theorem nodeId_of_agrees (h : Agrees (classification ++ annotations) row row') :
    observationNodeId rt row' = observationNodeId rt row := by
  unfold observationNodeId
  rw [h "spelling_start_byte" (by decide), h "call_start_byte" (by decide),
    h "expansion_start_byte" (by decide), h "call_ordinal" (by decide)]

theorem callee_of_agrees (h : Agrees (classification ++ annotations) row row') :
    callee row' = callee row := by
  unfold callee
  rw [h "callee_id" (by decide), h "callee_symbol_id" (by decide)]

/-- The row has a class of the contract. -/
def Classified (row : Row) : Prop := ∃ c ∈ resolutionClasses, field row "resolution_class" = .str c

theorem normalize_classified (h : Classified row) : normalizeCallRow rt row = .ok row := by
  obtain ⟨c, hc, he⟩ := h
  unfold normalizeCallRow
  rw [he]
  simp only [isNull, Bool.false_eq_true, if_false, memberOf, List.contains_eq_mem]
  rw [decide_eq_true hc]
  rfl

theorem classified_of_agrees (hc : Classified row) (h : Agrees annotations row row') :
    Classified row' := by
  obtain ⟨c, hc, he⟩ := hc
  exact ⟨c, hc, (h "resolution_class" (by decide)).trans he⟩

/-- The fields that the merge writes are read by none of its tests. -/
theorem reading_of_agrees (hc : Classified row) (h : Agrees annotations row row') :
    SameReading rt row row' := by
  have hall : Agrees (classification ++ annotations) row row' :=
    h.mono (List.subset_append_right _ _)
  have hparts : observationSiteParts rt row' = observationSiteParts rt row := parts_of_agrees hall
  have hcallee := callee_of_agrees hall
  have husr := h "callee_usr" (by decide)
  refine ⟨hparts, nodeId_of_agrees hall, ?_, ?_, hcallee, husr⟩
  · unfold evidenceIdentity
    rw [normalize_classified hc, normalize_classified (classified_of_agrees hc h)]
    simp only [Except.bind, bind]
    rw [hparts]
    have hpayload : ∀ site, evidencePayload rt row' site = evidencePayload rt row site := by
      intro site
      unfold evidencePayload
      rw [hcallee, husr, h "resolution_class" (by decide), h "semantic_provider" (by decide),
        h "tu_key" (by decide), h "config_fingerprint" (by decide),
        h "generated_code_class" (by decide), h "source_map_quality" (by decide)]
    simp only [hpayload]
  · unfold strong isStrongCallEvidence contextIsStrictlyEligible strongCallRequiredProps
    simp only [List.all_cons, List.all_nil]
    rw [husr, h "resolution_class" (by decide), h "semantic_provider" (by decide),
      h "tu_key" (by decide), h "config_fingerprint" (by decide),
      h "context_attestation" (by decide), h "manifest_key" (by decide),
      h "context_fidelity" (by decide), h "context_admission" (by decide),
      h "execution_coverage" (by decide)]

theorem normalize_cases {n : Row} (h : normalizeCallRow rt row = .ok n) :
    (n = row ∧ Classified row) ∨
      (field row "resolution_class" = .null ∧ Agrees classification row n ∧
        field n "resolution_class" = .str lexicalCandidate) := by
  unfold normalizeCallRow at h
  split at h
  · rename_i hnull
    refine .inr ⟨?_, ?_, ?_⟩
    · cases hf : field row "resolution_class" <;> simp [hf, isNull] at hnull ⊢
    · cases h
      exact (agrees_put (by decide) _).trans (agrees_setDefault (by decide) _)
    · cases h
      rw [field_setDefault, field_put]
      simp
  · obtain ⟨b, hb, h⟩ := Fallible.bind_ok.mp h
    cases b with
    | false => cases h
    | true =>
      cases h
      refine .inl ⟨rfl, ?_⟩
      unfold memberOf at hb
      cases hf : field row "resolution_class" <;> simp [hf] at hb
      exact ⟨_, hb, hf⟩

theorem normalize_classifies {n : Row} (h : normalizeCallRow rt row = .ok n) : Classified n := by
  rcases normalize_cases h with ⟨rfl, hc⟩ | ⟨-, -, hl⟩
  · exact hc
  · exact ⟨_, by decide, hl⟩

theorem normalize_agrees {n : Row} (h : normalizeCallRow rt row = .ok n) :
    Agrees classification row n := by
  rcases normalize_cases h with ⟨rfl, -⟩ | ⟨-, ha, -⟩
  · exact .refl
  · exact ha

/-- Normalising a row changes nothing that the merge reads. -/
theorem normalize_reading {n : Row} (h : normalizeCallRow rt row = .ok n) :
    SameReading rt row n := by
  have ha := normalize_agrees h
  have hall : Agrees (classification ++ annotations) row n :=
    ha.mono (List.subset_append_left _ _)
  refine ⟨parts_of_agrees hall, nodeId_of_agrees hall, ?_, ?_, callee_of_agrees hall,
    ha "callee_usr" (by decide)⟩
  · unfold evidenceIdentity
    rw [h, normalize_classified (normalize_classifies h)]
  · rcases normalize_cases h with ⟨rfl, -⟩ | ⟨hnull, -, hl⟩
    · rfl
    · unfold strong isStrongCallEvidence
      rw [hnull, hl]
      rfl

end CortexHarness.Evidence
