import CortexHarness.Evidence.Sites
import CortexHarness.Library.Grouping
import Mathlib.Data.List.Dedup
import Mathlib.Data.List.Sort

/-!
# The exact frontier

Model of `semantic_scope_key` and `exact_frontier_coverage` (`call_evidence.py:592-649`): the scope
keys that a query expects are compared with those of the coverage records it reads. The records are
grouped by their key, and what the two sets and the groups say wrong of the scope is its reasons.

Results:
* `reasons_eq_nil_iff`: there is none exactly when the records match the expected keys one to one,
  and all are complete;
* `exact_frontier`: so the status is `complete` exactly then, and in every order of the records.
-/

namespace CortexHarness.Evidence

open Json

variable (rt : Runtime)

/-- `_SCOPE_KEY_FIELDS`. -/
def scopeKeyFields : List String :=
  ["project_id", "generation_id", "revision", "policy_version", "tu_key", "config_fingerprint"]

/-- `semantic_scope_key`. -/
def semanticScopeKey (record : Row) : List String :=
  scopeKeyFields.map fun key => rt.textOr (field record key)

/-- `str(record.get("status") or "") == "complete"`. -/
def isComplete (record : Row) : Bool := rt.textOr (field record "status") = "complete"

/-- The counters of a scope with expected keys. -/
structure FrontierCounts where
  missingKeyCount : Nat
  unexpectedKeyCount : Nat
  duplicateKeyCount : Nat
  incompleteKeyCount : Nat
  scopeFingerprint : String
  deriving Repr, DecidableEq

/-- What `exact_frontier_coverage` returns. -/
structure CoverageBlock where
  status : String
  expectedKeyCount : Nat
  actualKeyCount : Nat
  reasons : List String
  counts : Option FrontierCounts
  deriving Repr, DecidableEq

/-- `sorted(keys)`. -/
def sortedKeys (keys : List (List String)) : List (List String) :=
  keys.insertionSort (· ≤ ·)

/-- `actual_by_key`; `counts` holds the lengths of its lists. -/
def actualByKey (actual : List Row) : List (List String × List Row) :=
  Grouping.groups (actual.map fun record => (semanticScopeKey rt record, record))

/-- `missing`. -/
def missingKeys (expectedSet : List (List String)) (byKey : List (List String × List Row)) :
    List (List String) :=
  sortedKeys (expectedSet.filter fun key => key ∉ byKey.map Prod.fst)

/-- `unexpected`. -/
def unexpectedKeys (expectedSet : List (List String)) (byKey : List (List String × List Row)) :
    List (List String) :=
  sortedKeys ((byKey.map Prod.fst).filter fun key => key ∉ expectedSet)

/-- `duplicates`. -/
def duplicateKeys (byKey : List (List String × List Row)) : List (List String) :=
  sortedKeys ((byKey.filter fun group => group.2.length ≠ 1).map Prod.fst)

/-- `len(records) != 1 or str(records[0].get("status") or "") != "complete"`. -/
def isIncomplete : List Row → Bool
  | [record] => !isComplete rt record
  | _ => true

/-- `incomplete`. -/
def incompleteKeys (expectedSet : List (List String)) (byKey : List (List String × List Row)) :
    List (List String) :=
  sortedKeys ((byKey.filter fun group => group.1 ∈ expectedSet && isIncomplete rt group.2).map
    Prod.fst)

/-- The reasons, in the order in which they are tested. -/
def frontierReasons (missing unexpected duplicates incomplete : List (List String)) : List String :=
  (if missing = [] then [] else ["scope_keys_missing"]) ++
    (if unexpected = [] then [] else ["scope_keys_unexpected"]) ++
    (if duplicates = [] then [] else ["scope_keys_duplicate"]) ++
    (if incomplete = [] then [] else ["scope_keys_incomplete"])

/-- `exact_frontier_coverage`. -/
def exactFrontierCoverage (expectedKeys actualRecords : List Row) : CoverageBlock :=
  let expected := expectedKeys.map (semanticScopeKey rt)
  if expected = [] then
    { status := "unknown", expectedKeyCount := 0, actualKeyCount := actualRecords.length
      reasons := ["semantic_scope_manifest_missing"], counts := none }
  else
    let expectedSet := expected.dedup
    let byKey := actualByKey rt actualRecords
    let missing := missingKeys expectedSet byKey
    let unexpected := unexpectedKeys expectedSet byKey
    let duplicates := duplicateKeys byKey
    let incomplete := incompleteKeys rt expectedSet byKey
    let reasons := frontierReasons missing unexpected duplicates incomplete
    { status := if reasons = [] then "complete" else "partial"
      expectedKeyCount := expectedSet.length
      actualKeyCount := actualRecords.length
      reasons
      counts := some
        { missingKeyCount := missing.length
          unexpectedKeyCount := unexpected.length
          duplicateKeyCount := duplicates.length
          incompleteKeyCount := incomplete.length
          scopeFingerprint := rt.sha256Hex (dumpsAscii (.arr ((sortedKeys expectedSet).map
            fun key => .arr (key.map .str)))) } }

/-! ## The frontier that is meant -/

/-- The records with a key. -/
def recordsOf (key : List String) (actual : List Row) : List Row :=
  actual.filter fun record => semanticScopeKey rt record = key

/-- The records match the expected keys one to one, and all are complete. -/
structure ExactFrontier (expected actual : List Row) : Prop where
  named : expected ≠ []
  covered : ∀ e ∈ expected, ∃ record, recordsOf rt (semanticScopeKey rt e) actual = [record] ∧
    isComplete rt record = true
  bounded : ∀ record ∈ actual, ∃ e ∈ expected, semanticScopeKey rt record = semanticScopeKey rt e

variable {rt} {expected actual : List Row} {key : List String}

theorem sortedKeys_eq_nil {keys : List (List String)} : sortedKeys keys = [] ↔ keys = [] := by
  unfold sortedKeys
  rw [← List.length_eq_zero_iff, List.length_insertionSort, List.length_eq_zero_iff]

theorem valuesOf_actual :
    Grouping.valuesOf key (actual.map fun record => (semanticScopeKey rt record, record)) =
      recordsOf rt key actual := by
  unfold Grouping.valuesOf recordsOf
  induction actual with
  | nil => rfl
  | cons record actual ih =>
    by_cases h : semanticScopeKey rt record = key
    · simp [h, ih]
    · simp [h, ih]

theorem mem_actualKeys : key ∈ (actualByKey rt actual).map Prod.fst ↔
    ∃ record ∈ actual, semanticScopeKey rt record = key := by
  unfold actualByKey
  rw [Grouping.mem_keys]
  simp

theorem mem_actualByKey {records : List Row} : (key, records) ∈ actualByKey rt actual ↔
    (∃ record ∈ actual, semanticScopeKey rt record = key) ∧ records = recordsOf rt key actual := by
  unfold actualByKey
  rw [Grouping.mem_groups, valuesOf_actual]
  simp

/-! ## The reasons -/

theorem missing_eq_nil_iff : missingKeys ((expected.map (semanticScopeKey rt)).dedup)
    (actualByKey rt actual) = [] ↔
      ∀ e ∈ expected, ∃ record ∈ actual, semanticScopeKey rt record = semanticScopeKey rt e := by
  unfold missingKeys
  rw [sortedKeys_eq_nil, List.filter_eq_nil_iff]
  simp only [List.mem_dedup, List.forall_mem_map, decide_eq_true_iff, not_not, mem_actualKeys]

theorem unexpected_eq_nil_iff : unexpectedKeys ((expected.map (semanticScopeKey rt)).dedup)
    (actualByKey rt actual) = [] ↔
      ∀ record ∈ actual, ∃ e ∈ expected, semanticScopeKey rt record = semanticScopeKey rt e := by
  unfold unexpectedKeys
  rw [sortedKeys_eq_nil, List.filter_eq_nil_iff]
  constructor
  · intro h record hrecord
    have hmem := h _ (mem_actualKeys.mpr ⟨record, hrecord, rfl⟩)
    rw [decide_eq_true_iff, not_not, List.mem_dedup, List.mem_map] at hmem
    obtain ⟨e, he, hkey⟩ := hmem
    exact ⟨e, he, hkey.symm⟩
  · intro h key hkey
    obtain ⟨record, hrecord, rfl⟩ := mem_actualKeys.mp hkey
    obtain ⟨e, he, hsame⟩ := h record hrecord
    rw [decide_eq_true_iff, not_not, List.mem_dedup, List.mem_map]
    exact ⟨e, he, hsame.symm⟩

theorem duplicate_eq_nil_iff : duplicateKeys (actualByKey rt actual) = [] ↔
    ∀ record ∈ actual, (recordsOf rt (semanticScopeKey rt record) actual).length = 1 := by
  unfold duplicateKeys
  rw [sortedKeys_eq_nil, List.map_eq_nil_iff, List.filter_eq_nil_iff]
  constructor
  · intro h record hrecord
    simpa using h (semanticScopeKey rt record, recordsOf rt (semanticScopeKey rt record) actual)
      (mem_actualByKey.mpr ⟨⟨record, hrecord, rfl⟩, rfl⟩)
  · rintro h ⟨key, records⟩ hgroup
    obtain ⟨⟨record, hrecord, rfl⟩, rfl⟩ := mem_actualByKey.mp hgroup
    simpa using h record hrecord

theorem incomplete_eq_nil_iff : incompleteKeys rt ((expected.map (semanticScopeKey rt)).dedup)
    (actualByKey rt actual) = [] ↔
      ∀ e ∈ expected, (∃ record ∈ actual, semanticScopeKey rt record = semanticScopeKey rt e) →
        isIncomplete rt (recordsOf rt (semanticScopeKey rt e) actual) = false := by
  unfold incompleteKeys
  rw [sortedKeys_eq_nil, List.map_eq_nil_iff, List.filter_eq_nil_iff]
  constructor
  · intro h e he hrecord
    have hgroup := h (semanticScopeKey rt e, recordsOf rt (semanticScopeKey rt e) actual)
      (mem_actualByKey.mpr ⟨hrecord, rfl⟩)
    have hmem : semanticScopeKey rt e ∈ (expected.map (semanticScopeKey rt)).dedup :=
      List.mem_dedup.mpr (List.mem_map_of_mem he)
    simpa [hmem] using hgroup
  · rintro h ⟨key, records⟩ hgroup
    obtain ⟨hrecord, rfl⟩ := mem_actualByKey.mp hgroup
    rw [Bool.and_eq_true, decide_eq_true_iff, not_and, Bool.not_eq_true]
    intro hmem
    obtain ⟨e, he, rfl⟩ := List.mem_map.mp (List.mem_dedup.mp hmem)
    exact h e he hrecord

theorem isIncomplete_eq_false {records : List Row} :
    isIncomplete rt records = false ↔ ∃ record, records = [record] ∧ isComplete rt record = true := by
  match records with
  | [] => simp [isIncomplete]
  | [record] => simp [isIncomplete]
  | a :: b :: rest => simp [isIncomplete]

/-- **No reason is left** exactly when the records match the expected keys one to one, and all are
complete. -/
theorem reasons_eq_nil_iff (hne : expected ≠ []) :
    frontierReasons (missingKeys ((expected.map (semanticScopeKey rt)).dedup) (actualByKey rt actual))
        (unexpectedKeys ((expected.map (semanticScopeKey rt)).dedup) (actualByKey rt actual))
        (duplicateKeys (actualByKey rt actual))
        (incompleteKeys rt ((expected.map (semanticScopeKey rt)).dedup) (actualByKey rt actual)) =
      [] ↔ ExactFrontier rt expected actual := by
  have hsplit : ∀ missing unexpected duplicates incomplete : List (List String),
      frontierReasons missing unexpected duplicates incomplete = [] ↔
        missing = [] ∧ unexpected = [] ∧ duplicates = [] ∧ incomplete = [] := by
    intro missing unexpected duplicates incomplete
    unfold frontierReasons
    simp only [List.append_eq_nil_iff, ite_eq_left_iff, List.cons_ne_nil, imp_false, not_not,
      and_assoc]
  rw [hsplit, missing_eq_nil_iff, unexpected_eq_nil_iff, duplicate_eq_nil_iff,
    incomplete_eq_nil_iff]
  constructor
  · rintro ⟨hmissing, hunexpected, -, hincomplete⟩
    exact ⟨hne, fun e he => isIncomplete_eq_false.mp (hincomplete e he (hmissing e he)), hunexpected⟩
  · rintro ⟨-, hcovered, hbounded⟩
    refine ⟨fun e he => ?_, hbounded, fun record hrecord => ?_, fun e he _ => ?_⟩
    · obtain ⟨record, hrecords, -⟩ := hcovered e he
      have hmem : record ∈ recordsOf rt (semanticScopeKey rt e) actual := by
        rw [hrecords]
        exact List.mem_cons_self
      obtain ⟨hin, hkey⟩ := List.mem_filter.mp hmem
      exact ⟨record, hin, of_decide_eq_true hkey⟩
    · obtain ⟨e, he, hkey⟩ := hbounded record hrecord
      obtain ⟨r, hrecords, -⟩ := hcovered e he
      rw [hkey, hrecords]
      rfl
    · exact isIncomplete_eq_false.mpr (hcovered e he)

/-- The frontier that is meant does not depend on the order of the records. -/
theorem ExactFrontier.perm {actual' : List Row} (h : ExactFrontier rt expected actual)
    (hperm : actual.Perm actual') : ExactFrontier rt expected actual' := by
  refine ⟨h.named, fun e he => ?_, fun record hrecord => h.bounded record
    (hperm.mem_iff.mpr hrecord)⟩
  obtain ⟨record, hrecords, hcomplete⟩ := h.covered e he
  refine ⟨record, ?_, hcomplete⟩
  have hfilter := hperm.filter fun r => decide (semanticScopeKey rt r = semanticScopeKey rt e)
  have hsingle : [record].Perm (recordsOf rt (semanticScopeKey rt e) actual') := hrecords ▸ hfilter
  exact List.singleton_perm.mp hsingle |>.symm

theorem status_eq (hne : expected ≠ []) :
    ((exactFrontierCoverage rt expected actual).status = "complete" ↔
      ExactFrontier rt expected actual) ∧
    ((exactFrontierCoverage rt expected actual).status ≠ "complete" →
      (exactFrontierCoverage rt expected actual).status = "partial") := by
  unfold exactFrontierCoverage
  simp only [List.map_eq_nil_iff, if_neg hne]
  rw [← reasons_eq_nil_iff hne]
  split
  · next hnil => simp [hnil]
  · next hnil => simp [hnil]

/-- **The exact frontier**: the status is `complete` exactly when there are expected keys, each of
them is that of exactly one record, which is complete, and no record has another key; and the order
of the records does not change the status. -/
theorem exact_frontier (rt : Runtime) (expected actual : List Row) :
    ((exactFrontierCoverage rt expected actual).status = "complete" ↔
      ExactFrontier rt expected actual) ∧
    ∀ actual', actual.Perm actual' →
      (exactFrontierCoverage rt expected actual').status =
        (exactFrontierCoverage rt expected actual).status := by
  by_cases hne : expected = []
  · subst hne
    refine ⟨⟨fun h => ?_, fun h => absurd rfl h.named⟩, fun _ _ => rfl⟩
    have hunknown : "unknown" = "complete" := h
    exact absurd hunknown (by decide)
  · refine ⟨(status_eq hne).1, fun actual' hperm => ?_⟩
    by_cases h : ExactFrontier rt expected actual
    · rw [(status_eq hne).1.mpr h, (status_eq hne).1.mpr (h.perm hperm)]
    · have h' : ¬ ExactFrontier rt expected actual' := fun h' => h (h'.perm hperm.symm)
      rw [(status_eq hne).2 fun hs => h ((status_eq hne).1.mp hs),
        (status_eq hne).2 fun hs => h' ((status_eq hne).1.mp hs)]

/-- The scope key of a translation unit, with its status. -/
def sampleScope (tuKey status : String) : Row :=
  [("project_id", .str "p1"), ("tu_key", .str tuKey), ("status", .str status)]

/-- Two complete records, in either order. -/
theorem exact_frontier_sample :
    (exactFrontierCoverage sampleRuntime [sampleScope "a.c" "", sampleScope "b.c" ""]
        [sampleScope "a.c" "complete", sampleScope "b.c" "complete"]).status = "complete" ∧
      (exactFrontierCoverage sampleRuntime [sampleScope "a.c" "", sampleScope "b.c" ""]
        [sampleScope "b.c" "complete", sampleScope "a.c" "complete"]).status = "complete" := by
  obtain ⟨hexact, hperm⟩ := exact_frontier sampleRuntime
    [sampleScope "a.c" "", sampleScope "b.c" ""]
    [sampleScope "a.c" "complete", sampleScope "b.c" "complete"]
  have hcomplete : (exactFrontierCoverage sampleRuntime
      [sampleScope "a.c" "", sampleScope "b.c" ""]
      [sampleScope "a.c" "complete", sampleScope "b.c" "complete"]).status = "complete" := by
    refine hexact.mpr ⟨by simp, fun e he => ?_, fun record hrecord => ?_⟩
    · rcases List.mem_cons.mp he with rfl | he
      · exact ⟨sampleScope "a.c" "complete", rfl, rfl⟩
      · rw [List.mem_singleton.mp he]
        exact ⟨sampleScope "b.c" "complete", rfl, rfl⟩
    · rcases List.mem_cons.mp hrecord with rfl | hrecord
      · exact ⟨_, List.mem_cons_self, rfl⟩
      · rw [List.mem_singleton.mp hrecord]
        exact ⟨_, List.mem_cons_of_mem _ List.mem_cons_self, rfl⟩
  exact ⟨hcomplete, (hperm _ (.swap _ _ _)).trans hcomplete⟩

end CortexHarness.Evidence
