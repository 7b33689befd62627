import Mathlib.Data.Rat.Defs
import CortexHarness.Library.Python

/-!
# The entities of many texts at once

Model of `_find_span`, `_normalize_entities`, `_coerce_attr`, `extract_entities_gliner`,
`_gliner_predictions_to_entities` and `extract_entities_gliner_batch` of
`doc-tiny/entity_extractors.py`. Both extractors choose the offsets of a prediction by `or`, for
which an offset of zero is none; only the one of a single text has the text to look a name up in.

Model notes: a recogniser is a `Recogniser`, for one choice of labels and threshold. `str.lower` and
`str` of a list are parameters, and a score is the rational number that the float is. An answer of a
batch method that is no list is `none`.

Results:
* `singleEntity_kept`, `batchEntity_kept`: what both extractors make of a prediction whose start the
  `or` keeps; `batchEntity_lost`: what the batch makes of another;
* **`batch_sound_iff`**: a batch gives what the single texts give, with the predicted spans, exactly
  when no named prediction has the start 0 under `start` alone;
* `batch_loses_span`: one that has.
-/

namespace CortexHarness.Docs.Gliner

/-- What `item.get` gives for a text or a label. -/
inductive Attr where
  | absent
  | text (s : String)
  | list (items : List String)
  deriving DecidableEq

/-- A prediction; `end` is `stop`. -/
structure Prediction where
  text : Attr
  label : Attr
  score : Option Rat
  start : Option Nat
  startChar : Option Nat
  stop : Option Nat
  stopChar : Option Nat
  deriving DecidableEq

/-- The dictionary that `_normalize_entities` reads. -/
structure Item where
  name : Attr
  type : Attr
  confidence : Option Rat
  startChar : Option Nat
  endChar : Option Nat

structure Entity where
  name : String
  type : String
  confidence : Option Rat
  /-- `start_char` and `end_char` -/
  span : Option (Nat × Nat)
  deriving DecidableEq

/-- The functions of the standard library. -/
structure Strings where
  /-- `str.lower` -/
  lower : String → String
  /-- `str` of a list -/
  reprList : List String → String

structure Recogniser where
  /-- `predict_entities` of one text -/
  predictEntities : String → List Prediction
  /-- `batch_predict_entities`, when there is one -/
  batchPredictEntities : List String → Option (List (List Prediction))
  /-- `predict_entities_batch`, when there is one -/
  predictEntitiesBatch : List String → Option (List (List Prediction))
  /-- `predict_entities` of a list, unless it raises -/
  predictEntitiesOfAll : List String → Option (List (List Prediction))

/-- `a or b` of two offsets -/
def orOffset (a b : Option Nat) : Option Nat :=
  match a with
  | some (n + 1) => some (n + 1)
  | some 0 => b
  | none => b

section Extract

variable (env : Strings)

/-- `str(value)` -/
def Attr.str : Attr → String
  | .absent => "None"
  | .text s => s
  | .list items => env.reprList items

/-- `_coerce_attr` -/
def coerceAttr : Attr → String
  | .absent => ""
  | .text s => s
  | .list items => items.headD ""

/-- `_find_span` -/
def findSpan (text name : String) : Option (Nat × Nat) :=
  if text = "" || name = "" then none
  else
    let lowerName := (env.lower name).toList
    let start := (env.lower text).toList.tails.findIdx? fun tail => lowerName.isPrefixOf tail
    start.map fun start => (start, start + name.length)

/-- One round of `_normalize_entities`. -/
def normalizeEntity (text : Option String) (item : Item) : Option Entity :=
  let name := strip (item.name.str env)
  let etype := strip (item.type.str env)
  if name = "" then none
  else
    let given := match item.startChar, item.endChar with
      | some start, some stop => some (start, stop)
      | _, _ => none
    let span := match given, text with
      | some span, _ => some span
      | none, some text => findSpan env text name
      | none, none => none
    some {
      name
      type := if etype = "" then "UNKNOWN" else etype
      confidence := item.confidence
      span }

/-- `_normalize_entities` -/
def normalizeEntities (entities : List Item) (text : Option String) : List Entity :=
  entities.filterMap (normalizeEntity env text)

/-- The dictionary of a prediction in `extract_entities_gliner`. -/
def singleItem (item : Prediction) : Item where
  name := item.text
  type := item.label
  confidence := item.score
  startChar := orOffset item.start item.startChar
  endChar := orOffset item.stop item.stopChar

/-- The dictionary of a prediction in `_gliner_predictions_to_entities`. -/
def batchItem (item : Prediction) : Item where
  name := .text (coerceAttr item.text)
  type := .text (coerceAttr item.label)
  confidence := item.score
  startChar := orOffset item.start item.startChar
  endChar := orOffset item.stop item.stopChar

variable (gliner : Recogniser)

/-- The entities of `extract_entities_gliner`. -/
def extractEntitiesGliner (text : String) : List Entity :=
  normalizeEntities env ((gliner.predictEntities text).map singleItem) (some text)

/-- `_gliner_predictions_to_entities` -/
def glinerPredictionsToEntities (predictions : List Prediction) : List Entity :=
  normalizeEntities env (predictions.map batchItem) none

/-- The predictions of `extract_entities_gliner_batch`. -/
def batchPredictions (texts : List String) : List (List Prediction) :=
  let predictions := ((gliner.batchPredictEntities texts).or
    (gliner.predictEntitiesBatch texts)).or (gliner.predictEntitiesOfAll texts)
  match predictions with
  | some predictions =>
    if predictions.length = texts.length then predictions
    else texts.map gliner.predictEntities
  | none => texts.map gliner.predictEntities

/-- `extract_entities_gliner_batch` -/
def extractEntitiesGlinerBatch (texts : List String) : List (List Entity) :=
  (batchPredictions gliner texts).map (glinerPredictionsToEntities env)

end Extract

/-! ## Predictions -/

/-- The batch methods predict what the recogniser predicts of each text. -/
def Recogniser.Consistent (gliner : Recogniser) (texts : List String) : Prop :=
  ∀ predictions, gliner.batchPredictEntities texts = some predictions ∨
    gliner.predictEntitiesBatch texts = some predictions ∨
    gliner.predictEntitiesOfAll texts = some predictions →
      predictions = texts.map gliner.predictEntities

/-- An offset stands under one of two keys, or under both. -/
def Offset (first second : Option Nat) (n : Nat) : Prop :=
  (first = some n ∧ (second = none ∨ second = some n)) ∨ (first = none ∧ second = some n)

/-- A prediction with a text, a label and a span. -/
def Prediction.Complete (p : Prediction) : Prop :=
  (∃ name, p.text = .text name) ∧ (∃ label, p.label = .text label) ∧
    ∃ start stop, start < stop ∧ Offset p.start p.startChar start ∧ Offset p.stop p.stopChar stop

/-- The predicted span. -/
def Prediction.span (p : Prediction) : Option (Nat × Nat) :=
  match p.start.or p.startChar, p.stop.or p.stopChar with
  | some start, some stop => some (start, stop)
  | _, _ => none

/-- An entity is made of the prediction. -/
def Prediction.named (p : Prediction) : Bool := strip (coerceAttr p.text) ≠ ""

/-- The start is 0, and under `start` only. -/
def Prediction.Lost (p : Prediction) : Prop := p.start = some 0 ∧ p.startChar = none

/-- The entity of a named prediction, with its span. -/
def Prediction.entity (p : Prediction) (span : Option (Nat × Nat)) : Entity :=
  let etype := strip (coerceAttr p.label)
  { name := strip (coerceAttr p.text)
    type := if etype = "" then "UNKNOWN" else etype
    confidence := p.score
    span }

section Predictions

variable {env : Strings} {gliner : Recogniser} {p : Prediction}

theorem batchPredictions_eq {texts : List String} (h : gliner.Consistent texts) :
    batchPredictions gliner texts = texts.map gliner.predictEntities := by
  unfold batchPredictions
  simp only
  split
  · next predictions hp =>
    rw [Option.or_eq_some_iff, Option.or_eq_some_iff] at hp
    have he : predictions = texts.map gliner.predictEntities := by
      rcases hp with (hp | ⟨-, hp⟩) | ⟨-, hp⟩
      · exact h predictions (.inl hp)
      · exact h predictions (.inr (.inl hp))
      · exact h predictions (.inr (.inr hp))
    rw [he, List.length_map, if_pos rfl]
  · rfl

theorem orOffset_of_pos {first second : Option Nat} {n : Nat} (h : Offset first second n)
    (hn : 0 < n) : orOffset first second = some n := by
  obtain ⟨n, rfl⟩ := Nat.exists_eq_succ_of_ne_zero (Nat.pos_iff_ne_zero.mp hn)
  rcases h with ⟨rfl, -⟩ | ⟨rfl, rfl⟩ <;> rfl

/-- The `or` keeps a start that is not lost. -/
theorem orOffset_kept {n : Nat} (h : Offset p.start p.startChar n) (hlost : ¬ p.Lost) :
    orOffset p.start p.startChar = some n := by
  cases n with
  | succ n => exact orOffset_of_pos h n.succ_pos
  | zero =>
    rcases h with ⟨hstart, hnone | hsome⟩ | ⟨hstart, hsome⟩
    · exact absurd ⟨hstart, hnone⟩ hlost
    · rw [hstart, hsome]
      rfl
    · rw [hstart, hsome]
      rfl

theorem Offset.or_eq {first second : Option Nat} {n : Nat} (h : Offset first second n) :
    first.or second = some n := by
  rcases h with ⟨rfl, -⟩ | ⟨rfl, rfl⟩ <;> rfl

theorem Prediction.Complete.span (h : p.Complete) : ∃ span, p.span = some span := by
  obtain ⟨-, -, start, stop, -, hstart, hstop⟩ := h
  refine ⟨(start, stop), ?_⟩
  rw [Prediction.span, hstart.or_eq, hstop.or_eq]

/-- What a single text makes of a prediction whose start the `or` keeps. -/
theorem singleEntity_kept (h : p.Complete) (hlost : ¬ p.Lost) (text : String) :
    normalizeEntity env (some text) (singleItem p) =
      if p.named then some (p.entity p.span) else none := by
  obtain ⟨⟨name, hname⟩, ⟨label, hlabel⟩, start, stop, hlt, hstart, hstop⟩ := h
  have hstop' := orOffset_of_pos hstop (by omega)
  unfold normalizeEntity singleItem Prediction.entity Prediction.span Prediction.named
  simp only [hname, hlabel, orOffset_kept hstart hlost, hstop', hstart.or_eq, hstop.or_eq,
    Attr.str, coerceAttr]
  by_cases hblank : strip name = "" <;> simp [hblank]

theorem batchEntity_kept (h : p.Complete) (hlost : ¬ p.Lost) :
    normalizeEntity env none (batchItem p) =
      if p.named then some (p.entity p.span) else none := by
  obtain ⟨⟨name, hname⟩, ⟨label, hlabel⟩, start, stop, hlt, hstart, hstop⟩ := h
  have hstop' := orOffset_of_pos hstop (by omega)
  unfold normalizeEntity batchItem Prediction.entity Prediction.span Prediction.named
  simp only [hname, hlabel, orOffset_kept hstart hlost, hstop', hstart.or_eq, hstop.or_eq,
    Attr.str, coerceAttr]
  by_cases hblank : strip name = "" <;> simp [hblank]

/-- **A batch gives no span to a prediction whose start is lost.** -/
theorem batchEntity_lost (hlost : p.Lost) (hnamed : p.named = true) :
    normalizeEntity env none (batchItem p) = some (p.entity none) := by
  obtain ⟨hstart, hnone⟩ := hlost
  have hname : strip (coerceAttr p.text) ≠ "" := of_decide_eq_true hnamed
  unfold normalizeEntity batchItem Prediction.entity
  by_cases hlabel : strip (coerceAttr p.label) = "" <;>
    simp [hstart, hnone, hname, hlabel, orOffset, Attr.str]

/-- **A batch gives what the single texts give, with the predicted spans**, exactly when no named
prediction has the start 0 under `start` alone. -/
theorem batch_sound_iff {texts : List String} (hconsistent : gliner.Consistent texts)
    (hcomplete : ∀ text ∈ texts, ∀ p ∈ gliner.predictEntities text, p.Complete) :
    (extractEntitiesGlinerBatch env gliner texts = texts.map (extractEntitiesGliner env gliner) ∧
        ∀ text ∈ texts, (extractEntitiesGliner env gliner text).map Entity.span =
          ((gliner.predictEntities text).filter Prediction.named).map Prediction.span) ↔
      ∀ text ∈ texts, ∀ p ∈ gliner.predictEntities text, p.named = true → ¬ p.Lost := by
  have hbatch : extractEntitiesGlinerBatch env gliner texts =
      texts.map fun text => glinerPredictionsToEntities env (gliner.predictEntities text) := by
    rw [extractEntitiesGlinerBatch, batchPredictions_eq hconsistent, List.map_map]
    rfl
  rw [hbatch]
  constructor
  · rintro ⟨hsame, hspans⟩ text htext p hp hnamed hlost
    have hentities := List.map_inj_left.mp hsame text htext
    have hmem : p.entity none ∈ glinerPredictionsToEntities env (gliner.predictEntities text) :=
      List.mem_filterMap.mpr ⟨_, List.mem_map_of_mem hp, batchEntity_lost hlost hnamed⟩
    have hspan : none ∈ ((gliner.predictEntities text).filter Prediction.named).map
        Prediction.span := by
      rw [← hspans text htext, ← hentities]
      exact List.mem_map.mpr ⟨_, hmem, rfl⟩
    obtain ⟨q, hq, hnone⟩ := List.mem_map.mp hspan
    obtain ⟨span, hsome⟩ := (hcomplete text htext q (List.mem_filter.mp hq).1).span
    rw [hsome] at hnone
    cases hnone
  · intro h
    have hunnamed : ∀ {text : Option String} {item : Item},
        strip (item.name.str env) = "" → normalizeEntity env text item = none := by
      intro text item hblank
      rw [normalizeEntity]
      simp only
      rw [if_pos hblank]
    have hsingle : ∀ text ∈ texts, ∀ p ∈ gliner.predictEntities text,
        normalizeEntity env (some text) (singleItem p) =
          if p.named then some (p.entity p.span) else none := by
      intro text htext p hp
      have hc := hcomplete text htext p hp
      by_cases hnamed : p.named = true
      · exact singleEntity_kept hc (h text htext p hp hnamed) text
      · obtain ⟨⟨name, hname⟩, -⟩ := hc
        rw [if_neg hnamed]
        refine hunnamed ?_
        simpa [Prediction.named, hname, coerceAttr, singleItem, Attr.str] using hnamed
    have hall : ∀ text ∈ texts, ∀ p ∈ gliner.predictEntities text,
        normalizeEntity env none (batchItem p) =
          if p.named then some (p.entity p.span) else none := by
      intro text htext p hp
      have hc := hcomplete text htext p hp
      by_cases hnamed : p.named = true
      · exact batchEntity_kept hc (h text htext p hp hnamed)
      · rw [if_neg hnamed]
        refine hunnamed ?_
        simpa [Prediction.named, batchItem, Attr.str] using hnamed
    refine ⟨List.map_congr_left fun text htext => ?_, fun text htext => ?_⟩
    · unfold glinerPredictionsToEntities extractEntitiesGliner normalizeEntities
      rw [List.filterMap_map, List.filterMap_map]
      refine List.filterMap_congr fun p hp => ?_
      rw [Function.comp_apply, Function.comp_apply, hall text htext p hp, hsingle text htext p hp]
    · have hentities : extractEntitiesGliner env gliner text =
          ((gliner.predictEntities text).filter Prediction.named).map fun p => p.entity p.span := by
        unfold extractEntitiesGliner normalizeEntities
        rw [List.filterMap_map, ← List.filterMap_eq_map, List.filterMap_filter]
        refine List.filterMap_congr fun p hp => ?_
        rw [Function.comp_apply, hsingle text htext p hp]
        rfl
      rw [hentities, List.map_map]
      rfl

end Predictions

/-- A recogniser that finds one name, at the start of a text. -/
def sampleRecogniser (start : Nat) : Recogniser :=
  let predict (_ : String) : List Prediction := [{
    text := .text "Apple", label := .text "ORG", score := some (9 / 10)
    start := some start, startChar := none, stop := some (start + 5), stopChar := none }]
  { predictEntities := predict
    batchPredictEntities := fun texts => some (texts.map predict)
    predictEntitiesBatch := fun _ => none
    predictEntitiesOfAll := fun _ => none }

def sampleStrings : Strings where
  lower := fun text => String.ofList (text.toList.map Char.toLower)
  reprList := fun items => "[" ++ ", ".intercalate (items.map fun item => "'" ++ item ++ "'") ++ "]"

/-- **The first word of a text has its span in a single extraction and none in a batch.** -/
theorem batch_loses_span :
    (sampleRecogniser 0).Consistent ["Apple pays"] ∧
      (extractEntitiesGlinerBatch sampleStrings (sampleRecogniser 0) ["Apple pays"]).map
          (List.map Entity.span) = [[none]] ∧
      (extractEntitiesGliner sampleStrings (sampleRecogniser 0) "Apple pays").map Entity.span =
        [some (0, 5)] := by
  refine ⟨?_, by decide +kernel, by decide +kernel⟩
  rintro predictions (h | h | h)
  · exact (Option.some.inj h).symm
  · cases h
  · cases h

/-- A later word has its span in both. -/
theorem batch_sound_iff_later :
    extractEntitiesGlinerBatch sampleStrings (sampleRecogniser 3) ["An Apple"] =
        ["An Apple"].map (extractEntitiesGliner sampleStrings (sampleRecogniser 3)) ∧
      ∀ text ∈ ["An Apple"],
        (extractEntitiesGliner sampleStrings (sampleRecogniser 3) text).map Entity.span =
          (((sampleRecogniser 3).predictEntities text).filter Prediction.named).map
            Prediction.span := by
  refine (batch_sound_iff ?_ ?_).mpr ?_
  · rintro predictions (h | h | h)
    · exact (Option.some.inj h).symm
    · cases h
    · cases h
  · intro text _ p hp
    rw [List.mem_singleton.mp hp]
    exact ⟨⟨_, rfl⟩, ⟨_, rfl⟩, 3, 8, by decide, .inl ⟨rfl, .inl rfl⟩, .inl ⟨rfl, .inl rfl⟩⟩
  · intro text _ p hp _ hlost
    rw [List.mem_singleton.mp hp] at hlost
    exact absurd hlost.1 (by decide)

end CortexHarness.Docs.Gliner
