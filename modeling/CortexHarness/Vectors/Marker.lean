import CortexHarness.Library.Python
import CortexHarness.Library.Table

/-!
# The embedding-model marker

Model of `code-tiny/tools/common/embedding_marker.py` and of `ensure_collection` in
`local_qdrant.py`: a sentinel point in every collection names the model that produced its vectors, and
a writer checks it once, before its upserts.

Results: `ensureCollection_cases`: what an `ensure_collection` can do; `vectors_unmixed`: the vectors
of two models do not mix in a run in which no writer stamps over another one that is still writing.

Model notes:

* The store is one collection; a data point carries the model of the vector it holds. The sentinel is
  kept beside the data points and counted with them. `stamped_at` is left out.
* A writer passes `ensure_collection`, upserts as often as it likes, and finishes. What it does after
  an `ensure_collection` that raised changes nothing.
-/

namespace CortexHarness.Vectors

open Table

/-! ## Model identities -/

/-- `[/\\]` -/
def isSeparator (c : Char) : Bool := c = '/' || c = '\\'

/-- `[/\\]snapshots[/\\]` at the start of a text. -/
def atSnapshots : List Char → Bool
  | c :: text => isSeparator c && "snapshots".toList.isPrefixOf text &&
      (text.drop 9).head?.any isSeparator
  | [] => false

/-- `(.+?)[/\\]snapshots[/\\]`: the shortest name before it. -/
def repoName (text : List Char) : Option (List Char) :=
  (List.range (text.length + 1)).findSome? fun n =>
    if 0 < n ∧ '\n' ∉ text.take n ∧ atSnapshots (text.drop n) then some (text.take n) else none

/-- `([^/\\]+?)--(.+?)[/\\]snapshots[/\\]`: the shortest organisation, and its repository. -/
def orgAndRepo (text : List Char) : Option (List Char × List Char) :=
  (List.range (text.length + 1)).findSome? fun n =>
    if 0 < n ∧ (text.take n).all (!isSeparator ·) ∧ "--".toList.isPrefixOf (text.drop n) then
      (repoName (text.drop (n + 2))).map fun repo => (text.take n, repo)
    else none

/-- `_SNAPSHOT_PATH_RE.match`: the last `models--` from which the rest matches. -/
def snapshotPath (text : List Char) : Option (List Char × List Char) :=
  (List.range (text.length + 1)).reverse.findSome? fun n =>
    if '\n' ∉ text.take n ∧ "models--".toList.isPrefixOf (text.drop n) then
      orgAndRepo (text.drop (n + 8))
    else none

/-- `canonical_model_id` -/
def canonicalModelId (model : String) : String :=
  let raw := strip model
  match snapshotPath raw.toList with
  | some (org, repo) => String.ofList (org ++ ['/'] ++ repo)
  | none => raw

/-! ## Collections -/

/-- The payload of the sentinel. -/
structure Sentinel where
  embeddingModel : String
  vectorSize : Nat
  projectId : String
  deriving DecidableEq

structure DataPoint where
  id : String
  /-- the model that produced the vector -/
  model : String
  deriving DecidableEq

structure MarkedCollection where
  size : Nat
  sentinel : Option Sentinel
  points : List DataPoint
  deriving DecidableEq

/-- Who writes; a writer without an embedding model has the empty text. -/
structure Writer where
  id : Nat
  size : Nat
  embeddingModel : String
  projectId : String
  deriving DecidableEq

inductive EnsureError where
  /-- the `ValueError` of another vector size -/
  | size
  /-- `EmbeddingModelMismatchError` -/
  | mismatch
  deriving DecidableEq

/-- `MESSAGE_COLLECTION_SUFFIX` -/
def messageCollectionSuffix : String := "_mess"

/-- `stamp` -/
def stamp (w : Writer) (c : MarkedCollection) : MarkedCollection :=
  { c with sentinel := some {
      embeddingModel := w.embeddingModel, vectorSize := w.size, projectId := w.projectId } }

/-- `_only_sentinel_left`; without a count there may be data. -/
def onlySentinelLeft (counts : Bool) (c : MarkedCollection) : Bool :=
  counts && c.points.length + c.sentinel.toList.length ≤ 1

/-- `enforce` -/
def enforce (counts : Bool) (w : Writer) (c : MarkedCollection) :
    Except EnsureError MarkedCollection :=
  match c.sentinel with
  | none => .ok (stamp w c)
  | some sentinel =>
    if canonicalModelId sentinel.embeddingModel = canonicalModelId w.embeddingModel then .ok c
    else if onlySentinelLeft counts c then .ok (stamp w c)
    else .error .mismatch

/-- The writer's collection carries a marker. -/
def marked (name : String) (w : Writer) : Bool :=
  w.embeddingModel ≠ "" && !endsWith name messageCollectionSuffix

/-- `ensure_collection` -/
def ensureCollection (name : String) (counts : Bool) (w : Writer) :
    Option MarkedCollection → Except EnsureError MarkedCollection
  | some c =>
    if c.size ≠ w.size then .error .size
    else if marked name w then enforce counts w c
    else .ok c
  | none =>
    let created : MarkedCollection := { size := w.size, sentinel := none, points := [] }
    .ok (if marked name w then stamp w created else created)

/-! ## Writers -/

/-- A step of some writer, or a reset. -/
inductive Step where
  | ensure (w : Writer) (counts : Bool)
  | upsert (w : Writer) (ids : List String)
  | finish (w : Writer)
  /-- the deletion of all data points -/
  | reset
  deriving DecidableEq

structure Store where
  collection : Option MarkedCollection
  /-- the writers that are past `ensure_collection` and not finished -/
  writing : List Writer
  deriving DecidableEq

/-- Vectors of one writer's model. -/
def putVectors (w : Writer) (ids : List String) (c : MarkedCollection) : MarkedCollection :=
  let put points id := assign DataPoint.id { id, model := w.embeddingModel } points
  { c with points := ids.foldl put c.points }

def Store.step (name : String) (s : Store) : Step → Store
  | .ensure w counts =>
    match ensureCollection name counts w s.collection with
    | .ok c => { collection := some c, writing := w :: s.writing }
    | .error _ => { s with writing := s.writing.filter (· ≠ w) }
  | .upsert w ids =>
    if w ∈ s.writing then { s with collection := s.collection.map (putVectors w ids) } else s
  | .finish w => { s with writing := s.writing.filter (· ≠ w) }
  | .reset => { s with collection := s.collection.map fun c => { c with points := [] } }

/-- A missing collection. -/
def missing : Store := { collection := none, writing := [] }

/-- An interleaving, from a missing collection. -/
def interleaving (name : String) (steps : List Step) : Store :=
  steps.foldl (Store.step name) missing

/-! ## What the marker promises -/

/-- **The vectors are of one model, and the sentinel names it.** -/
structure Unmixed (c : MarkedCollection) : Prop where
  one : ∀ p ∈ c.points, ∀ q ∈ c.points, canonicalModelId p.model = canonicalModelId q.model
  carried : ∀ p ∈ c.points, ∃ sentinel, c.sentinel = some sentinel ∧
    canonicalModelId sentinel.embeddingModel = canonicalModelId p.model

/-- The check would stamp over the marker of another model. -/
def restamps (counts : Bool) (w : Writer) (c : MarkedCollection) : Bool :=
  (c.sentinel.any fun sentinel =>
    canonicalModelId sentinel.embeddingModel ≠ canonicalModelId w.embeddingModel) &&
  onlySentinelLeft counts c

/-- A check is safe: its collection carries a marker, and it does not stamp over the marker of a
writer that is still writing. -/
def StepCovered (name : String) (s : Store) : Step → Prop
  | .ensure w counts =>
    marked name w = true ∧
      ∀ c, s.collection = some c → restamps counts w c = true →
        ∀ other ∈ s.writing,
          canonicalModelId other.embeddingModel = canonicalModelId w.embeddingModel
  | _ => True

/-- Every step is safe when it is taken. -/
def StepsCovered (name : String) : Store → List Step → Prop
  | _, [] => True
  | s, step :: steps => StepCovered name s step ∧ StepsCovered name (s.step name step) steps

/-- Interleavings of such steps. -/
def InterleavingCovered (name : String) (steps : List Step) : Prop :=
  StepsCovered name missing steps

/-! ## The invariant -/

section Invariant

variable {name : String} {s : Store} {c : MarkedCollection} {w : Writer} {counts : Bool}

/-- Who writes and what is written carries the identity of the sentinel. -/
structure Stamped (s : Store) (mark : Sentinel) (c : MarkedCollection) : Prop where
  collection : s.collection = some c
  sentinel : c.sentinel = some mark
  points : ∀ p ∈ c.points, canonicalModelId p.model = canonicalModelId mark.embeddingModel
  writing : ∀ w ∈ s.writing,
    canonicalModelId w.embeddingModel = canonicalModelId mark.embeddingModel

/-- Nobody writes to a missing collection, and a collection is stamped. -/
def Guarded (s : Store) : Prop :=
  s.collection = none ∧ s.writing = [] ∨ ∃ mark c, Stamped s mark c

theorem mem_putVectors {ids : List String} {p : DataPoint}
    (h : p ∈ (putVectors w ids c).points) : p ∈ c.points ∨ p.model = w.embeddingModel := by
  unfold putVectors at h
  simp only at h
  generalize c.points = points at h ⊢
  induction ids generalizing points with
  | nil => exact .inl h
  | cons id ids ih =>
    rcases ih _ h with hput | hmodel
    · simp only [assign] at hput
      split at hput
      · obtain ⟨q, hq, rfl⟩ := List.mem_map.mp hput
        split
        · exact .inr rfl
        · exact .inl hq
      · rcases List.mem_append.mp hput with hold | hnew
        · exact .inl hold
        · exact .inr (by rw [List.mem_singleton.mp hnew])
    · exact .inr hmodel

/-- A collection with a marker and nothing beside it has no data. -/
theorem points_eq_nil {mark : Sentinel} (hmark : c.sentinel = some mark)
    (h : onlySentinelLeft counts c = true) : c.points = [] := by
  simp only [onlySentinelLeft, hmark, Option.toList_some, List.length_singleton,
    Bool.and_eq_true, decide_eq_true_eq] at h
  exact List.length_eq_zero_iff.mp (by omega)

/-- What the check of a marked collection can do. -/
theorem ensureCollection_cases {mark : Sentinel} (hmark : c.sentinel = some mark)
    (hmarked : marked name w = true) :
    (∃ error, ensureCollection name counts w (some c) = .error error) ∨
      (ensureCollection name counts w (some c) = .ok c ∧
        canonicalModelId mark.embeddingModel = canonicalModelId w.embeddingModel) ∨
      (ensureCollection name counts w (some c) = .ok (stamp w c) ∧ restamps counts w c = true) := by
  unfold ensureCollection
  by_cases hsize : c.size = w.size
  · simp only [hsize, ne_eq, not_true_eq_false, if_false, hmarked, if_true, enforce, hmark]
    by_cases hsame : canonicalModelId mark.embeddingModel = canonicalModelId w.embeddingModel
    · exact .inr (.inl ⟨if_pos hsame, hsame⟩)
    · rw [if_neg hsame]
      by_cases honly : onlySentinelLeft counts c = true
      · exact .inr (.inr ⟨if_pos honly, by simp [restamps, hmark, hsame, honly]⟩)
      · exact .inl ⟨.mismatch, if_neg honly⟩
  · exact .inl ⟨.size, if_pos hsize⟩

theorem ensure_guarded (h : Guarded s) (hcovered : StepCovered name s (.ensure w counts)) :
    Guarded (s.step name (.ensure w counts)) := by
  obtain ⟨hmarked, hother⟩ := hcovered
  rcases h with ⟨hnone, hwriting⟩ | ⟨mark, c, h⟩
  · refine .inr ⟨_, stamp w { size := w.size, sentinel := none, points := [] }, ?_, rfl, ?_, ?_⟩
    · simp [Store.step, ensureCollection, hnone, hmarked]
    · intro p hp
      cases hp
    · simp [Store.step, ensureCollection, hnone, hwriting]
  · simp only [Store.step, h.collection]
    rcases @ensureCollection_cases _ _ _ counts _ h.sentinel hmarked with
      ⟨error, hraises⟩ | ⟨hpass, hsame⟩ | ⟨hpass, hrestamp⟩
    · rw [hraises]
      refine .inr ⟨mark, c, rfl, h.sentinel, h.points, fun other hin => ?_⟩
      exact h.writing other (List.mem_filter.mp hin).1
    · rw [hpass]
      refine .inr ⟨mark, c, rfl, h.sentinel, h.points, fun other hin => ?_⟩
      rcases List.mem_cons.mp hin with rfl | hin
      · exact hsame.symm
      · exact h.writing other hin
    · rw [hpass]
      have hempty : c.points = [] := by
        simp only [restamps, Bool.and_eq_true] at hrestamp
        exact points_eq_nil h.sentinel hrestamp.2
      refine .inr ⟨_, stamp w c, rfl, rfl, fun p hp => ?_, fun other hin => ?_⟩
      · simp [stamp, hempty] at hp
      · rcases List.mem_cons.mp hin with rfl | hin
        · rfl
        · exact hother c h.collection hrestamp other hin

theorem step_guarded {step : Step} (h : Guarded s) (hcovered : StepCovered name s step) :
    Guarded (s.step name step) := by
  cases step with
  | ensure w counts => exact ensure_guarded h hcovered
  | upsert w ids =>
    simp only [Store.step]
    split
    · next hin =>
      rcases h with ⟨-, hwriting⟩ | ⟨mark, c, h⟩
      · simp [hwriting] at hin
      · refine .inr ⟨mark, putVectors w ids c, ?_, h.sentinel, fun p hp => ?_, h.writing⟩
        · simp [h.collection]
        · rcases mem_putVectors hp with hold | hmodel
          · exact h.points p hold
          · rw [hmodel]
            exact h.writing w hin
    · exact h
  | finish w =>
    rcases h with ⟨hnone, hwriting⟩ | ⟨mark, c, h⟩
    · exact .inl ⟨hnone, by simp [Store.step, hwriting]⟩
    · refine .inr ⟨mark, c, h.collection, h.sentinel, h.points, fun other hin => ?_⟩
      exact h.writing other (List.mem_filter.mp hin).1
  | reset =>
    rcases h with ⟨hnone, hwriting⟩ | ⟨mark, c, h⟩
    · exact .inl ⟨by simp [Store.step, hnone], hwriting⟩
    · refine .inr ⟨mark, { c with points := [] }, ?_, h.sentinel, fun p hp => ?_, h.writing⟩
      · simp [Store.step, h.collection]
      · cases hp

theorem steps_guarded {steps : List Step} (h : Guarded s) (hcovered : StepsCovered name s steps) :
    Guarded (steps.foldl (Store.step name) s) := by
  induction steps generalizing s with
  | nil => exact h
  | cons step steps ih => exact ih (step_guarded h hcovered.1) hcovered.2

end Invariant

/-- **The vectors of two models do not mix in a run in which no check stamps over the marker of a
writer that is still writing.** -/
theorem vectors_unmixed {name : String} {steps : List Step} (h : InterleavingCovered name steps)
    {c : MarkedCollection} (hc : (interleaving name steps).collection = some c) : Unmixed c := by
  have hinit : Guarded missing := .inl ⟨rfl, rfl⟩
  rcases steps_guarded hinit h with ⟨hnone, -⟩ | ⟨mark, c', hstamped⟩
  · rw [interleaving, hnone] at hc
    cases hc
  · obtain rfl : c' = c := Option.some.inj (hstamped.collection.symm.trans hc)
    constructor
    case one => exact fun p hp q hq => (hstamped.points p hp).trans (hstamped.points q hq).symm
    case carried => exact fun p hp => ⟨mark, hstamped.sentinel, (hstamped.points p hp).symm⟩

/-! ## Samples -/

/-- Sample: two writers of one collection, with different models. -/
def bgeWriter : Writer where
  id := 0
  size := 1024
  embeddingModel := "BAAI/bge-m3"
  projectId := "bank"

def qwenWriter : Writer where
  id := 1
  size := 1024
  embeddingModel := "Qwen/Qwen3-Embedding-0.6B"
  projectId := "bank"

/-- The second writer stamps the still empty collection over, and both write. -/
theorem crossing_writers_mix :
    ¬ ∀ c, (interleaving "bank_functions" [.ensure bgeWriter true, .ensure qwenWriter true,
        .upsert bgeWriter ["a"], .upsert qwenWriter ["b"]]).collection = some c → Unmixed c := by
  intro h
  have hmixed := (h _ rfl).one ⟨"a", "BAAI/bge-m3"⟩ (by decide) ⟨"b", "Qwen/Qwen3-Embedding-0.6B"⟩
    (by decide)
  exact absurd hmixed (by decide)

/-- Sample: the second writer comes after the first one finished and the data were deleted. -/
def switchedSteps : List Step :=
  [.ensure bgeWriter true, .upsert bgeWriter ["a"], .finish bgeWriter, .reset,
    .ensure qwenWriter true, .upsert qwenWriter ["a"]]

theorem switched_writer_unmixed :
    InterleavingCovered "bank_functions" switchedSteps ∧
      Unmixed ⟨1024, some ⟨"Qwen/Qwen3-Embedding-0.6B", 1024, "bank"⟩,
        [⟨"a", "Qwen/Qwen3-Embedding-0.6B"⟩]⟩ := by
  have hcovered : InterleavingCovered "bank_functions" switchedSteps := by
    refine ⟨⟨by decide, ?_⟩, trivial, trivial, trivial, ⟨by decide, ?_⟩, trivial, trivial⟩
    · intro c hc
      cases hc
    · intro c _ _ other hin
      cases (hin : other ∈ ([] : List Writer))
  exact ⟨hcovered, vectors_unmixed hcovered (by decide)⟩

end CortexHarness.Vectors
