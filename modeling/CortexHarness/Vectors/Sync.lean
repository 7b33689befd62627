import CortexHarness.Library.Points
import CortexHarness.Vectors.Documents

/-!
# Vector sync

Model of `sync_vector_documents` and `_delete_stale` in
`code-tiny/tools/common/primary_vector_sync.py`. A collection maps point ids to payloads; the
vectors, the payload indexes and the sentinel point of the embedding marker are left out.

* `prepare` is what embedding the documents and `ensure_collection` answer, before the first upsert.
* A sync compares scopes in two ways: the point ids hash the stripped parser in lower case, the
  stripped project id and the stripped root scope, while the filter for stale points matches the
  project's lookup key, the parser and the root scope of the payload as they are (`stale`).

Results:
* `syncVectorDocuments_eq`: what a successful sync leaves, point by point;
* `sync_scoped_iff`: when that is what the scope asks for.
-/

namespace CortexHarness.Vectors

open Json Points

variable (py : Python) (enc : Encoding)

/-- The points of a collection. -/
abbrev Collection := String → Option Row

/-- The exceptions of a sync. -/
inductive SyncError where
  /-- `Qdrant collection must contain only letters, digits, '_', '-', or '.'` -/
  | collectionName
  /-- `Vector document payload scope does not match the requested sync scope` -/
  | scopeMismatch
  /-- `An embedding model is required when Qdrant is configured` -/
  | modelRequired
  /-- The embedder or the store failed, with the text of its exception. -/
  | prepare (text : String)
  /-- A filter on no value at all. -/
  | filter
  deriving DecidableEq

/-- The arguments of a sync that decide what it writes. -/
structure SyncArgs where
  collection : String
  modelName : String
  qdrantBatchSize : Int
  parser : String
  projectId : String
  rootScope : String
  cleanupPaths : List String
  fullReplace : Bool

variable (args : SyncArgs)

/-- `_COLLECTION_RE.fullmatch` -/
def collectionNameOk (name : String) : Bool :=
  name ≠ "" && name.toList.all fun c =>
    ('A' ≤ c && c ≤ 'Z') || ('a' ≤ c && c ≤ 'z') || ('0' ≤ c && c ≤ '9') ||
      c == '_' || c == '.' || c == '-'

/-- The scope check of a document. -/
def inRequestedScope (d : VectorDocument) : Bool :=
  textOf py [field d.payload "project_id"] "" = args.projectId &&
    textOf py [field d.payload "parser"] "" = args.parser &&
    textOf py [field d.payload "root_scope"] "" = args.rootScope

/-- The paths of `_delete_stale`. -/
def cleanupSet : List String := (args.cleanupPaths.filter (· ≠ "")).map slashes

/-- The filter of `_delete_stale`, without the ids it keeps. -/
def stale (key : String) (payload : Row) : Bool :=
  (field payload "project_id_normalized").isText key &&
    (field payload "parser").isText args.parser &&
    (field payload "root_scope").isText args.rootScope &&
    (args.fullReplace || (cleanupSet args).any (field payload "file_path").isText)

/-- `_delete_stale` -/
def deleteStale (keepIds : List String) (c : Collection) : Except SyncError Collection :=
  if !args.fullReplace && (cleanupSet args).isEmpty then .ok c
  else
    match projectIdLookupKey py args.projectId with
    | some key =>
      .ok (deleteWhere (fun id payload => stale args key payload && !keepIds.contains id) c)
    | none => .error .filter

/-- The points of the documents. -/
def pointsOf (docs : List VectorDocument) : List (String × Row) :=
  docs.map fun d => (d.id, d.payload)

/-- The pieces in which the points are written. -/
def upsertBatches (docs : List VectorDocument) : List (List (String × Row)) :=
  batches (max 1 args.qdrantBatchSize).toNat (pointsOf docs)

/-- What `sync_vector_documents` checks and prepares before the first upsert. -/
def beforeUpsert (prepare : List String → Except String Unit) (docs : List VectorDocument) :
    Except SyncError Unit :=
  if !collectionNameOk args.collection then .error .collectionName
  else if !docs.all (inRequestedScope py args) then .error .scopeMismatch
  else if docs.isEmpty then .ok ()
  else if strip args.modelName = "" then .error .modelRequired
  else (prepare (docs.map (·.text))).mapError .prepare

/-- `sync_vector_documents` -/
def syncVectorDocuments (prepare : List String → Except String Unit) (docs : List VectorDocument)
    (c : Collection) : Except SyncError Collection := do
  beforeUpsert py args prepare docs
  let written := (upsertBatches args docs).foldl (fun c batch => upsert batch c) c
  deleteStale py args (docs.map (·.id)) written

/-! ## What a sync leaves -/

/-- The filter of `_delete_stale`; with no lookup key no filter is ever sent. -/
def isStale (payload : Row) : Bool :=
  match projectIdLookupKey py args.projectId with
  | some key => stale args key payload
  | none => false

/-- A sync writes the documents and then deletes the stale points under other ids. -/
theorem syncVectorDocuments_eq {prepare : List String → Except String Unit}
    {docs : List VectorDocument} {c c' : Collection}
    (h : syncVectorDocuments py args prepare docs c = .ok c') :
    c' = deleteWhere (fun id payload => isStale py args payload && !(docs.map (·.id)).contains id)
      (upsert (pointsOf docs) c) := by
  have hsize : 0 < (max 1 args.qdrantBatchSize).toNat := by omega
  obtain ⟨-, -, hdelete⟩ := Fallible.bind_ok.mp h
  rw [upsertBatches, upsert_batches hsize] at hdelete
  unfold deleteStale at hdelete
  split at hdelete
  next hnone =>
    -- No path to clean up: no point matches.
    obtain rfl := Except.ok.inj hdelete
    simp only [Bool.and_eq_true, Bool.not_eq_true', List.isEmpty_iff] at hnone
    have hkept : ∀ payload, isStale py args payload = false := by
      intro payload
      unfold isStale stale
      cases projectIdLookupKey py args.projectId <;> simp [hnone]
    funext id
    cases hpoint : upsert (pointsOf docs) c id <;>
      simp [deleteWhere, hpoint, hkept, Option.filter]
  next =>
    split at hdelete
    next key hkey =>
      obtain rfl := Except.ok.inj hdelete
      simp [isStale, hkey]
    next => cases hdelete

variable {py enc args}

theorem sync_other {prepare : List String → Except String Unit} {docs : List VectorDocument}
    {c c' : Collection} (h : syncVectorDocuments py args prepare docs c = .ok c') {id : String}
    (hid : id ∉ docs.map (·.id)) (payload : Row) :
    c' id = some payload ↔ c id = some payload ∧ isStale py args payload = false := by
  rw [syncVectorDocuments_eq py args h, deleteWhere_eq_some, upsert_other]
  · simp [hid]
  · simpa [pointsOf] using hid

theorem sync_document {prepare : List String → Except String Unit} {docs : List VectorDocument}
    {c c' : Collection} (h : syncVectorDocuments py args prepare docs c = .ok c')
    (hnodup : (docs.map (·.id)).Nodup) {d : VectorDocument} (hd : d ∈ docs) :
    c' d.id = some d.payload := by
  have hrow : upsert (pointsOf docs) c d.id = some d.payload :=
    upsert_row (r := (d.id, d.payload)) (by simpa [pointsOf, Function.comp_def] using hnodup)
      (List.mem_map.mpr ⟨d, hd, rfl⟩)
  have hkept : (docs.map (·.id)).contains d.id = true := by
    simpa using ⟨d, hd, rfl⟩
  rw [syncVectorDocuments_eq py args h, deleteWhere_eq_some, hkept]
  exact ⟨hrow, by simp⟩

/-! ## What the scope asks for -/

/-- A point of the project, the parser and the root scope of the sync. -/
def InScope (args : SyncArgs) (payload : Row) : Prop :=
  field payload "project_id" = .str args.projectId ∧ field payload "parser" = .str args.parser ∧
    field payload "root_scope" = .str args.rootScope

/-- A point the sync is asked to replace: of any file, or of a file to clean up. -/
def InCleanup (args : SyncArgs) (payload : Row) : Prop :=
  args.fullReplace = true ∨ ∃ path ∈ cleanupSet args, field payload "file_path" = .str path

/-- The documents' points. -/
def IsPoint (docs : List VectorDocument) (id : String) (payload : Row) : Prop :=
  ∃ d ∈ docs, d.id = id ∧ d.payload = payload

/-- **What a sync should leave.** In the scope, the documents' points and the points it was not asked
to replace; outside, every point as it was; and a run after one that stopped between two batches
leaves the same. -/
structure SyncKept (py : Python) (args : SyncArgs) (prepare : List String → Except String Unit)
    (docs : List VectorDocument) (c c' : Collection) : Prop where
  full : args.fullReplace = true → ∀ id payload, InScope args payload →
    (c' id = some payload ↔ IsPoint docs id payload)
  partly : args.fullReplace = false → ∀ id payload, InScope args payload →
    (c' id = some payload ↔ IsPoint docs id payload ∨
      id ∉ docs.map (·.id) ∧ c id = some payload ∧ ¬ InCleanup args payload)
  others : ∀ id payload, c id = some payload → ¬ InScope args payload → c' id = some payload
  again : ∀ k, syncVectorDocuments py args prepare docs
    (upsert ((upsertBatches args docs).take k).flatten c) = .ok c'

/-- The two views of the scope agree on a collection: no point of another scope has a document's id
or matches the filter, and the points to replace carry the lookup key of their project. -/
structure ViewsAgree (py : Python) (args : SyncArgs) (docs : List VectorDocument)
    (c : Collection) : Prop where
  ids : ∀ id payload, c id = some payload → ¬ InScope args payload → id ∉ docs.map (·.id)
  filter : ∀ id payload, c id = some payload → ¬ InScope args payload →
    isStale py args payload = false
  keys : ∀ id payload, c id = some payload → InScope args payload → InCleanup args payload →
    id ∉ docs.map (·.id) →
    field payload "project_id_normalized" = optionalText (projectIdLookupKey py args.projectId)

theorem isText_iff {value : Json} {s : String} : value.isText s = true ↔ value = .str s := by
  cases value <;> simp [isText]

theorem isStale_iff {payload : Row} : isStale py args payload = true ↔
    ∃ key, projectIdLookupKey py args.projectId = some key ∧
      field payload "project_id_normalized" = .str key ∧ field payload "parser" = .str args.parser ∧
      field payload "root_scope" = .str args.rootScope ∧ InCleanup args payload := by
  unfold isStale InCleanup
  cases projectIdLookupKey py args.projectId with
  | none => simp
  | some key => simp [stale, isText_iff, and_assoc]

theorem lookupKey_of_cleanup {prepare : List String → Except String Unit}
    {docs : List VectorDocument} {c c' : Collection} {payload : Row}
    (h : syncVectorDocuments py args prepare docs c = .ok c') (hc : InCleanup args payload) :
    ∃ key, projectIdLookupKey py args.projectId = some key := by
  obtain ⟨-, -, hdelete⟩ := Fallible.bind_ok.mp h
  unfold deleteStale at hdelete
  split at hdelete
  next hnone =>
    simp only [Bool.and_eq_true, Bool.not_eq_true', List.isEmpty_iff] at hnone
    rcases hc with hfull | ⟨path, hpath, -⟩
    · exact absurd (hnone.1.symm.trans hfull) (by decide)
    · exact absurd (hnone.2 ▸ hpath) List.not_mem_nil
  next =>
    split at hdelete
    next key hkey => exact ⟨key, hkey⟩
    next => cases hdelete

theorem document_inScope {prepare : List String → Except String Unit} {docs : List VectorDocument}
    {c c' : Collection} (h : syncVectorDocuments py args prepare docs c = .ok c')
    {d : VectorDocument} (hd : d ∈ docs) {parser rootScope symbolId projectId : String}
    (hdesc : Describes py enc parser rootScope d symbolId projectId) :
    InScope args d.payload := by
  obtain ⟨_, hbefore, -⟩ := Fallible.bind_ok.mp h
  have hall : docs.all (inRequestedScope py args) = true := by
    unfold beforeUpsert at hbefore
    split at hbefore
    next => cases hbefore
    next =>
      split at hbefore
      next => cases hbefore
      next hdocs => simpa using hdocs
  have hscope := List.all_eq_true.mp hall d hd
  simp only [inRequestedScope, hdesc.project, hdesc.parser, hdesc.rootScope, textOf_str,
    Bool.and_eq_true, decide_eq_true_eq] at hscope
  obtain ⟨⟨hp, hparser⟩, hroot⟩ := hscope
  exact ⟨hdesc.project.trans (congrArg _ hp), hdesc.parser.trans (congrArg _ hparser),
    hdesc.rootScope.trans (congrArg _ hroot)⟩

/-- Points already written by a run that stopped leave no trace. -/
theorem sync_again {prepare : List String → Except String Unit} {docs : List VectorDocument}
    {c c' : Collection} (h : syncVectorDocuments py args prepare docs c = .ok c') (k : Nat) :
    syncVectorDocuments py args prepare docs
      (upsert ((upsertBatches args docs).take k).flatten c) = .ok c' := by
  have hsize : 0 < (max 1 args.qdrantBatchSize).toNat := by omega
  rw [← h]
  unfold syncVectorDocuments
  rw [upsertBatches, upsert_batches hsize, upsert_batches hsize, upsert_again]
  intro r hr
  rw [flatten_take_batches] at hr
  exact List.mem_map_of_mem (List.mem_of_mem_take hr)

theorem isPoint_iff_of_mem {docs : List VectorDocument} (hnodup : (docs.map (·.id)).Nodup)
    {d : VectorDocument} (hd : d ∈ docs) {payload : Row} :
    IsPoint docs d.id payload ↔ d.payload = payload := by
  constructor
  · rintro ⟨d', hd', hid, rfl⟩
    rw [List.inj_on_of_nodup_map hnodup hd hd' hid.symm]
  · exact fun h => ⟨d, hd, rfl, h⟩

/-- What a sync leaves in its scope, when the points to replace carry the lookup key. -/
theorem sync_in_scope {prepare : List String → Except String Unit} {docs : List VectorDocument}
    {c c' : Collection} (h : syncVectorDocuments py args prepare docs c = .ok c')
    (hnodup : (docs.map (·.id)).Nodup) (hviews : ViewsAgree py args docs c) {id : String}
    {payload : Row} (hscope : InScope args payload) :
    c' id = some payload ↔ IsPoint docs id payload ∨
      id ∉ docs.map (·.id) ∧ c id = some payload ∧ ¬ InCleanup args payload := by
  by_cases hid : id ∈ docs.map (·.id)
  · obtain ⟨d, hd, rfl⟩ := List.mem_map.mp hid
    rw [sync_document h hnodup hd, isPoint_iff_of_mem hnodup hd, Option.some.injEq]
    simp [hid]
  · have hnone : ¬ IsPoint docs id payload := by
      rintro ⟨d, hd, rfl, -⟩
      exact hid (List.mem_map_of_mem hd)
    rw [sync_other h hid]
    simp only [hnone, hid, not_false_iff, true_and, false_or]
    refine and_congr_right fun hpoint => ?_
    rw [← Bool.not_eq_true, isStale_iff]
    refine not_congr ⟨fun ⟨_, _, _, _, _, hc⟩ => hc, fun hc => ?_⟩
    obtain ⟨key, hkey⟩ := lookupKey_of_cleanup h hc
    have hnormalized := hviews.keys id payload hpoint hscope hc hid
    rw [hkey] at hnormalized
    exact ⟨key, hkey, hnormalized, hscope.2.1, hscope.2.2, hc⟩

/-- **When a vector sync keeps to its scope.** A successful sync of documents with distinct symbols
leaves what its scope asks for exactly when the two views of the scope agree on the collection. -/
theorem sync_scoped_iff {prepare : List String → Except String Unit} {payloads : List Row}
    {docs : List VectorDocument} {maxChars : Int} {c c' : Collection}
    (hinj : Function.Injective enc.uuid5)
    (hdocs : documentsFromPayloads py enc args.parser args.rootScope maxChars payloads = .ok docs)
    (hsymbols : (docs.map fun d => field d.payload "symbol_id").Nodup)
    (hsync : syncVectorDocuments py args prepare docs c = .ok c') :
    SyncKept py args prepare docs c c' ↔ ViewsAgree py args docs c := by
  have hdescribed : ∀ d ∈ docs, ∃ symbolId projectId,
      Describes py enc args.parser args.rootScope d symbolId projectId :=
    fun _ => documents_describe py enc hdocs
  have hinScope : ∀ d ∈ docs, InScope args d.payload := by
    intro d hd
    obtain ⟨symbolId, projectId, hdesc⟩ := hdescribed d hd
    exact document_inScope hsync hd hdesc
  have hnodup : (docs.map (·.id)).Nodup :=
    documents_ids_nodup py enc hinj hdescribed (fun d hd => (hinScope d hd).1) hsymbols
  constructor
  · intro hkept
    refine ⟨fun id payload hpoint hout hid => ?_, fun id payload hpoint hout => ?_,
      fun id payload hpoint hscope hc hid => ?_⟩
    · obtain ⟨d, hd, rfl⟩ := List.mem_map.mp hid
      have hleft := hkept.others d.id payload hpoint hout
      rw [sync_document hsync hnodup hd] at hleft
      exact hout (Option.some.inj hleft ▸ hinScope d hd)
    · have hleft := hkept.others id payload hpoint hout
      by_cases hid : id ∈ docs.map (·.id)
      · obtain ⟨d, hd, rfl⟩ := List.mem_map.mp hid
        rw [sync_document hsync hnodup hd] at hleft
        exact absurd (Option.some.inj hleft ▸ hinScope d hd) hout
      · exact ((sync_other hsync hid payload).mp hleft).2
    · -- A point to replace is gone, so the filter matched it.
      have hgone : c' id ≠ some payload := by
        intro hleft
        cases hfull : args.fullReplace with
        | true =>
          obtain ⟨d, hd, rfl, -⟩ := (hkept.full hfull id payload hscope).mp hleft
          exact hid (List.mem_map_of_mem hd)
        | false =>
          rcases (hkept.partly hfull id payload hscope).mp hleft with ⟨d, hd, rfl, -⟩ | ⟨-, -, hno⟩
          · exact hid (List.mem_map_of_mem hd)
          · exact hno hc
      have hstale : isStale py args payload = true := by
        by_contra hfresh
        exact hgone ((sync_other hsync hid payload).mpr ⟨hpoint, by simpa using hfresh⟩)
      obtain ⟨key, hkey, hnormalized, -⟩ := isStale_iff.mp hstale
      rw [hnormalized, hkey]
      rfl
  · intro hviews
    refine ⟨fun hfull id payload hscope => ?_, fun _ id payload hscope =>
      sync_in_scope hsync hnodup hviews hscope, fun id payload hpoint hout => ?_,
      sync_again hsync⟩
    · rw [sync_in_scope hsync hnodup hviews hscope]
      simp [InCleanup, hfull]
    · exact (sync_other hsync (hviews.ids id payload hpoint hout) payload).mpr
        ⟨hpoint, hviews.filter id payload hpoint hout⟩

/-! ## Two spellings of a project -/

/-- The text functions on the texts of the sample; its identity has its real id. -/
def sampleEncoding : Encoding where
  uuid5 identity :=
    if identity = "go\x00bank\x00/repo\x00main.run" then "9ca4ce2e-13d2-54da-8e38-92b3405538aa"
    else "uuid5:" ++ identity
  lower text := String.ofList (text.toList.map Char.toLower)
  redactText := id

theorem sampleEncoding_injective : Function.Injective sampleEncoding.uuid5 := by
  have hother : ∀ identity, "9ca4ce2e-13d2-54da-8e38-92b3405538aa" ≠ "uuid5:" ++ identity := by
    intro identity h
    have hchars := congrArg (fun text => text.toList.head?) h
    simp at hchars
  intro a b h
  simp only [sampleEncoding] at h
  split at h
  next ha =>
    split at h
    next hb => exact ha.trans hb.symm
    next => exact absurd h (hother b)
  next =>
    split at h
    next => exact absurd h.symm (hother a)
    next => simpa using h

def sampleTexts : Python where
  sha256Hex := id
  reprContainer _ := ""
  casefold text := String.ofList (text.toList.map Char.toLower)
  parseInt _ := .error ""

/-- What an analyzer wrote of one function of the project `bank`. -/
def sampleSource : Row :=
  [("symbol_id", .str "main.run"), ("project_id", .str "bank"), ("file_path", .str "main.go")]

def sampleDocument : VectorDocument where
  id := "9ca4ce2e-13d2-54da-8e38-92b3405538aa"
  text := "symbol: main.go\nfile: main.go"
  payload := [
    ("node_type", .str "symbol"),
    ("symbol_id", .str "main.run"),
    ("project_id", .str "bank"),
    ("project_id_normalized", .str "bank"),
    ("project_name", .str "bank"),
    ("language", .str "go"),
    ("repo", .str ""),
    ("file_path", .str "main.go"),
    ("name", .str "main.go"),
    ("qualified_name", .str "main.go"),
    ("parser", .str "go"),
    ("root_scope", .str "/repo"),
    ("text", .str "symbol: main.go\nfile: main.go")]

/-- A full replacement of the project `bank`. -/
def sampleArgs : SyncArgs where
  collection := "bank_functions"
  modelName := "BAAI/bge-m3"
  qdrantBatchSize := 64
  parser := "go"
  projectId := "bank"
  rootScope := "/repo"
  cleanupPaths := []
  fullReplace := true

theorem sampleDocument_built :
    documentsFromPayloads sampleTexts sampleEncoding sampleArgs.parser sampleArgs.rootScope 1000
      [sampleSource] = .ok [sampleDocument] := rfl

/-- A point that a sync of the project `Bank` wrote. -/
def otherPayload : Row :=
  [("project_id", .str "Bank"), ("project_id_normalized", .str "bank"), ("parser", .str "go"),
    ("root_scope", .str "/repo"), ("file_path", .str "main.go")]

def otherCollection : Collection :=
  fun id => if id = "acba5495-dfd4-5bc2-a395-eddd7b85fc38" then some otherPayload else none

theorem sampleSync_ok (c : Collection) : ∃ c', syncVectorDocuments sampleTexts sampleArgs
    (fun _ => .ok ()) [sampleDocument] c = .ok c' := by
  have hbefore : beforeUpsert sampleTexts sampleArgs (fun _ => .ok ()) [sampleDocument] = .ok () :=
    rfl
  have hkey : projectIdLookupKey sampleTexts sampleArgs.projectId = some "bank" := by
    decide +kernel
  simp only [syncVectorDocuments, Fallible.bind_ok, hbefore, deleteStale, hkey]
  rw [if_neg (by decide)]
  exact ⟨_, (), trivial, rfl⟩

/-- On an empty collection the sync leaves its document. -/
theorem empty_collection_synced : ∃ c', syncVectorDocuments sampleTexts sampleArgs
      (fun _ => .ok ()) [sampleDocument] (fun _ => none) = .ok c' ∧
    SyncKept sampleTexts sampleArgs (fun _ => .ok ()) [sampleDocument] (fun _ => none) c' := by
  obtain ⟨c', hsync⟩ := sampleSync_ok fun _ => none
  refine ⟨c', hsync, (sync_scoped_iff sampleEncoding_injective sampleDocument_built
    (List.nodup_singleton _) hsync).mpr ⟨?_, ?_, ?_⟩⟩
  · intro id payload hpoint
    cases hpoint
  · intro id payload hpoint
    cases hpoint
  · intro id payload hpoint
    cases hpoint

/-- A full replacement of `bank` deletes the point of the project `Bank`. -/
theorem other_spelling_deleted :
    documentsFromPayloads sampleTexts sampleEncoding sampleArgs.parser sampleArgs.rootScope 1000
      [sampleSource] = .ok [sampleDocument] ∧
    ∃ c', syncVectorDocuments sampleTexts sampleArgs (fun _ => .ok ()) [sampleDocument]
        otherCollection = .ok c' ∧
      otherCollection "acba5495-dfd4-5bc2-a395-eddd7b85fc38" = some otherPayload ∧
      c' "acba5495-dfd4-5bc2-a395-eddd7b85fc38" = none ∧
      ¬ SyncKept sampleTexts sampleArgs (fun _ => .ok ()) [sampleDocument] otherCollection c' := by
  obtain ⟨c', hsync⟩ := sampleSync_ok otherCollection
  have hgone : c' "acba5495-dfd4-5bc2-a395-eddd7b85fc38" = none := by
    rw [syncVectorDocuments_eq _ _ hsync]
    rfl
  refine ⟨sampleDocument_built, c', hsync, rfl, hgone, fun hkept => ?_⟩
  have hleft := hkept.others "acba5495-dfd4-5bc2-a395-eddd7b85fc38" otherPayload rfl ?_
  · rw [hgone] at hleft
    cases hleft
  · rintro ⟨hproject, -⟩
    simp [otherPayload, sampleArgs, field, find?] at hproject

end CortexHarness.Vectors
