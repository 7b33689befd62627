import CortexHarness.Library.Casefold
import CortexHarness.Library.Dict
import CortexHarness.Library.Fallible
import CortexHarness.Library.Grouping
import Mathlib.Data.List.Pairwise

/-!
# Storage targets of registered projects

Model of `_project_entries`, `_resolve_targets` and `resolve_project_targets`
(`project_registry.py:204-462`), with the ids of `project_scope.py:53-66`. A config document is the
member list of a JSON object; a text is its list of characters.

* `projectEntries` reads one `Entry` from every document that names a project, and raises where two
  of them have one lookup key;
* `resolveTargets` derives the targets of a project id from its entry, the overrides of the call and
  (for a project no document describes) the environment.
* `Platform` collects what lies outside: `str.casefold`, `str.lower`, `str` of a list or a dict, and
  `os.environ`.

Results:
* `resolveProjectTargets_eq`: a registered id is resolved from the one entry with its lookup key,
  whatever its spelling;
* `separate_iff`: with nothing named, the graphs of all the projects are distinct exactly when no
  folded id is another one followed by `_doc`.
-/

namespace CortexHarness.Registered

open Json

abbrev Text := List Char

structure Platform extends Casefold where
  /-- `str.lower` -/
  lower : Text → Text
  /-- `str(value)` of a list or a dict -/
  repr : Json → Text
  /-- `os.environ.get` -/
  environ : String → Option Text

variable (P : Platform)

/-- `str(value)` -/
def Platform.str : Json → Text
  | .null => "None".toList
  | .bool b => (if b then "True" else "False").toList
  | .int n => (toString n).toList
  | .float repr => repr.toList
  | .str s => s.toList
  | v => P.repr v

/-! ## Project ids -/

/-- `normalize_project_id` -/
def normalizeProjectId (value : Text) : Option Text :=
  if stripChars value = [] then none else some (stripChars value)

/-- `project_id_lookup_key` -/
def projectIdLookupKey (value : Text) : Option Text := (normalizeProjectId value).map P.text

/-! ## Errors -/

inductive Raised where
  /-- `.get` of something that is no dict -/
  | attributeError
  /-- `dict(...)` of something that is no iterable of pairs: `TypeError` or `ValueError` -/
  | typeError
  | valueError
  | duplicateProjectRegistration (collisions : List (Text × List Text))
  | projectNotRegistered (projectId : Text) (known : List Text)
  | unsupportedGraphProvider (value : Json)

/-- `"; ".join(...)` -/
def joined (separator : String) (parts : List Text) : Text := separator.toList.intercalate parts

/-- `sorted(...)` of texts -/
def sortedTexts (texts : List Text) : List Text := texts.mergeSort fun a b => decide (a ≤ b)

/-- `str(error)` of the errors the module raises itself. -/
def Raised.message : Raised → Option Text
  | .duplicateProjectRegistration collisions =>
    let normalized := (collisions.mergeSort fun a b => decide (a.1 ≤ b.1)).map
      fun c => c.1 ++ ": ".toList ++ joined ", " (sortedTexts c.2)
    some <| "Duplicate project registrations after casefold normalization: ".toList ++
      joined "; " normalized ++
      ". Keep exactly one config descriptor per logical project.".toList
  | .projectNotRegistered projectId known =>
    let rendered :=
      if known = [] then "<none registered>".toList else joined ", " (sortedTexts known)
    some <| "project_id '".toList ++ projectId ++ "' is not registered. ".toList ++
      "Known projects: ".toList ++ rendered ++ ". ".toList ++
      "Add a project section to .cortext-harness/config/*.json or pass ".toList ++
      "an explicit override.".toList
  | .unsupportedGraphProvider value =>
    some <| "Unsupported graph provider '".toList ++ P.str value ++ "'. ".toList ++
      "Expected 'falkordb', 'neo4j', or 'ladybug'.".toList
  | _ => none

/-! ## Entries -/

structure Entry where
  projectId : Text
  projectName : Option Json
  parserType : Option Json
  codeEnv : Row
  docEnv : Row
  active : Bool
  storageBackend : Text
  remoteConfig : Option Row

/-- `value.get(key)` -/
def getAttribute (value : Json) (key : String) : Except Raised (Option Json) :=
  match value with
  | .obj members => .ok (find? members key)
  | _ => .error .attributeError

/-- `value or {}` -/
def orEmpty (value : Option Json) : Json := (orElse value none).getD (.obj [])

/-- Whether a JSON value can be a dict key. -/
def hashable : Json → Bool
  | .arr _ => false
  | .obj _ => false
  | _ => true

/-- The pair an item of the argument of `dict(...)` stands for. -/
def pairOf : Json → Except Raised (Json × Json)
  | .arr [key, value] => if hashable key then .ok (key, value) else .error .typeError
  | .arr _ => .error .valueError
  | .str s =>
    match s.toList with
    | [a, b] => .ok (.str (String.ofList [a]), .str (String.ofList [b]))
    | _ => .error .valueError
  | .obj [a, b] => .ok (.str a.1, .str b.1)
  | .obj _ => .error .valueError
  | _ => .error .typeError

/-- `dict(value)`, less the keys that are no texts. -/
def dictOf : Json → Except Raised Row
  | .obj members => .ok members
  | .arr items => do
    let pairs ← items.mapM pairOf
    .ok (pairs.foldl (fun row p =>
      match p.1 with
      | .str key => put row key p.2
      | _ => row) [])
  | .str s => if s = "" then .ok [] else .error .valueError
  | _ => .error .typeError

/-- `document.get(section, {}).get("env")` -/
def sectionEnv (document : Row) (name : String) : Except Raised (Option Json) :=
  getAttribute ((find? document name).getD (.obj [])) "env"

/-- `project_section.get("parser_type") or project_section.get("parser") or …` -/
def parserTypeOf (document : Row) (projectSection : Row) : Except Raised (Option Json) :=
  let parser := orElse (find? projectSection "parser") none
  match orElse (find? projectSection "parser_type") parser with
  | some value => .ok (some value)
  | none => do getAttribute (orEmpty (← sectionEnv document "code")) "PARSER_TYPE"

/-- One document of `_project_entries`. -/
def projectEntry (document : Row) : Except Raised (Option Entry) :=
  match orEmpty (find? document "project") with
  | .obj projectSection =>
    match orElse (find? projectSection "code") (orElse (find? projectSection "name") none) with
    | none => .ok none
    | some projectId => do
      let parserType ← parserTypeOf document projectSection
      let codeEnv ← dictOf (orEmpty (← sectionEnv document "code"))
      let docEnv ← dictOf (orEmpty (← sectionEnv document "doc"))
      .ok (some {
        projectId := P.str projectId
        projectName := find? projectSection "name"
        parserType
        codeEnv
        docEnv
        active := (field document "active").truthy
        storageBackend := P.str (either (field document "storage_backend") (.str "local"))
        remoteConfig :=
          match find? document "remote" with
          | some (.obj members) => some members
          | _ => none })
  | _ => .error .attributeError

/-- `project_id_lookup_key(entry.get("project_id"))` -/
def Entry.lookupKey (entry : Entry) : Option Text := projectIdLookupKey P entry.projectId

/-- `variants` -/
def variants (entries : List Entry) : List (Text × List Text) :=
  Grouping.groups (entries.filterMap fun entry =>
    (entry.lookupKey P).map fun lookup => (lookup, entry.projectId))

/-- `_project_entries` -/
def projectEntries (documents : List Row) : Except Raised (List Entry) := do
  let entries := (← documents.mapM (projectEntry P)).reduceOption
  let collisions := (variants P entries).filter fun v => decide (1 < v.2.length)
  if collisions = [] then .ok entries else .error (.duplicateProjectRegistration collisions)

/-! ## Targets -/

structure ProjectTargets where
  projectId : Text
  projectIdNormalized : Text
  codeGraph : Text
  codeQdrantCollection : Text
  docGraph : Text
  docQdrantCollection : Text
  parserType : Option Json
  provider : String
  storageBackend : Text
  remoteConfig : Option Row
  source : String
  deriving Inhabited

/-- The keyword arguments of `resolve_project_targets`. -/
structure Overrides where
  provider : Option Text := none
  codeGraph : Option Text := none
  codeQdrantCollection : Option Text := none
  docGraph : Option Text := none
  docQdrantCollection : Option Text := none
  parserType : Option Text := none

/-- `_normalize_graph_provider` -/
def normalizeGraphProvider (value : Option Json) : Except Raised String :=
  let given := (orElse value none).getD (.str "falkordb")
  let normalized := String.ofList (P.lower (stripChars (P.str given)))
  if normalized ∈ ["falkordb", "falkor", "local", "embedded"] then .ok "falkordb"
  else if normalized ∈ ["neo4j", "neo"] then .ok "neo4j"
  else if normalized ∈ ["ladybug", "ladybugdb", "ladybug-db"] then .ok "ladybug"
  else .error (.unsupportedGraphProvider (value.getD .null))

/-- A text that is not empty, as a value. -/
def given (value : Option Text) : Option Json :=
  match value with
  | some (c :: cs) => some (.str (String.ofList (c :: cs)))
  | _ => none

/-- `_first_env` -/
def firstEnv (names : List String) : Option Text :=
  (names.filterMap P.environ).find? fun value => value ≠ []

/-- The first of the keys that holds something: `str(env[key])`. -/
def named (env : Row) (keys : List String) : Option Text :=
  (keys.map (field env)).find? truthy |>.map P.str

/-- One of the four names: the override, the config file, the environment, the naming contract. -/
def target (override : Option Text) (env : Row) (keys : List String) (envValue : Option Text)
    (default : Text) : Text :=
  match override with
  | some (c :: cs) => c :: cs
  | _ => (named P env keys).getD (envValue.getD default)

/-- `"NEO4J_DB" if provider == "neo4j" else "FALKORDB_GRAPH"` -/
def graphKey (provider : String) : String :=
  if provider = "neo4j" then "NEO4J_DB" else "FALKORDB_GRAPH"

/-- The targets, once it is known which entry describes the project. -/
def targetsOf (o : Overrides) (projectId lookup : Text) (found : Option Entry) :
    Except Raised ProjectTargets := do
  let canonical := (found.map Entry.projectId).getD projectId
  let codeEnv := (found.map Entry.codeEnv).getD []
  let docEnv := (found.map Entry.docEnv).getD []
  -- only a project no document describes may use the environment
  let env (names : List String) : Option Text := if found.isNone then firstEnv P names else none
  let envProvider := given (env ["CODE_GRAPH_PROVIDER", "GRAPH_PROVIDER"])
  let provider ← normalizeGraphProvider P
    (orElse (given o.provider) (orElse (find? codeEnv "CODE_GRAPH_PROVIDER")
      (orElse (find? codeEnv "GRAPH_PROVIDER") envProvider)))
  let docProvider ← normalizeGraphProvider P
    (orElse (find? docEnv "DOC_GRAPH_PROVIDER") (orElse (find? docEnv "GRAPH_PROVIDER")
      (orElse (given (env ["DOC_GRAPH_PROVIDER", "GRAPH_PROVIDER"])) (some (.str provider)))))
  .ok {
    projectId := canonical
    projectIdNormalized := lookup
    codeGraph := target P o.codeGraph codeEnv [graphKey provider] (env [graphKey provider])
      canonical
    codeQdrantCollection := target P o.codeQdrantCollection codeEnv ["QDRANT_COLLECTION"]
      (env ["QDRANT_COLLECTION"]) canonical
    docGraph := target P o.docGraph docEnv [graphKey docProvider] (env ["FALKORDB_GRAPH_DOC"])
      (canonical ++ "_doc".toList)
    docQdrantCollection := target P o.docQdrantCollection docEnv
      ["QDRANT_COLLECTION_DOC", "QDRANT_COLLECTION"] (env ["QDRANT_COLLECTION_DOC"])
      (canonical ++ "_doc".toList)
    parserType := orElse (given o.parserType) (found.bind Entry.parserType)
    provider
    storageBackend :=
      match found.map Entry.storageBackend with
      | some (c :: cs) => c :: cs
      | _ => "local".toList
    remoteConfig := found.bind Entry.remoteConfig
    source := if found.isSome then "registry" else "env+defaults" }

/-- Whether the environment has values to seed a project from. -/
def envSeeds : Except Raised Bool := do
  let envProvider ← normalizeGraphProvider P
    (given (firstEnv P ["CODE_GRAPH_PROVIDER", "GRAPH_PROVIDER"]))
  .ok (firstEnv P [graphKey envProvider, "QDRANT_COLLECTION", "QDRANT_COLLECTION_DOC",
    "FALKORDB_GRAPH_DOC", "CODE_GRAPH_PROVIDER", "GRAPH_PROVIDER"]).isSome

/-- `_resolve_targets` -/
def resolveTargets (o : Overrides) (projectId : Text) (entries : List Entry) :
    Except Raised ProjectTargets :=
  match projectIdLookupKey P projectId with
  | none => .error (.projectNotRegistered projectId (entries.map Entry.projectId))
  | some lookup =>
    match entries.find? fun entry => entry.lookupKey P = some lookup with
    | some entry => targetsOf P o projectId lookup (some entry)
    | none => do
      let seeds ← envSeeds P
      if entries ≠ [] then .error (.projectNotRegistered projectId (entries.map Entry.projectId))
      else if !seeds then .error (.projectNotRegistered projectId [])
      else targetsOf P o projectId lookup none

/-- `resolve_project_targets`, with the documents of the config directory. -/
def resolveProjectTargets (documents : List Row) (o : Overrides) (projectId : Text) :
    Except Raised ProjectTargets :=
  match normalizeProjectId projectId with
  | none => .error (.projectNotRegistered projectId [])
  | some normalized => do resolveTargets P o normalized (← projectEntries P documents)

/-! ## Accepted configurations -/

variable {P} {documents : List Row} {entries : List Entry} {entry : Entry} {o : Overrides}

theorem projectIdLookupKey_eq (value : Text) :
    projectIdLookupKey P value =
      if stripChars (P.text value) = [] then none else some (stripChars (P.text value)) := by
  have hblank : stripChars (P.text value) = [] ↔ stripChars value = [] := by
    rw [← P.text_stripChars]
    unfold Casefold.text
    rw [List.flatMap_eq_nil_iff]
    constructor
    · intro h
      by_contra hne
      obtain ⟨c, cs, hcs⟩ := List.exists_cons_of_ne_nil hne
      exact P.fold_ne_nil c (h c (hcs ▸ List.mem_cons_self))
    · intro h
      rw [h]
      exact fun c hc => absurd hc List.not_mem_nil
  unfold projectIdLookupKey normalizeProjectId
  simp only [hblank]
  split
  · rfl
  · rw [Option.map_some, P.text_stripChars]

theorem projectIdLookupKey_stripChars (value : Text) :
    projectIdLookupKey P (stripChars value) = projectIdLookupKey P value := by
  unfold projectIdLookupKey normalizeProjectId
  rw [stripChars_stripChars]

/-- Two entries with a key do not have it in common. -/
def KeysDiffer (P : Platform) (entries : List Entry) : Prop :=
  entries.Pairwise fun a b => ∀ key, a.lookupKey P = some key → b.lookupKey P ≠ some key

theorem nodup_of_no_collision {pairs : List (Text × Text)}
    (h : (Grouping.groups pairs).filter (fun v => decide (1 < v.2.length)) = []) :
    (pairs.map Prod.fst).Nodup := by
  rw [List.nodup_iff_count_le_one]
  intro key
  by_contra hmany
  have hmem : key ∈ pairs.map Prod.fst := List.count_pos_iff.mp (by omega)
  have hgroup := (Grouping.mem_groups pairs).mpr ⟨hmem, rfl⟩
  have hsmall := List.filter_eq_nil_iff.mp h _ hgroup
  have hlength : (Grouping.valuesOf key pairs).length = (pairs.map Prod.fst).count key := by
    unfold Grouping.valuesOf
    rw [List.length_map, ← List.countP_eq_length_filter, List.count, List.countP_map]
    refine List.countP_congr fun p _ => ?_
    rw [decide_eq_true_eq, Function.comp_apply, beq_iff_eq]
  simp only [decide_eq_true_eq] at hsmall
  omega

/-- What the check on the lookup keys is for. -/
theorem keysDiffer_of_accepted (h : projectEntries P documents = .ok entries) :
    KeysDiffer P entries := by
  unfold projectEntries at h
  obtain ⟨read, -, h⟩ := Fallible.bind_ok.mp h
  simp only at h
  split at h
  · next hnone =>
    cases h
    have hnodup := nodup_of_no_collision hnone
    rw [List.map_filterMap, List.Nodup, List.pairwise_filterMap] at hnodup
    refine hnodup.imp fun {a b} hab key ha hb => ?_
    exact hab key (by simp [ha]) key (by simp [hb]) rfl
  · cases h

theorem KeysDiffer.eq {a b : Entry} {key : Text} (h : KeysDiffer P entries) (ha : a ∈ entries)
    (hb : b ∈ entries) (hka : a.lookupKey P = some key) (hkb : b.lookupKey P = some key) :
    a = b := by
  by_contra hne
  have hsymm : Std.Symm fun a b : Entry =>
      ∀ key, a.lookupKey P = some key → b.lookupKey P ≠ some key :=
    ⟨fun _ _ hab key hb ha => hab key ha hb⟩
  exact List.Pairwise.forall h ha hb hne key hka hkb

/-! ## Resolving a registered id -/

/-- **A registered id is resolved from the one entry with its lookup key**, whatever its
spelling. -/
theorem resolveProjectTargets_eq {value key : Text} (h : projectEntries P documents = .ok entries)
    (hentry : entry ∈ entries) (hkey : entry.lookupKey P = some key)
    (hvalue : projectIdLookupKey P value = some key) :
    resolveProjectTargets P documents o value = targetsOf P o (stripChars value) key entry := by
  have hfound : entries.find? (fun e => e.lookupKey P = some key) = some entry := by
    obtain ⟨e, he⟩ := Option.isSome_iff_exists.mp
      (List.find?_isSome.mpr ⟨entry, hentry, decide_eq_true hkey⟩ :
        (entries.find? fun e => e.lookupKey P = some key).isSome = true)
    have hsame : e.lookupKey P = some key := by
      simpa using List.find?_some he
    rw [he, (keysDiffer_of_accepted h).eq (List.mem_of_find?_eq_some he) hentry hsame hkey]
  have hnormal : normalizeProjectId value = some (stripChars value) := by
    unfold projectIdLookupKey at hvalue
    unfold normalizeProjectId at hvalue ⊢
    split at hvalue
    · cases hvalue
    · next hne => rw [if_neg hne]
  unfold resolveProjectTargets
  simp only [hnormal, h]
  show resolveTargets P o (stripChars value) entries = _
  unfold resolveTargets
  simp only [projectIdLookupKey_stripChars, hvalue, hfound]

/-! ## What the names are by default -/

/-- The configuration names no graph and no collection. -/
def Entry.Unnamed (entry : Entry) : Prop :=
  (∀ key ∈ ["FALKORDB_GRAPH", "NEO4J_DB", "QDRANT_COLLECTION"],
    (field entry.codeEnv key).truthy = false) ∧
  ∀ key ∈ ["FALKORDB_GRAPH", "NEO4J_DB", "QDRANT_COLLECTION", "QDRANT_COLLECTION_DOC"],
    (field entry.docEnv key).truthy = false

/-- The provider of the code lane, as the configuration has it. -/
def Entry.codeProvider (P : Platform) (entry : Entry) : Except Raised String :=
  normalizeGraphProvider P (orElse (find? entry.codeEnv "CODE_GRAPH_PROVIDER")
    (orElse (find? entry.codeEnv "GRAPH_PROVIDER") none))

/-- The provider of the doc lane, which falls back to that of the code lane. -/
def Entry.docProvider (P : Platform) (entry : Entry) (provider : String) : Except Raised String :=
  normalizeGraphProvider P (orElse (find? entry.docEnv "DOC_GRAPH_PROVIDER")
    (orElse (find? entry.docEnv "GRAPH_PROVIDER") (some (.str provider))))

/-- The project has an id that is not blank, and the providers it names are supported. -/
def Entry.Resolvable (P : Platform) (entry : Entry) : Prop :=
  (entry.lookupKey P).isSome ∧ ∃ provider, entry.codeProvider P = .ok provider ∧
    ∃ docProvider, entry.docProvider P provider = .ok docProvider

theorem graphKey_mem (provider : String) :
    graphKey provider = "FALKORDB_GRAPH" ∨ graphKey provider = "NEO4J_DB" := by
  unfold graphKey
  split
  · exact .inr rfl
  · exact .inl rfl

theorem target_default {env : Row} {key : String} {default : Text}
    (h : (field env key).truthy = false) : target P none env [key] none default = default := by
  unfold target named
  simp [h]

/-- **The naming contract**: a project that names nothing has its id for the graph of its code, and
the id followed by `_doc` for the graph of its documents. -/
theorem targetsOf_unnamed {projectId lookup : Text} {provider docProvider : String}
    (h : entry.Unnamed) (hcode : entry.codeProvider P = .ok provider)
    (hdoc : entry.docProvider P provider = .ok docProvider) :
    ∃ targets, targetsOf P {} projectId lookup (some entry) = .ok targets ∧
      targets.codeGraph = entry.projectId ∧
      targets.docGraph = entry.projectId ++ "_doc".toList := by
  have hcodeKey : (field entry.codeEnv (graphKey provider)).truthy = false := by
    refine h.1 _ ?_
    rcases graphKey_mem provider with hk | hk <;> rw [hk] <;> decide
  have hdocKey : (field entry.docEnv (graphKey docProvider)).truthy = false := by
    refine h.2 _ ?_
    rcases graphKey_mem docProvider with hk | hk <;> rw [hk] <;> decide
  refine ⟨_, Fallible.bind_ok.mpr ⟨provider, hcode,
    Fallible.bind_ok.mpr ⟨docProvider, hdoc, rfl⟩⟩, ?_, ?_⟩
  · exact target_default hcodeKey
  · exact target_default hdocKey

theorem resolvable_of_targetsOf {projectId lookup : Text} {targets : ProjectTargets}
    (h : targetsOf P {} projectId lookup (some entry) = .ok targets) :
    ∃ provider, entry.codeProvider P = .ok provider ∧
      ∃ docProvider, entry.docProvider P provider = .ok docProvider := by
  obtain ⟨provider, hcode, h⟩ := Fallible.bind_ok.mp h
  obtain ⟨docProvider, hdoc, -⟩ := Fallible.bind_ok.mp h
  exact ⟨provider, hcode, docProvider, hdoc⟩

/-! ## Separate storage -/

/-- The graphs one id is resolved to: of its code and of its documents. -/
def graphsOf (P : Platform) (documents : List Row) (projectId : Text) : List Text :=
  match resolveProjectTargets P documents {} projectId with
  | .ok targets => [targets.codeGraph, targets.docGraph]
  | .error _ => []

/-- The graphs of all the projects, in both lanes, are distinct after case folding. -/
def Separate (P : Platform) (documents : List Row) (entries : List Entry) : Prop :=
  ((entries.flatMap fun entry => graphsOf P documents entry.projectId).map P.text).Nodup

/-- The spelling of a registered id makes no difference, whatever else the call asks for. -/
def SpellingsAgree (P : Platform) (documents : List Row) (entries : List Entry) : Prop :=
  ∀ entry ∈ entries, ∀ key, entry.lookupKey P = some key → ∀ o value value',
    projectIdLookupKey P value = some key → projectIdLookupKey P value' = some key →
    resolveProjectTargets P documents o value = resolveProjectTargets P documents o value'

theorem spellings_agree (h : projectEntries P documents = .ok entries) :
    SpellingsAgree P documents entries := by
  intro entry hentry key hkey o value value' hvalue hvalue'
  rw [resolveProjectTargets_eq h hentry hkey hvalue, resolveProjectTargets_eq h hentry hkey hvalue']
  rfl

theorem graphsOf_resolvable (h : projectEntries P documents = .ok entries)
    (hentry : entry ∈ entries) (hunnamed : entry.Unnamed) (hresolvable : entry.Resolvable P) :
    graphsOf P documents entry.projectId = [entry.projectId, entry.projectId ++ "_doc".toList] := by
  obtain ⟨hkey, provider, hcode, docProvider, hdoc⟩ := hresolvable
  obtain ⟨key, hkey⟩ := Option.isSome_iff_exists.mp hkey
  obtain ⟨targets, htargets, hcodeGraph, hdocGraph⟩ := @targetsOf_unnamed P entry
    (stripChars entry.projectId) key provider docProvider hunnamed hcode hdoc
  unfold graphsOf
  rw [resolveProjectTargets_eq h hentry hkey hkey, htargets]
  simp only [hcodeGraph, hdocGraph]

theorem graphsOf_unresolvable (h : projectEntries P documents = .ok entries)
    (hentry : entry ∈ entries) (hresolvable : ¬ entry.Resolvable P) :
    graphsOf P documents entry.projectId = [] := by
  unfold graphsOf
  cases hkey : entry.lookupKey P with
  | none =>
    have hnone : normalizeProjectId entry.projectId = none := by
      unfold Entry.lookupKey projectIdLookupKey at hkey
      exact Option.map_eq_none_iff.mp hkey
    unfold resolveProjectTargets
    simp only [hnone]
  | some key =>
    rw [resolveProjectTargets_eq h hentry hkey hkey]
    cases htargets : targetsOf P {} (stripChars entry.projectId) key (some entry) with
    | error e => rfl
    | ok targets =>
      exact absurd ⟨by rw [hkey]; rfl, resolvable_of_targetsOf htargets⟩ hresolvable

theorem text_doc (value : Text) :
    P.text (value ++ "_doc".toList) = P.text value ++ "_doc".toList := by
  rw [P.text_append, P.text_ascii (t := "_doc".toList) (by decide)]

/-- The folded graphs of one project. -/
def foldedGraphs (P : Platform) (documents : List Row) (entry : Entry) : List Text :=
  (graphsOf P documents entry.projectId).map P.text

theorem foldedGraphs_resolvable (h : projectEntries P documents = .ok entries)
    (hentry : entry ∈ entries) (hunnamed : entry.Unnamed) (hresolvable : entry.Resolvable P) :
    foldedGraphs P documents entry =
      [P.text entry.projectId, P.text entry.projectId ++ "_doc".toList] := by
  unfold foldedGraphs
  rw [graphsOf_resolvable h hentry hunnamed hresolvable, List.map_cons, List.map_singleton,
    text_doc]

theorem mem_foldedGraphs (h : projectEntries P documents = .ok entries) (hentry : entry ∈ entries)
    (hunnamed : entry.Unnamed) {name : Text} :
    name ∈ foldedGraphs P documents entry ↔ entry.Resolvable P ∧
      (name = P.text entry.projectId ∨ name = P.text entry.projectId ++ "_doc".toList) := by
  by_cases hresolvable : entry.Resolvable P
  · rw [foldedGraphs_resolvable h hentry hunnamed hresolvable]
    simp only [hresolvable, true_and, List.mem_cons, List.not_mem_nil, or_false]
  · unfold foldedGraphs
    rw [graphsOf_unresolvable h hentry hresolvable]
    simp [hresolvable]

theorem ne_append_doc (name : Text) : name ≠ name ++ "_doc".toList := by
  intro he
  have hlength := congrArg List.length he
  rw [List.length_append] at hlength
  have hdoc : "_doc".toList.length = 4 := rfl
  omega

theorem nodup_foldedGraphs (h : projectEntries P documents = .ok entries) (hentry : entry ∈ entries)
    (hunnamed : entry.Unnamed) : (foldedGraphs P documents entry).Nodup := by
  by_cases hresolvable : entry.Resolvable P
  · rw [foldedGraphs_resolvable h hentry hunnamed hresolvable]
    exact List.nodup_cons.mpr
      ⟨fun h => ne_append_doc _ (List.mem_singleton.mp h), List.nodup_singleton _⟩
  · unfold foldedGraphs
    rw [graphsOf_unresolvable h hentry hresolvable]
    exact List.nodup_nil

theorem lookupKey_of_text_eq {a b : Entry} (h : P.text a.projectId = P.text b.projectId) :
    a.lookupKey P = b.lookupKey P := by
  unfold Entry.lookupKey
  rw [projectIdLookupKey_eq, projectIdLookupKey_eq, h]

theorem separate_iff_disjoint :
    Separate P documents entries ↔ (∀ entry ∈ entries, (foldedGraphs P documents entry).Nodup) ∧
      entries.Pairwise fun a b =>
        (foldedGraphs P documents a).Disjoint (foldedGraphs P documents b) := by
  unfold Separate
  rw [List.map_flatMap, List.nodup_flatMap]
  rfl

/-- **The graphs of the projects are separate** exactly when no folded id is another folded id
followed by `_doc`; how an id is spelled never matters. -/
theorem separate_iff (h : projectEntries P documents = .ok entries)
    (hunnamed : ∀ entry ∈ entries, entry.Unnamed) :
    Separate P documents entries ∧ SpellingsAgree P documents entries ↔
      ∀ a ∈ entries, ∀ b ∈ entries, a.Resolvable P → b.Resolvable P →
        P.text a.projectId ≠ P.text b.projectId ++ "_doc".toList := by
  rw [separate_iff_disjoint]
  constructor
  · rintro ⟨⟨-, hpairwise⟩, -⟩ a ha b hb hra hrb he
    have hsymm : Std.Symm fun a b : Entry =>
        (foldedGraphs P documents a).Disjoint (foldedGraphs P documents b) :=
      ⟨fun _ _ hab name hb ha => hab ha hb⟩
    by_cases hab : a = b
    · subst hab
      exact ne_append_doc _ he
    · have hmema := (mem_foldedGraphs h ha (hunnamed a ha)).mpr ⟨hra, .inl rfl⟩
      have hmemb := (mem_foldedGraphs h hb (hunnamed b hb)).mpr ⟨hrb, .inr he⟩
      exact List.Pairwise.forall hpairwise ha hb hab hmema hmemb
  · intro hids
    refine ⟨⟨fun entry hentry => nodup_foldedGraphs h hentry (hunnamed entry hentry), ?_⟩,
      spellings_agree h⟩
    refine (keysDiffer_of_accepted h).imp_of_mem fun {a b} ha hb hkeys name hna hnb => ?_
    obtain ⟨hra, hna⟩ := (mem_foldedGraphs h ha (hunnamed a ha)).mp hna
    obtain ⟨hrb, hnb⟩ := (mem_foldedGraphs h hb (hunnamed b hb)).mp hnb
    obtain ⟨key, hkey⟩ := Option.isSome_iff_exists.mp hra.1
    have hids_ne : P.text a.projectId ≠ P.text b.projectId := fun he =>
      hkeys key hkey (lookupKey_of_text_eq he ▸ hkey)
    rcases hna with rfl | rfl <;> rcases hnb with he | he
    · exact hids_ne he
    · exact hids a ha b hb hra hrb he
    · exact hids b hb a ha hrb hra he.symm
    · exact hids_ne (List.append_cancel_right he)

/-! ## Runs -/

def samplePlatform : Platform where
  toCasefold := .ascii
  lower text := text.map fun c => if c.toNat < 128 then c.toLower else c
  repr _ := []
  environ _ := none

/-- A config document with nothing but the project's code. -/
def sampleDocument (code : String) : Row := [("project", .obj [("code", .str code)])]

def sampleEntry (code : String) : Entry where
  projectId := code.toList
  projectName := none
  parserType := none
  codeEnv := []
  docEnv := []
  active := false
  storageBackend := "local".toList
  remoteConfig := none

theorem separate_sample :
    Separate samplePlatform [sampleDocument "bank", sampleDocument "shop"]
        [sampleEntry "bank", sampleEntry "shop"] ∧
      SpellingsAgree samplePlatform [sampleDocument "bank", sampleDocument "shop"]
        [sampleEntry "bank", sampleEntry "shop"] := by
  refine (separate_iff rfl ?_).mpr ?_
  · intro entry hentry
    simp only [List.mem_cons, List.not_mem_nil, or_false] at hentry
    rcases hentry with rfl | rfl <;> exact ⟨by decide, by decide⟩
  · intro a ha b hb _ _
    simp only [List.mem_cons, List.not_mem_nil, or_false] at ha hb
    rcases ha with rfl | rfl <;> rcases hb with rfl | rfl <;> decide

/-- The documents of `bank` and the code of `bank_doc` are in one graph. -/
theorem shared_graph_sample :
    projectEntries samplePlatform [sampleDocument "bank", sampleDocument "bank_doc"] =
      .ok [sampleEntry "bank", sampleEntry "bank_doc"] ∧
    (∀ entry ∈ [sampleEntry "bank", sampleEntry "bank_doc"], entry.Unnamed) ∧
    ¬ Separate samplePlatform [sampleDocument "bank", sampleDocument "bank_doc"]
        [sampleEntry "bank", sampleEntry "bank_doc"] := by
  refine ⟨rfl, ?_, by unfold Separate; decide⟩
  intro entry hentry
  simp only [List.mem_cons, List.not_mem_nil, or_false] at hentry
  rcases hentry with rfl | rfl <;> exact ⟨by decide, by decide⟩

end CortexHarness.Registered
