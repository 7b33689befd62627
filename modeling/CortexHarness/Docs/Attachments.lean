import Mathlib.Data.Multiset.MapFold
import CortexHarness.Docs.Entities
import CortexHarness.Library.FirstWins

/-!
# Which node a relation attaches to

Two runs of `build_graph_components_from_entities` on the same entities and relations in another
order, over the model of `Docs.Entities`. A node is compared by its profile: its id, its confidence
and the bag of its mentions. An end of a relation is a name only; it goes to the first entity of
that normalized name, whatever its type, and to a new `UNKNOWN` node when no entity has the name.

Results:
* `Settled.addEntity`, `Settled.endOf`: what the two loops keep;
* `build_spec`: the nodes and the relations of a run, read off the entities and the relations;
* **`build_order_iff`**: the ids are distinct, every end is the id of a node, the profiles do not
  depend on the order, and the relations do not exactly when no end has a normalized name that
  entities of two merge keys share;
* `types_swap`: an end that does.
-/

namespace CortexHarness.Docs

open Table

/-- What the first loop reads off an entity that it does not skip. -/
structure Entry where
  nameNorm : String
  key : String
  mention : Option Mention

section Read

variable (env : Texts) (mode : NormalizeMode) (projectIdNormalized : Option String)

def entryOf (found : Found) : Option Entry :=
  let name := strip found.name
  let nameNorm := normalizeEntityName env mode name
  if name = "" || nameNorm = "" then none
  else
    let entType := if found.type = "" then "UNKNOWN" else found.type
    some {
      nameNorm
      key := entityKey entType nameNorm projectIdNormalized
      mention := mentionOf name found }

/-- The normalized ends of a relation that is not skipped, and its type. -/
def endsOf (found : FoundRelation) : Option (String × String × String) :=
  let source := strip found.source
  let target := strip found.target
  let relType := if strip found.relation = "" then "RELATED" else strip found.relation
  let sourceNorm := normalizeEntityName env mode source
  let targetNorm := normalizeEntityName env mode target
  if source = "" || target = "" || sourceNorm = "" || targetNorm = "" then none
  else some (sourceNorm, targetNorm, relType)

/-- The normalized names of the ends. -/
def endNames (relations : List FoundRelation) : List String :=
  (relations.filterMap (endsOf env mode)).flatMap fun (source, target, _) => [source, target]

/-- The merge key of an end that no entity names. -/
def unknownKey (nameNorm : String) : String := entityKey "UNKNOWN" nameNorm projectIdNormalized

/-- The merge keys that a run can use. -/
def mergeKeys (entities : List Found) (relations : List FoundRelation) : List String :=
  (entities.filterMap (entryOf env mode projectIdNormalized)).map Entry.key ++
    (endNames env mode relations).map (unknownKey projectIdNormalized)

/-- The merge key of an end: that of the first entity of the name. -/
def keyOf (entries : List Entry) (nameNorm : String) : String :=
  ask Entry.nameNorm Entry.key (unknownKey projectIdNormalized) entries nameNorm

/-- The relation between the nodes of the ends. -/
def attach (entries : List Entry) (found : FoundRelation) : Option DocRelation :=
  (endsOf env mode found).map fun (source, target, relType) => {
    sourceId := env.uuid5 (keyOf projectIdNormalized entries source)
    targetId := env.uuid5 (keyOf projectIdNormalized entries target)
    type := relType }

end Read

/-! ## Profiles -/

/-- What is compared of a node. -/
structure Profile where
  id : String
  confidence : Option Rat
  mentions : Multiset Mention

def DocNode.profile (node : DocNode) : Profile :=
  { id := node.id, confidence := node.confidence, mentions := node.mentions }

/-- A confidence after one more mention. -/
def raise (existing : Option Rat) (mention : Mention) : Option Rat :=
  match mention.confidence, existing with
  | some confidence, some existing =>
    if existing < confidence then some confidence else some existing
  | some confidence, none => some confidence
  | none, existing => existing

theorem raise_comm (existing : Option Rat) (m m' : Mention) :
    raise (raise existing m) m' = raise (raise existing m') m := by
  unfold raise
  cases hm : m.confidence with
  | none => cases m'.confidence <;> rfl
  | some c =>
    cases hm' : m'.confidence with
    | none => rfl
    | some c' =>
      cases existing with
      | none => grind
      | some x => grind

/-- The profile that the entities of a merge key have together. -/
def gathered (env : Texts) (entries : List Entry) (key : String) : Option Profile :=
  let here := entries.filter fun e => e.key = key
  let mentions := here.filterMap Entry.mention
  if here = [] then none
  else some { id := env.uuid5 key, confidence := mentions.foldl raise none, mentions }

/-- The profile of a node that an end makes. -/
def blank (env : Texts) (key : String) : Profile :=
  { id := env.uuid5 key, confidence := none, mentions := 0 }

theorem gathered_perm (env : Texts) {entries entries' : List Entry} (h : entries'.Perm entries)
    (key : String) : gathered env entries' key = gathered env entries key := by
  have hhere := h.filter fun e => decide (e.key = key)
  have hmentions := hhere.filterMap Entry.mention
  unfold gathered
  simp only
  rw [hmentions.foldl_eq' fun x _ y _ z => raise_comm z x y, Multiset.coe_eq_coe.mpr hmentions]
  by_cases hnil : entries.filter (fun e => decide (e.key = key)) = []
  · rw [if_pos hnil, if_pos (List.perm_nil.mp (hnil ▸ hhere))]
  · have hnil' : ¬ entries'.filter (fun e => decide (e.key = key)) = [] := by
      intro he
      rw [he] at hhere
      exact hnil (List.perm_nil.mp hhere.symm)
    rw [if_neg hnil, if_neg hnil']

theorem gathered_of_mem (env : Texts) {entries : List Entry} {e : Entry} (h : e ∈ entries) :
    ∃ profile, gathered env entries e.key = some profile ∧ profile.id = env.uuid5 e.key := by
  have hne : entries.filter (fun x => decide (x.key = e.key)) ≠ [] :=
    List.ne_nil_of_mem (List.mem_filter.mpr ⟨h, decide_eq_true rfl⟩)
  unfold gathered
  simp only
  rw [if_neg hne]
  exact ⟨_, rfl, rfl⟩

theorem gathered_id {env : Texts} {entries : List Entry} {key : String} {profile : Profile}
    (h : gathered env entries key = some profile) :
    profile.id = env.uuid5 key ∧ ∃ e ∈ entries, e.key = key := by
  unfold gathered at h
  simp only at h
  split at h
  · cases h
  · next hne =>
    cases h
    obtain ⟨e, he⟩ := List.exists_mem_of_ne_nil _ hne
    obtain ⟨he, hk⟩ := List.mem_filter.mp he
    exact ⟨rfl, e, he, of_decide_eq_true hk⟩

/-- One more entity of a merge key. -/
theorem gathered_snoc (env : Texts) (entries : List Entry) (e : Entry) (key : String) :
    gathered env (entries ++ [e]) key =
      if e.key = key then
        some <| match gathered env entries key with
          | none => {
              id := env.uuid5 key
              confidence := e.mention.toList.foldl raise none
              mentions := e.mention.toList }
          | some profile => { profile with
              confidence := e.mention.toList.foldl raise profile.confidence
              mentions := profile.mentions + e.mention.toList }
      else gathered env entries key := by
  by_cases hk : e.key = key
  · have hone : [e].filterMap Entry.mention = e.mention.toList := by
      cases hm : e.mention <;> simp [hm]
    unfold gathered
    simp only [List.filter_append, List.filterMap_append, List.foldl_append]
    by_cases hnil : entries.filter (fun e => decide (e.key = key)) = []
    · simp [hnil, hk, hone]
    · simp [hnil, hk, hone]
  · have hnone : [e].filter (fun e => decide (e.key = key)) = [] := by simp [hk]
    rw [if_neg hk]
    unfold gathered
    rw [List.filter_append, hnone, List.append_nil]

theorem mentioned_profile (node : DocNode) (name : String) (mention : Option Mention) :
    (node.mentioned name mention).profile = { node.profile with
      confidence := mention.toList.foldl raise node.confidence
      mentions := (node.mentions : Multiset Mention) + mention.toList } := by
  unfold DocNode.mentioned
  cases mention with
  | none =>
    simp only [DocNode.profile, Option.toList_none, List.foldl_nil, Multiset.coe_add,
      List.append_nil]
    split <;> rfl
  | some mention =>
    simp only [DocNode.profile, Option.toList_some, List.foldl_cons, List.foldl_nil, raise,
      Multiset.coe_add]
    split <;> rfl

/-! ## What the loops keep -/

section Loops

variable {env : Texts} {mode : NormalizeMode} {projectIdNormalized : Option String}
  {entries : List Entry} {ends : List String} {b : Building}

/-- A merge key that an end has made a node for. -/
def Made (projectIdNormalized : Option String) (entries : List Entry) (ends : List String)
    (key : String) : Prop :=
  ∃ n ∈ ends, lookup Entry.nameNorm n entries = none ∧ unknownKey projectIdNormalized n = key

/-- The state after the entities `entries` and the ends `ends`. -/
structure Settled (env : Texts) (projectIdNormalized : Option String) (entries : List Entry)
    (ends : List String) (b : Building) : Prop where
  keyed : Keyed Prod.fst b.nodes
  index : ∀ n, (lookup Prod.fst n b.nameIndex).map Prod.snd =
    ((lookup Entry.nameNorm n entries).map Entry.key).or
      (if n ∈ ends then some (unknownKey projectIdNormalized n) else none)
  made : ∀ key, Made projectIdNormalized entries ends key →
    (lookup Prod.fst key b.nodes).map (fun e => e.2.profile) = some (blank env key)
  kept : ∀ key, ¬ Made projectIdNormalized entries ends key →
    (lookup Prod.fst key b.nodes).map (fun e => e.2.profile) = gathered env entries key

theorem Settled.nil : Settled env projectIdNormalized [] [] { nodes := [], nameIndex := [] } where
  keyed := List.nodup_nil
  index := fun _ => rfl
  made := fun _ ⟨_, hn, _⟩ => (List.not_mem_nil hn).elim
  kept := fun _ _ => rfl

theorem not_made_nil (key : String) : ¬ Made projectIdNormalized entries [] key :=
  fun ⟨_, hn, _⟩ => List.not_mem_nil hn

theorem lookup_index (b : Building) (nameNorm key n : String) :
    (lookup Prod.fst n (b.index nameNorm key).nameIndex).map Prod.snd =
      ((lookup Prod.fst n b.nameIndex).map Prod.snd).or
        (if nameNorm = n then some key else none) := by
  unfold Building.index
  split
  · next hold =>
    by_cases hn : nameNorm = n
    · subst hn
      obtain ⟨e, he⟩ := Option.isSome_iff_exists.mp hold
      rw [he]
      rfl
    · rw [if_neg hn, Option.or_none]
  · rw [lookup_append, lookup_singleton]
    by_cases hn : nameNorm = n
    · rw [if_pos hn, if_pos hn]
      cases lookup Prod.fst n b.nameIndex <;> rfl
    · rw [if_neg hn, if_neg hn, Option.or_none, Option.or_none]

theorem lookup_store (b : Building) (node : DocNode) (nameNorm key k : String) :
    (lookup Prod.fst k (b.store node nameNorm key).nodes).map (fun e => e.2.profile) =
      if key = k then some node.profile
      else (lookup Prod.fst k b.nodes).map fun e => e.2.profile := by
  have hnodes : (b.store node nameNorm key).nodes = assign Prod.fst (key, node) b.nodes := by
    unfold Building.store Building.index
    split <;> rfl
  rw [hnodes, lookup_assign]
  split <;> rfl

theorem keyed_store (h : Keyed Prod.fst b.nodes) (node : DocNode) (nameNorm key : String) :
    Keyed Prod.fst (b.store node nameNorm key).nodes := by
  unfold Building.store Building.index
  split
  · exact h.assign _
  · exact h.assign _

theorem store_index (b : Building) (node : DocNode) (nameNorm key : String) :
    (b.store node nameNorm key).nameIndex = (b.index nameNorm key).nameIndex := by
  unfold Building.store Building.index
  simp only
  split <;> rfl

theorem addEntity_eq (b : Building) (found : Found) :
    addEntity env mode projectIdNormalized b found = match entryOf env mode projectIdNormalized found
      with
      | none => b
      | some e => b.store (entityNode env projectIdNormalized b (strip found.name)
          (if found.type = "" then "UNKNOWN" else found.type) e.nameNorm e.mention) e.nameNorm
          e.key := by
  unfold addEntity entryOf
  simp only
  split <;> rfl

/-- **An entity adds what it says to the node of its merge key.** -/
theorem Settled.addEntity (h : Settled env projectIdNormalized entries [] b)
    (mode : NormalizeMode) (found : Found) :
    Settled env projectIdNormalized
      (entries ++ (entryOf env mode projectIdNormalized found).toList) []
      (addEntity env mode projectIdNormalized b found) := by
  rw [addEntity_eq]
  cases he : entryOf env mode projectIdNormalized found with
  | none => rwa [Option.toList_none, List.append_nil]
  | some e =>
    rw [Option.toList_some]
    have hread : e.nameNorm ≠ "" ∧ e.key = entityKey
        (if found.type = "" then "UNKNOWN" else found.type) e.nameNorm projectIdNormalized := by
      unfold entryOf at he
      simp only at he
      split at he
      · cases he
      · next hname =>
        cases he
        rw [Bool.or_eq_true, decide_eq_true_eq, decide_eq_true_eq, not_or] at hname
        exact ⟨hname.2, rfl⟩
    simp only
    refine ⟨keyed_store h.keyed _ _ _, ?_, ?_, ?_⟩
    · intro n
      rw [store_index, lookup_index, h.index, lookup_append, lookup_singleton,
        if_neg List.not_mem_nil, Option.or_none, Option.or_none]
      cases lookup Entry.nameNorm n entries with
      | some _ => rfl
      | none => by_cases hn : e.nameNorm = n <;> simp [hn]
    · exact fun key hmade => absurd hmade (not_made_nil key)
    · intro key _
      have hkept := h.kept key (not_made_nil key)
      rw [lookup_store, gathered_snoc, hkept]
      by_cases hk : e.key = key
      · subst hk
        rw [if_pos rfl, if_pos rfl]
        congr 1
        unfold entityNode
        rw [← hread.2]
        cases hl : lookup Prod.fst e.key b.nodes with
        | none =>
          rw [hl] at hkept
          rw [← hkept]
          simp only [Option.map_none, DocNode.profile, entityId_norm hread.1, ← hread.2]
          cases e.mention with
          | none => rfl
          | some m => cases hm : m.confidence <;> simp [raise, hm]
        | some old =>
          rw [hl] at hkept
          rw [← hkept]
          simp only [Option.map_some, mentioned_profile]
          rfl
      · rw [if_neg hk, if_neg hk]

/-- A name of an entity, or one already seen, adds nothing. -/
theorem made_known {n : String} (h : n ∈ ends ∨ lookup Entry.nameNorm n entries ≠ none)
    (key : String) :
    Made projectIdNormalized entries (ends ++ [n]) key ↔
      Made projectIdNormalized entries ends key := by
  constructor
  · rintro ⟨m, hm, hnone, hkey⟩
    rcases List.mem_append.mp hm with hm | hm
    · exact ⟨m, hm, hnone, hkey⟩
    · rw [List.mem_singleton.mp hm] at hnone hkey
      exact ⟨n, h.resolve_right fun hne => hne hnone, hnone, hkey⟩
  · rintro ⟨m, hm, hnone, hkey⟩
    exact ⟨m, List.mem_append_left _ hm, hnone, hkey⟩

theorem keyOf_some {n : String} {e : Entry} (h : lookup Entry.nameNorm n entries = some e) :
    keyOf projectIdNormalized entries n = e.key := by
  rw [keyOf, ask, h]
  rfl

theorem keyOf_none {n : String} (h : lookup Entry.nameNorm n entries = none) :
    keyOf projectIdNormalized entries n = unknownKey projectIdNormalized n := by
  rw [keyOf, ask, h]
  rfl

/-- **An end goes to the first entity of its name, or to a new node.** -/
theorem Settled.endOf (h : Settled env projectIdNormalized entries ends b) (name : String)
    {n : String} (hn : n ≠ "") :
    (endOf env projectIdNormalized b name n).2 = keyOf projectIdNormalized entries n ∧
      Settled env projectIdNormalized entries (ends ++ [n])
        (endOf env projectIdNormalized b name n).1 := by
  have hindex := h.index n
  unfold Docs.endOf
  cases hl : lookup Prod.fst n b.nameIndex with
  | some old =>
    rw [hl] at hindex
    have hknown : n ∈ ends ∨ lookup Entry.nameNorm n entries ≠ none := by
      cases he : lookup Entry.nameNorm n entries with
      | some e => exact Or.inr (by simp)
      | none =>
        rw [he] at hindex
        by_cases hmem : n ∈ ends
        · exact Or.inl hmem
        · simp [hmem] at hindex
    refine ⟨?_, h.keyed, ?_, ?_, ?_⟩
    · cases he : lookup Entry.nameNorm n entries with
      | some e =>
        rw [he] at hindex
        rw [keyOf_some he]
        exact Option.some.inj hindex
      | none =>
        rw [he, if_pos (hknown.resolve_right fun hne => hne he)] at hindex
        rw [keyOf_none he]
        exact Option.some.inj hindex
    · intro m
      rw [h.index m]
      cases he : lookup Entry.nameNorm m entries with
      | some e => rfl
      | none =>
        have hmem : m ∈ ends ++ [n] ↔ m ∈ ends := by
          rw [List.mem_append, List.mem_singleton, or_iff_left_of_imp]
          rintro rfl
          exact hknown.resolve_right fun hne => hne he
        rw [ite_congr (propext hmem) (fun _ => rfl) fun _ => rfl]
    · exact fun key hmade => h.made key ((made_known hknown key).mp hmade)
    · exact fun key hmade => h.kept key fun hm => hmade ((made_known hknown key).mpr hm)
  | none =>
    rw [hl] at hindex
    obtain ⟨hnone, hnew⟩ : lookup Entry.nameNorm n entries = none ∧ n ∉ ends := by
      cases he : lookup Entry.nameNorm n entries with
      | some e => simp [he] at hindex
      | none =>
        refine ⟨rfl, fun hmem => ?_⟩
        simp [he, hmem] at hindex
    refine ⟨(keyOf_none hnone).symm, keyed_store h.keyed _ _ _, ?_, ?_, ?_⟩
    · intro m
      rw [store_index, lookup_index, h.index m]
      by_cases hm : n = m
      · subst hm
        simp [hnone, hnew, unknownKey]
      · have hmem : m ∈ ends ++ [n] ↔ m ∈ ends := by
          rw [List.mem_append, List.mem_singleton, or_iff_left_of_imp]
          exact fun he => absurd he.symm hm
        rw [if_neg hm, Option.or_none, ite_congr (propext hmem) (fun _ => rfl) fun _ => rfl]
    · rintro key ⟨m, hm, hmnone, hkey⟩
      rw [lookup_store]
      by_cases hk : unknownKey projectIdNormalized n = key
      · rw [unknownKey] at hk
        rw [if_pos hk]
        simp only [DocNode.profile, entityId_norm hn, hk]
        rfl
      · have hold : m ∈ ends := by
          rcases List.mem_append.mp hm with hm | hm
          · exact hm
          · rw [List.mem_singleton.mp hm] at hkey
            exact absurd hkey hk
        rw [unknownKey] at hk
        rw [if_neg hk]
        exact h.made key ⟨m, hold, hmnone, hkey⟩
    · intro key hmade
      have hk : ¬ entityKey "UNKNOWN" n projectIdNormalized = key := fun hk =>
        hmade ⟨n, List.mem_append_right _ (List.mem_singleton.mpr rfl), hnone, hk⟩
      rw [lookup_store, if_neg hk]
      refine h.kept key ?_
      rintro ⟨m, hm, hmnone, hkey⟩
      exact hmade ⟨m, List.mem_append_left _ hm, hmnone, hkey⟩

theorem Settled.profile_id (h : Settled env projectIdNormalized entries ends b)
    {e : String × DocNode} (he : e ∈ b.nodes) :
    e.2.id = env.uuid5 e.1 ∧ ((∃ x ∈ entries, x.key = e.1) ∨
      ∃ n ∈ ends, unknownKey projectIdNormalized n = e.1) := by
  have hl := lookup_of_mem h.keyed he
  by_cases hmade : Made projectIdNormalized entries ends e.1
  · have hblank := h.made _ hmade
    rw [hl, Option.map_some, Option.some.injEq] at hblank
    obtain ⟨n, hn, -, hkey⟩ := hmade
    exact ⟨congrArg Profile.id hblank, Or.inr ⟨n, hn, hkey⟩⟩
  · have hgathered := h.kept _ hmade
    rw [hl, Option.map_some] at hgathered
    obtain ⟨hid, hentry⟩ := gathered_id hgathered.symm
    exact ⟨hid, Or.inl hentry⟩

/-- An end that has been read has a node. -/
theorem Settled.has (h : Settled env projectIdNormalized entries ends b) {n : String}
    (hn : n ∈ ends) :
    ∃ e, lookup Prod.fst (keyOf projectIdNormalized entries n) b.nodes = some e := by
  suffices hsome : ∃ profile, (lookup Prod.fst (keyOf projectIdNormalized entries n) b.nodes).map
      (fun e => e.2.profile) = some profile by
    obtain ⟨_, hprofile⟩ := hsome
    obtain ⟨e, he, -⟩ := Option.map_eq_some_iff.mp hprofile
    exact ⟨e, he⟩
  by_cases hmade : Made projectIdNormalized entries ends (keyOf projectIdNormalized entries n)
  · exact ⟨_, h.made _ hmade⟩
  · rw [h.kept _ hmade]
    cases he : lookup Entry.nameNorm n entries with
    | none => exact absurd ⟨n, hn, he, (keyOf_none he).symm⟩ hmade
    | some e =>
      obtain ⟨profile, hprofile, -⟩ := gathered_of_mem env (lookup_mem he)
      exact ⟨profile, by rw [keyOf_some he, hprofile]⟩

theorem Settled.idOf (h : Settled env projectIdNormalized entries ends b) {n : String}
    (hn : n ∈ ends) :
    b.idOf (keyOf projectIdNormalized entries n) =
      env.uuid5 (keyOf projectIdNormalized entries n) := by
  obtain ⟨e, he⟩ := h.has hn
  have hid := (h.profile_id (lookup_mem he)).1
  rw [lookup_key he] at hid
  rw [Building.idOf, he]
  exact hid

/-- The ends of one relation. -/
def endsOfOne (env : Texts) (mode : NormalizeMode) (found : FoundRelation) : List String :=
  (endsOf env mode found).elim [] fun (source, target, _) => [source, target]

theorem endNames_cons (found : FoundRelation) (relations : List FoundRelation) :
    endNames env mode (found :: relations) =
      endsOfOne env mode found ++ endNames env mode relations := by
  unfold endNames endsOfOne
  cases he : endsOf env mode found with
  | none => rw [List.filterMap_cons_none he]; rfl
  | some ends => rw [List.filterMap_cons_some he]; rfl

/-- **A relation is put between the nodes of its ends.** -/
theorem Settled.addRelation {s : Building × List DocRelation}
    (h : Settled env projectIdNormalized entries ends s.1) (mode : NormalizeMode)
    (found : FoundRelation) :
    Settled env projectIdNormalized entries (ends ++ endsOfOne env mode found)
        (addRelation env mode projectIdNormalized s found).1 ∧
      (addRelation env mode projectIdNormalized s found).2 =
        s.2 ++ (attach env mode projectIdNormalized entries found).toList := by
  unfold Docs.addRelation endsOfOne attach endsOf
  simp only
  split
  · exact ⟨by rwa [Option.elim_none, List.append_nil], (List.append_nil _).symm⟩
  · next hends =>
    simp only [Bool.or_eq_true, decide_eq_true_eq, not_or] at hends
    obtain ⟨hsource, hfirst⟩ := h.endOf (strip found.source) hends.1.2
    obtain ⟨htarget, hsecond⟩ := hfirst.endOf (strip found.target) hends.2
    rw [List.append_assoc] at hsecond
    refine ⟨hsecond, ?_⟩
    rw [hsource, htarget, hsecond.idOf (by simp), hsecond.idOf (by simp)]
    rfl

theorem Settled.entities (h : Settled env projectIdNormalized entries [] b)
    (mode : NormalizeMode) (entities : List Found) :
    Settled env projectIdNormalized
      (entries ++ entities.filterMap (entryOf env mode projectIdNormalized)) []
      (entities.foldl (Docs.addEntity env mode projectIdNormalized) b) := by
  induction entities generalizing b entries with
  | nil => rwa [List.filterMap_nil, List.append_nil]
  | cons found entities ih =>
    have hnext := ih (h.addEntity mode found)
    have hread : (found :: entities).filterMap (entryOf env mode projectIdNormalized) =
        (entryOf env mode projectIdNormalized found).toList ++
          entities.filterMap (entryOf env mode projectIdNormalized) := by
      cases he : entryOf env mode projectIdNormalized found with
      | none => rw [List.filterMap_cons_none he]; rfl
      | some e => rw [List.filterMap_cons_some he]; rfl
    rwa [List.append_assoc, ← hread] at hnext

theorem Settled.relations {s : Building × List DocRelation}
    (h : Settled env projectIdNormalized entries ends s.1) (mode : NormalizeMode)
    (relations : List FoundRelation) :
    Settled env projectIdNormalized entries (ends ++ endNames env mode relations)
        (relations.foldl (Docs.addRelation env mode projectIdNormalized) s).1 ∧
      (relations.foldl (Docs.addRelation env mode projectIdNormalized) s).2 =
        s.2 ++ relations.filterMap (attach env mode projectIdNormalized entries) := by
  induction relations generalizing s ends with
  | nil => exact ⟨by rwa [endNames, List.filterMap_nil, List.flatMap_nil, List.append_nil],
      (List.append_nil _).symm⟩
  | cons found relations ih =>
    obtain ⟨hone, hcleaned⟩ := h.addRelation mode found
    obtain ⟨hall, hrest⟩ := ih hone
    rw [List.append_assoc, ← endNames_cons] at hall
    refine ⟨hall, hrest.trans ?_⟩
    rw [hcleaned, List.append_assoc]
    congr 1
    cases ha : attach env mode projectIdNormalized entries found with
    | none => rw [List.filterMap_cons_none ha]; rfl
    | some a => rw [List.filterMap_cons_some ha]; rfl

/-- **The nodes and the relations of a run**, read off the entities and the relations. -/
theorem build_spec (env : Texts) (mode : NormalizeMode) (projectIdNormalized : Option String)
    (entities : List Found) (relations : List FoundRelation) :
    ∃ b, Settled env projectIdNormalized
        (entities.filterMap (entryOf env mode projectIdNormalized)) (endNames env mode relations) b ∧
      buildGraphComponentsFromEntities env mode projectIdNormalized entities relations =
        (b.nodes.map Prod.snd, relations.filterMap (attach env mode projectIdNormalized
          (entities.filterMap (entryOf env mode projectIdNormalized)))) := by
  have hempty : Settled env projectIdNormalized [] [] { nodes := [], nameIndex := [] } :=
    Settled.nil
  have hentities := hempty.entities mode entities
  rw [List.nil_append] at hentities
  obtain ⟨hsettled, hcleaned⟩ := Settled.relations (s := (_, [])) hentities mode relations
  exact ⟨_, hsettled, congrArg _ hcleaned⟩

/-! ## Two orders -/

theorem endNames_perm {relations relations' : List FoundRelation}
    (h : relations'.Perm relations) :
    (endNames env mode relations').Perm (endNames env mode relations) :=
  (h.filterMap _).flatMap_right _

theorem endsOfOne_mem {relations : List FoundRelation} {found : FoundRelation}
    (h : found ∈ relations) {n : String} (hn : n ∈ endsOfOne env mode found) :
    n ∈ endNames env mode relations := by
  unfold endsOfOne at hn
  cases he : endsOf env mode found with
  | none => rw [he] at hn; exact (List.not_mem_nil hn).elim
  | some ends =>
    rw [he] at hn
    exact List.mem_flatMap.mpr ⟨ends, List.mem_filterMap.mpr ⟨found, h, he⟩, hn⟩

theorem ends_of_attach (entries : List Entry) (relations : List FoundRelation) :
    (relations.filterMap (attach env mode projectIdNormalized entries)).flatMap
        (fun r => [r.sourceId, r.targetId]) =
      (endNames env mode relations).map (ask Entry.nameNorm (fun e => env.uuid5 e.key)
        (fun n => env.uuid5 (unknownKey projectIdNormalized n)) entries) := by
  have hask : ∀ n, env.uuid5 (keyOf projectIdNormalized entries n) =
      ask Entry.nameNorm (fun e => env.uuid5 e.key)
        (fun n => env.uuid5 (unknownKey projectIdNormalized n)) entries n := by
    intro n
    unfold keyOf ask
    cases lookup Entry.nameNorm n entries <;> rfl
  induction relations with
  | nil => rfl
  | cons found relations ih =>
    rw [endNames_cons, List.map_append, ← ih]
    unfold endsOfOne
    cases he : endsOf env mode found with
    | none =>
      have ha : attach env mode projectIdNormalized entries found = none := by rw [attach, he]; rfl
      rw [List.filterMap_cons_none ha]
      rfl
    | some ends =>
      obtain ⟨source, target, relType⟩ := ends
      have ha : attach env mode projectIdNormalized entries found = some {
          sourceId := env.uuid5 (keyOf projectIdNormalized entries source)
          targetId := env.uuid5 (keyOf projectIdNormalized entries target)
          type := relType } := by rw [attach, he]; rfl
      rw [List.filterMap_cons_some ha, List.flatMap_cons]
      simp only [hask, Option.elim_some, List.map_cons, List.map_nil]

theorem Settled.profiles_perm {entries' : List Entry} {ends' : List String} {b' : Building}
    (h : Settled env projectIdNormalized entries ends b)
    (h' : Settled env projectIdNormalized entries' ends' b') (hentries : entries'.Perm entries)
    (hends : ends'.Perm ends) :
    ((b'.nodes.map Prod.snd).map DocNode.profile).Perm
      ((b.nodes.map Prod.snd).map DocNode.profile) := by
  have hmade : ∀ key, Made projectIdNormalized entries' ends' key ↔
      Made projectIdNormalized entries ends key := by
    intro key
    simp only [Made, lookup_eq_none, hentries.mem_iff, hends.mem_iff]
  have hfound : ∀ (b : Building) (key : String),
      lookup Prod.fst key (b.nodes.map fun e => (e.1, e.2.profile)) =
        (lookup Prod.fst key b.nodes).map fun e => (e.1, e.2.profile) := by
    intro b key
    rw [lookup, List.find?_map]
    rfl
  have hlookup : ∀ key, lookup Prod.fst key (b'.nodes.map fun e => (e.1, e.2.profile)) =
      lookup Prod.fst key (b.nodes.map fun e => (e.1, e.2.profile)) := by
    intro key
    have hprofile : (lookup Prod.fst key b'.nodes).map (fun e => e.2.profile) =
        (lookup Prod.fst key b.nodes).map fun e => e.2.profile := by
      by_cases hm : Made projectIdNormalized entries ends key
      · rw [h.made key hm, h'.made key ((hmade key).mpr hm)]
      · rw [h.kept key hm, h'.kept key fun hm' => hm ((hmade key).mp hm'),
          gathered_perm env hentries]
    rw [hfound, hfound]
    cases hl : lookup Prod.fst key b.nodes with
    | none =>
      rw [hl, Option.map_none, Option.map_eq_none_iff] at hprofile
      rw [hprofile]
    | some e =>
      rw [hl, Option.map_some, Option.map_eq_some_iff] at hprofile
      obtain ⟨e', hl', hsame⟩ := hprofile
      rw [hl', Option.map_some, Option.map_some, lookup_key hl, lookup_key hl', hsame]
  have hkeyed : ∀ {b : Building}, Keyed Prod.fst b.nodes →
      Keyed Prod.fst (b.nodes.map fun e => (e.1, e.2.profile)) := by
    intro b hb
    rw [Keyed, List.map_map]
    exact hb
  have hperm := (Keyed.perm (hkeyed h'.keyed) (hkeyed h.keyed) hlookup).map Prod.snd
  simpa only [List.map_map, Function.comp_def] using hperm

/-- **Two orders of the same entities and relations.** The ids are distinct, the ends are ids of
nodes and the profiles do not depend on the order; the relations do not exactly when no end has a
normalized name that entities of two merge keys share. -/
theorem build_order_iff {entities : List Found} {relations : List FoundRelation}
    (huuid : ∀ k ∈ mergeKeys env mode projectIdNormalized entities relations,
      ∀ k' ∈ mergeKeys env mode projectIdNormalized entities relations,
        env.uuid5 k = env.uuid5 k' → k = k') :
    let build := buildGraphComponentsFromEntities env mode projectIdNormalized
    let (nodes, cleaned) := build entities relations
    (nodes.map DocNode.id).Nodup ∧
      (∀ r ∈ cleaned, r.sourceId ∈ nodes.map DocNode.id ∧ r.targetId ∈ nodes.map DocNode.id) ∧
      (∀ entities' relations', entities'.Perm entities → relations'.Perm relations →
        ((build entities' relations').1.map DocNode.profile).Perm (nodes.map DocNode.profile)) ∧
      ((∀ entities' relations', entities'.Perm entities → relations'.Perm relations →
          (build entities' relations').2.Perm cleaned) ↔
        ∀ n ∈ endNames env mode relations, Agree Entry.nameNorm Entry.key
          (entities.filterMap (entryOf env mode projectIdNormalized)) n) := by
  obtain ⟨b, hb, hbuild⟩ := build_spec env mode projectIdNormalized entities relations
  simp only
  rw [hbuild]
  refine ⟨?_, ?_, ?_, ?_, ?_⟩
  · have hids : (b.nodes.map Prod.snd).map DocNode.id = (b.nodes.map Prod.fst).map env.uuid5 := by
      rw [List.map_map, List.map_map]
      exact List.map_congr_left fun e he => (hb.profile_id he).1
    have hkeys : ∀ k ∈ b.nodes.map Prod.fst,
        k ∈ mergeKeys env mode projectIdNormalized entities relations := by
      intro k hk
      obtain ⟨e, he, rfl⟩ := List.mem_map.mp hk
      rcases (hb.profile_id he).2 with ⟨x, hx, hkey⟩ | ⟨n, hn, hkey⟩
      · exact List.mem_append_left _ (List.mem_map.mpr ⟨x, hx, hkey⟩)
      · exact List.mem_append_right _ (List.mem_map.mpr ⟨n, hn, hkey⟩)
    rw [hids]
    exact hb.keyed.map_on fun k hk k' hk' he => huuid k (hkeys k hk) k' (hkeys k' hk') he
  · have hin : ∀ n ∈ endNames env mode relations,
        env.uuid5 (keyOf projectIdNormalized
          (entities.filterMap (entryOf env mode projectIdNormalized)) n) ∈
        (b.nodes.map Prod.snd).map DocNode.id := by
      intro n hn
      obtain ⟨e, he⟩ := hb.has hn
      have hid := (hb.profile_id (lookup_mem he)).1
      rw [lookup_key he] at hid
      exact List.mem_map.mpr ⟨e.2, List.mem_map_of_mem (lookup_mem he), hid⟩
    intro r hr
    obtain ⟨found, hfound, hattach⟩ := List.mem_filterMap.mp hr
    obtain ⟨⟨source, target, relType⟩, hends, rfl⟩ := Option.map_eq_some_iff.mp hattach
    have hmem : ∀ n ∈ [source, target], n ∈ endNames env mode relations := fun n hn =>
      endsOfOne_mem hfound (by rw [endsOfOne, hends]; exact hn)
    exact ⟨hin source (hmem source (by simp)), hin target (hmem target (by simp))⟩
  · intro entities' relations' hentities hrelations
    obtain ⟨b', hb', hbuild'⟩ := build_spec env mode projectIdNormalized entities' relations'
    rw [hbuild']
    exact hb.profiles_perm hb' (hentities.filterMap _) (endNames_perm hrelations)
  · intro h n hn e he e' he' hne hne'
    have hasked := asked_perm_iff.mp (fun entries' hperm => by
      obtain ⟨entities', hentities, hread⟩ := exists_perm_filterMap hperm entities rfl
      have hsame := h entities' relations hentities (List.Perm.refl _)
      obtain ⟨_, -, hbuild'⟩ := build_spec env mode projectIdNormalized entities' relations
      rw [hbuild', hread] at hsame
      have hends := hsame.flatMap_right fun r : DocRelation => [r.sourceId, r.targetId]
      rwa [ends_of_attach, ends_of_attach] at hends) n hn e he e' he' hne hne'
    exact huuid _ (List.mem_append_left _ (List.mem_map_of_mem he)) _
      (List.mem_append_left _ (List.mem_map_of_mem he')) hasked
  · intro h entities' relations' hentities hrelations
    obtain ⟨_, -, hbuild'⟩ := build_spec env mode projectIdNormalized entities' relations'
    rw [hbuild']
    have hsame : relations.filterMap (attach env mode projectIdNormalized
          (entities'.filterMap (entryOf env mode projectIdNormalized))) =
        relations.filterMap (attach env mode projectIdNormalized
          (entities.filterMap (entryOf env mode projectIdNormalized))) := by
      refine List.filterMap_congr fun found hfound => ?_
      unfold attach
      cases hends : endsOf env mode found with
      | none => rfl
      | some ends =>
        obtain ⟨source, target, relType⟩ := ends
        have hkey : ∀ n ∈ [source, target], keyOf projectIdNormalized
              (entities'.filterMap (entryOf env mode projectIdNormalized)) n =
            keyOf projectIdNormalized
              (entities.filterMap (entryOf env mode projectIdNormalized)) n := fun n hn =>
          ask_perm (h n (endsOfOne_mem hfound (by rw [endsOfOne, hends]; exact hn)))
            (hentities.filterMap _)
        simp only [Option.map_some, hkey source (by simp), hkey target (by simp)]
    exact hsame ▸ hrelations.filterMap _

end Loops

/-- The ids of the merge keys of one relation, the letters lowered one by one. -/
def shopTexts : Texts where
  lower := fun text => String.ofList (text.toList.map Char.toLower)
  uuid5 := fun key =>
    if key = "ORG::apple" then "f0497d35-b338-5dce-81f3-74f0e1f9164b"
    else if key = "FRUIT::apple" then "61c9536c-0432-508f-8469-20bc31e28e24"
    else if key = "UNKNOWN::market" then "94f42fe2-dea8-5559-b9bc-e9f11d9e88bb"
    else key

def shopEntity (type : String) : Found :=
  { name := "Apple", type, startChar := none, endChar := none, confidence := none }

def shopRelation : FoundRelation :=
  { source := "Apple", target := "Market", relation := "sold_at" }

/-- **A name of two types**: the relation goes to the one that is found first. -/
theorem types_swap :
    let build := buildGraphComponentsFromEntities shopTexts .aggressive none
    [shopEntity "FRUIT", shopEntity "ORG"].Perm [shopEntity "ORG", shopEntity "FRUIT"] ∧
      ¬ (build [shopEntity "FRUIT", shopEntity "ORG"] [shopRelation]).2.Perm
        (build [shopEntity "ORG", shopEntity "FRUIT"] [shopRelation]).2 := by
  refine ⟨List.Perm.swap _ _ _, ?_⟩
  decide +kernel

/-- With the organisation alone the order does not matter. -/
theorem build_order_iff_shop :
    let build := buildGraphComponentsFromEntities shopTexts .aggressive none
    let (nodes, cleaned) := build [shopEntity "ORG"] [shopRelation]
    (nodes.map DocNode.id).Nodup ∧
      (∀ r ∈ cleaned, r.sourceId ∈ nodes.map DocNode.id ∧ r.targetId ∈ nodes.map DocNode.id) ∧
      (∀ entities' relations', entities'.Perm [shopEntity "ORG"] →
        relations'.Perm [shopRelation] →
        ((build entities' relations').1.map DocNode.profile).Perm (nodes.map DocNode.profile)) ∧
      ((∀ entities' relations', entities'.Perm [shopEntity "ORG"] →
          relations'.Perm [shopRelation] → (build entities' relations').2.Perm cleaned) ↔
        ∀ n ∈ endNames shopTexts .aggressive [shopRelation], Agree Entry.nameNorm Entry.key
          ([shopEntity "ORG"].filterMap (entryOf shopTexts .aggressive none)) n) :=
  @build_order_iff shopTexts .aggressive none [shopEntity "ORG"] [shopRelation]
    (by decide +kernel)

end CortexHarness.Docs
