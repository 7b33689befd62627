import CortexHarness.Library.Best
import CortexHarness.Library.Dict
import CortexHarness.Library.Firsts
import CortexHarness.Library.Walks
import Mathlib.Data.Rat.Defs
import Mathlib.Order.Bounds.Basic
import Mathlib.Order.OrderDual

/-!
# Graph expansion

Model of `GraphExpander.expand` and `AsyncGraphExpander.expand` (`tools/common/graph_expander.py`)
over what a database answers to `_expand_cypher` and to the query of `_fetch_seeds`.

* `Answers` is the query: its rows are walks from a node with a seed's id to a node with another
  one, both of the project, each row once and in any order; there are no more of them than the
  limit, and fewer only when these are all. `Engine` is what a database takes for a path: every
  trail, and possibly walks that repeat a relationship.
* The columns of a node are kept as they are. Scores are fractions: the table has exact tenths, and
  from five hops on the formula gives zero.

Results:
* `mem_expand_sync`, `mem_expand_async`: which distances the two loops keep of which rows;
* `isLeast_reaches`: the least row of a complete answer is the distance in the graph;
* `expansion_sound_iff`: both return the same distances, and exact ones, iff the asynchronous
  answer leads with the rows that are least in the other one and no seed that was cut off is closer.
-/

namespace CortexHarness.GraphExpansion

open Table Walks

/-! ## What a database answers -/

/-- A graph database: `id` and `inScope` are the properties that the queries ask for. -/
structure Graph (V E : Type) where
  id : V → Option String
  /-- `$project_id IS NULL OR n.project_id_normalized STARTS WITH $project_id_normalized` -/
  inScope : V → Bool
  columns : V → Row
  type : E → String
  ends : E → V × V

/-- The relationship lists that a database takes for a path. -/
structure Engine (E : Type) where
  admits : List E → Prop
  trail : ∀ {es : List E}, es.Nodup → admits es

/-- A row of the expansion query. -/
structure Record where
  seedId : String
  nodeId : String
  columns : Row
  hops : Option Nat

/-- A row of the query for the seeds. -/
structure SeedRecord where
  nodeId : String
  columns : Row

/-- `_expand_cypher` with its parameters. -/
structure Query where
  relTypes : List String
  depth : Nat
  seedIds : List String
  limit : Nat

structure Database where
  fetch : List String → List SeedRecord
  expansion : Query → List Record

section Answers

variable {V E : Type} (g : Graph V E) (engine : Engine E)

/-- A walk over the relationship types from a node with a seed's id to one with the id. -/
def Reaches (relTypes seedIds : List String) (id : String) (n : Nat) : Prop :=
  ∃ sid ∈ seedIds, ∃ u v es, g.id u = some sid ∧ g.inScope u = true ∧
    Walk g.ends (fun e => g.type e ∈ relTypes) u es v ∧ es.length = n ∧
    g.id v = some id ∧ g.inScope v = true

/-- The rows of the query before `LIMIT`. -/
def IsRecord (q : Query) (r : Record) : Prop :=
  ∃ sid ∈ q.seedIds, ∃ u v es id, g.id u = some sid ∧ g.inScope u = true ∧
    Walk g.ends (fun e => g.type e ∈ q.relTypes) u es v ∧ engine.admits es ∧
    1 ≤ es.length ∧ es.length ≤ q.depth ∧ g.id v = some id ∧ id ≠ sid ∧ g.inScope v = true ∧
    r = ⟨sid, id, g.columns v, some es.length⟩

/-- The rows that a database may return. -/
structure Answers (q : Query) (records : List Record) : Prop where
  distinct : records.Nodup
  sound : ∀ r ∈ records, IsRecord g engine q r
  bounded : records.length ≤ q.limit
  complete : records.length < q.limit → ∀ r, IsRecord g engine q r → r ∈ records

/-- The seeds that a database finds. -/
def Found (seedIds : List String) (id : String) : Prop :=
  id ∈ seedIds ∧ ∃ v, g.id v = some id ∧ g.inScope v = true

def SeedAnswers (seedIds : List String) (records : List SeedRecord) : Prop :=
  ∀ id, (∃ r ∈ records, r.nodeId = id) ↔ Found g seedIds id

end Answers

/-! ## The code -/

/-- `_HOP_DECAY` -/
def hopDecay : List (Nat × ℚ) := [(0, 1), (1, 4 / 5), (2, 3 / 5), (3, 2 / 5), (4, 1 / 5)]

/-- `_hop_proximity` -/
def hopProximity (hops : Nat) : ℚ :=
  match hopDecay.lookup hops with
  | some score => score
  | none => if 1 - hops * (1 / 5) < (0 : ℚ) then 0 else 1 - hops * (1 / 5)

structure GraphNode where
  nodeId : String
  hopDistance : Nat
  graphProximity : ℚ
  columns : Row

/-- The arguments of `expand`. -/
structure Request where
  seedIds : List String
  depth : Nat
  relTypes : Option (List String)
  limit : Nat
  includeSeeds : Bool

/-- `DEFAULT_REL_TYPES` -/
def defaultRelTypes : List String :=
  ["CALLS", "USES_TYPE", "REFERENCES", "INHERITS", "ALIASES", "ALIAS_OF"]

/-- `rel_types or DEFAULT_REL_TYPES` -/
def Request.rels (request : Request) : List String :=
  match request.relTypes with
  | none | some [] => defaultRelTypes
  | some types => types

/-- `_max_expansion_seeds` for the number that the environment gives, if it gives one. -/
def maxExpansionSeeds : Option Int → Nat
  | none => 12
  | some value => if value < 1 then 1 else value.toNat

/-- `max(1, int(row.get("hops") or default))` -/
def hopsOf (default : Nat) (r : Record) : Nat :=
  match r.hops with
  | some (n + 1) => n + 1
  | _ => if default < 1 then 1 else default

/-- The node of a row. -/
def nodeOf (default : Nat) (r : Record) : GraphNode :=
  ⟨r.nodeId, hopsOf default r, hopProximity (hopsOf default r), r.columns⟩

/-- `_fetch_seeds` -/
def fetchSeeds (db : Database) (seedIds : List String) : List GraphNode :=
  if seedIds = [] then []
  else ((db.fetch seedIds).filter (·.nodeId ≠ "")).map fun r => ⟨r.nodeId, 0, 1, r.columns⟩

/-- The nodes that both begin with. -/
def seedNodes (db : Database) (request : Request) : List GraphNode :=
  if request.includeSeeds then fetchSeeds db request.seedIds else []

/-- `nid and nid not in seen` -/
def unseen (nodes : List GraphNode) (r : Record) : Bool :=
  r.nodeId ≠ "" && !nodes.any (·.nodeId == r.nodeId)

namespace GraphExpander

/-- The query, for the first seeds. -/
def query (maxSeeds : Nat) (request : Request) : Query :=
  ⟨request.rels, request.depth, request.seedIds.take maxSeeds, request.limit⟩

/-- `best`: the nearest row of every node. -/
def nearest (depth : Nat) (records : List Record) : List Record :=
  keepBest Record.nodeId (fun r kept => hopsOf depth r < hopsOf depth kept) records

/-- `GraphExpander.expand` -/
def expand (maxSeeds : Nat) (db : Database) (request : Request) : List GraphNode :=
  let nodes := seedNodes db request
  if request.seedIds = [] then nodes
  else
    let records := db.expansion (query maxSeeds request)
    let best := nearest request.depth (records.filter (unseen nodes))
    nodes ++ (best.mergeSort fun r r' => hopsOf request.depth r ≤ hopsOf request.depth r').map
      (nodeOf request.depth)

end GraphExpander

namespace AsyncGraphExpander

/-- The query, for all seeds. -/
def query (request : Request) : Query :=
  ⟨request.rels, request.depth, request.seedIds, request.limit⟩

/-- The loop over the rows. -/
def collect : List GraphNode → List Record → List GraphNode
  | nodes, [] => nodes
  | nodes, r :: records =>
    if unseen nodes r then collect (nodes ++ [nodeOf 1 r]) records else collect nodes records

/-- `AsyncGraphExpander.expand` -/
def expand (db : Database) (request : Request) : List GraphNode :=
  let nodes := seedNodes db request
  if request.seedIds = [] then nodes else collect nodes (db.expansion (query request))

end AsyncGraphExpander

/-! ## The two loops -/

theorem hopsOf_of_hops {default n : Nat} {r : Record} (hn : 1 ≤ n) (h : r.hops = some n) :
    hopsOf default r = n := by
  obtain ⟨m, rfl⟩ := Nat.exists_eq_add_of_le' hn
  rw [hopsOf, h]

/-- The distances that rows give an id. -/
def Hops (default : Nat) (records : List Record) (id : String) : Set Nat :=
  {n | ∃ r ∈ records, r.nodeId = id ∧ hopsOf default r = n}

theorem nearest_isLeast {depth : Nat} {records : List Record} {r : Record}
    (h : r ∈ GraphExpander.nearest depth records) :
    IsLeast (Hops depth records r.nodeId) (hopsOf depth r) := by
  have hbetter : (fun r kept : Record => decide (hopsOf depth r < hopsOf depth kept)) =
      fun r kept => decide (OrderDual.toDual (hopsOf depth kept) <
        OrderDual.toDual (hopsOf depth r)) := by
    funext r kept
    exact decide_eq_decide.mpr OrderDual.toDual_lt_toDual.symm
  have hbest := mem_keepBest.mp h
  refine ⟨⟨r, (List.mem_filter.mp (best_mem hbest)).1, rfl, rfl⟩, ?_⟩
  rintro n ⟨r', hr', hid, rfl⟩
  rw [hbetter] at hbest
  exact OrderDual.toDual_le_toDual.mp
    (best_le hbest r' (List.mem_filter.mpr ⟨hr', decide_eq_true hid⟩))

/-- The synchronous loop keeps the least distance of every id. -/
theorem exists_nearest {depth : Nat} {records : List Record} {id : String} {n : Nat} :
    (∃ r ∈ GraphExpander.nearest depth records, r.nodeId = id ∧ hopsOf depth r = n) ↔
      IsLeast (Hops depth records id) n := by
  constructor
  · rintro ⟨r, hr, rfl, rfl⟩
    exact nearest_isLeast hr
  · intro h
    obtain ⟨r, hr, rfl, -⟩ := h.1
    obtain ⟨r', hr', hid⟩ := List.mem_map.mp
      (map_key_keepBest.mpr (List.mem_map_of_mem (f := Record.nodeId) hr) :
        r.nodeId ∈ (GraphExpander.nearest depth records).map Record.nodeId)
    have hleast := nearest_isLeast hr'
    rw [hid] at hleast
    exact ⟨r', hr', hid, hleast.unique h⟩

theorem unseen_iff {nodes : List GraphNode} {r : Record} :
    unseen nodes r = true ↔ r.nodeId ≠ "" ∧ ∀ n ∈ nodes, n.nodeId ≠ r.nodeId := by
  simp [unseen]

theorem hops_unseen {depth : Nat} {nodes : List GraphNode} {records : List Record} {id : String}
    {n : Nat} : IsLeast (Hops depth (records.filter (unseen nodes)) id) n ↔
      id ≠ "" ∧ (∀ m ∈ nodes, m.nodeId ≠ id) ∧ IsLeast (Hops depth records id) n := by
  have hsame : ∀ {r : Record}, unseen nodes r = true →
      Hops depth (records.filter (unseen nodes)) r.nodeId = Hops depth records r.nodeId := by
    intro r hr
    ext m
    constructor
    · rintro ⟨r', hr', hrest⟩
      exact ⟨r', (List.mem_filter.mp hr').1, hrest⟩
    · rintro ⟨r', hr', hid, hrest⟩
      have hr'' : unseen nodes r' = true := by
        rw [unseen_iff, hid]
        exact unseen_iff.mp hr
      exact ⟨r', List.mem_filter.mpr ⟨hr', hr''⟩, hid, hrest⟩
  constructor
  · intro h
    obtain ⟨r, hr, rfl, -⟩ := h.1
    have hr' := (List.mem_filter.mp hr).2
    obtain ⟨hne, hnew⟩ := unseen_iff.mp hr'
    exact ⟨hne, hnew, hsame hr' ▸ h⟩
  · rintro ⟨hne, hnew, h⟩
    obtain ⟨r, -, rfl, -⟩ := h.1
    rwa [hsame (unseen_iff.mpr ⟨hne, hnew⟩)]

theorem lookup_cons {r : Record} {id : String} (records : List Record) :
    lookup Record.nodeId id (r :: records) =
      if r.nodeId = id then some r else lookup Record.nodeId id records := by
  by_cases h : r.nodeId = id <;> simp [lookup, h]

/-- The asynchronous loop keeps the first row of every id. -/
theorem mem_collect {nodes : List GraphNode} {records : List Record} {n : GraphNode} :
    n ∈ AsyncGraphExpander.collect nodes records ↔
      n ∈ nodes ∨ ∃ r, unseen nodes r = true ∧
        lookup Record.nodeId r.nodeId records = some r ∧ n = nodeOf 1 r := by
  induction records generalizing nodes with
  | nil => simp [AsyncGraphExpander.collect, lookup]
  | cons r records ih =>
    rw [AsyncGraphExpander.collect]
    by_cases hr : unseen nodes r = true
    · rw [if_pos hr, ih]
      have hmore : ∀ {r' : Record}, unseen (nodes ++ [nodeOf 1 r]) r' = true ↔
          unseen nodes r' = true ∧ r.nodeId ≠ r'.nodeId := by
        intro r'
        rw [unseen_iff, unseen_iff, and_assoc]
        refine and_congr_right fun _ => ?_
        simp only [List.mem_append, List.mem_singleton]
        constructor
        · exact fun h => ⟨fun n hn => h n (.inl hn), h _ (.inr rfl)⟩
        · rintro ⟨hold, hnew⟩ n (hn | rfl)
          · exact hold n hn
          · exact hnew
      constructor
      · rintro (hn | ⟨r', hr', hfirst, rfl⟩)
        · rcases List.mem_append.mp hn with hn | hn
          · exact .inl hn
          · refine .inr ⟨r, hr, ?_, List.mem_singleton.mp hn⟩
            rw [lookup_cons, if_pos rfl]
        · obtain ⟨hold, hne⟩ := hmore.mp hr'
          exact .inr ⟨r', hold, by rw [lookup_cons, if_neg hne, hfirst], rfl⟩
      · rintro (hn | ⟨r', hr', hfirst, rfl⟩)
        · exact .inl (List.mem_append_left _ hn)
        · rw [lookup_cons] at hfirst
          split at hfirst
          · cases hfirst
            exact .inl (List.mem_append_right _ (List.mem_singleton_self _))
          · next hne => exact .inr ⟨r', hmore.mpr ⟨hr', hne⟩, hfirst, rfl⟩
    · rw [if_neg hr, ih]
      have hne : ∀ {r' : Record}, unseen nodes r' = true → r.nodeId ≠ r'.nodeId := by
        intro r' hr' he
        rw [unseen_iff, he, ← unseen_iff] at hr
        exact hr hr'
      refine or_congr_right (exists_congr fun r' => and_congr_right fun hr' => ?_)
      rw [lookup_cons, if_neg (hne hr')]

/-! ## Rows and distances -/

section Distances

variable {V E : Type} {g : Graph V E} {engine : Engine E} {q : Query} {records : List Record}
  {id : String} {n : Nat}

/-- The lengths of the rows of an id. -/
def Lengths (records : List Record) (id : String) : Set Nat :=
  {n | ∃ r ∈ records, r.nodeId = id ∧ r.hops = some n}

/-- The length of the first row of an id. -/
def First (records : List Record) (id : String) (n : Nat) : Prop :=
  ∃ r, lookup Record.nodeId id records = some r ∧ r.hops = some n

theorem Reaches.mono {relTypes seedIds seedIds' : List String} (h : Reaches g relTypes seedIds id n)
    (hsub : seedIds ⊆ seedIds') : Reaches g relTypes seedIds' id n := by
  obtain ⟨sid, hsid, hrest⟩ := h
  exact ⟨sid, hsub hsid, hrest⟩

theorem IsRecord.reaches {r : Record} (h : IsRecord g engine q r) :
    ∃ n, r.hops = some n ∧ 1 ≤ n ∧ n ≤ q.depth ∧ Reaches g q.relTypes q.seedIds r.nodeId n := by
  obtain ⟨sid, hsid, u, v, es, id, hu, hin, hwalk, -, hone, hdepth, hv, -, hin', rfl⟩ := h
  exact ⟨es.length, rfl, hone, hdepth, sid, hsid, u, v, es, hu, hin, hwalk, rfl, hv, hin'⟩

theorem Answers.hopsOf (h : Answers g engine q records) {r : Record} (hr : r ∈ records)
    (default : Nat) : r.hops = some n ↔ hopsOf default r = n := by
  obtain ⟨m, hm, hone, -⟩ := (h.sound r hr).reaches
  rw [hm, hopsOf_of_hops hone hm, Option.some.injEq]

theorem Answers.hops_eq (h : Answers g engine q records) (default : Nat) :
    Hops default records id = Lengths records id := by
  ext n
  constructor
  · rintro ⟨r, hr, hid, hn⟩
    exact ⟨r, hr, hid, (h.hopsOf hr default).mpr hn⟩
  · rintro ⟨r, hr, hid, hn⟩
    exact ⟨r, hr, hid, (h.hopsOf hr default).mp hn⟩

theorem Answers.reaches (h : Answers g engine q records) (hn : n ∈ Lengths records id) :
    n ≤ q.depth ∧ Reaches g q.relTypes q.seedIds id n := by
  obtain ⟨r, hr, rfl, hhops⟩ := hn
  obtain ⟨m, hm, -, hdepth, hreaches⟩ := (h.sound r hr).reaches
  rw [hhops] at hm
  cases hm
  exact ⟨hdepth, hreaches⟩

/-- A complete answer has a row for every distance, or for a smaller one. -/
theorem Answers.exists_length (h : Answers g engine q records)
    (hcomplete : records.length < q.limit) (hid : id ∉ q.seedIds)
    (hreaches : Reaches g q.relTypes q.seedIds id n) (hdepth : n ≤ q.depth) :
    ∃ m ∈ Lengths records id, m ≤ n := by
  obtain ⟨sid, hsid, u, v, es, hu, hin, hwalk, rfl, hv, hin'⟩ := hreaches
  obtain ⟨trail, htrail, hnodup, hle⟩ := hwalk.exists_trail
  have hne : id ≠ sid := fun he => hid (he ▸ hsid)
  have hpos : 1 ≤ trail.length := by
    cases htrail with
    | nil =>
      rw [hu] at hv
      exact absurd (Option.some.inj hv).symm hne
    | cons => simp
  have hrow : IsRecord g engine q ⟨sid, id, g.columns v, some trail.length⟩ :=
    ⟨sid, hsid, u, v, trail, id, hu, hin, htrail, engine.trail hnodup, hpos, hle.trans hdepth, hv,
      hne, hin', rfl⟩
  exact ⟨trail.length, ⟨_, h.complete hcomplete _ hrow, rfl, rfl⟩, hle⟩

/-- **The least row of a complete answer is the distance from the seeds of the query.** -/
theorem Answers.isLeast_reaches (h : Answers g engine q records)
    (hcomplete : records.length < q.limit) (hid : id ∉ q.seedIds)
    (hleast : IsLeast (Lengths records id) n) :
    IsLeast {m | Reaches g q.relTypes q.seedIds id m} n := by
  obtain ⟨hdepth, hreaches⟩ := h.reaches hleast.1
  refine ⟨hreaches, fun m hm => ?_⟩
  by_cases hmd : m ≤ q.depth
  · obtain ⟨k, hk, hle⟩ := h.exists_length hcomplete hid hm hmd
    exact (hleast.2 hk).trans hle
  · omega

end Distances

/-! ## Two calls -/

/-- A call of each kind with the same arguments, with what the database answers to each. -/
structure Calls {V E : Type} (g : Graph V E) (engine : Engine E) where
  request : Request
  /-- `MCP_GRAPH_EXPANSION_MAX_SEEDS` -/
  environ : Option Int
  sync : Database
  async : Database
  syncSeeds : SeedAnswers g request.seedIds (sync.fetch request.seedIds)
  asyncSeeds : SeedAnswers g request.seedIds (async.fetch request.seedIds)
  syncAnswers : Answers g engine (GraphExpander.query (maxExpansionSeeds environ) request)
    (sync.expansion (GraphExpander.query (maxExpansionSeeds environ) request))
  asyncAnswers : Answers g engine (AsyncGraphExpander.query request)
    (async.expansion (AsyncGraphExpander.query request))

def GraphNode.triple (n : GraphNode) : String × Nat × ℚ :=
  (n.nodeId, n.hopDistance, n.graphProximity)

namespace Calls

variable {V E : Type} {g : Graph V E} {engine : Engine E} (c : Calls g engine)

/-- The seeds that the synchronous call cuts off. -/
def dropped : List String := c.request.seedIds.drop (maxExpansionSeeds c.environ)

/-- The rows of the synchronous query, if it is sent. -/
def syncRecords : List Record :=
  if c.request.seedIds = [] then []
  else c.sync.expansion (GraphExpander.query (maxExpansionSeeds c.environ) c.request)

/-- The rows of the asynchronous query, if it is sent. -/
def asyncRecords : List Record :=
  if c.request.seedIds = [] then [] else c.async.expansion (AsyncGraphExpander.query c.request)

def syncNodes : List GraphNode :=
  GraphExpander.expand (maxExpansionSeeds c.environ) c.sync c.request

def asyncNodes : List GraphNode := AsyncGraphExpander.expand c.async c.request

/-- The ids that both return as seeds. -/
def Seen (id : String) : Prop :=
  c.request.includeSeeds = true ∧ Found g c.request.seedIds id

/-- The distance in the graph, from any of the seeds. -/
def Distance (id : String) (n : Nat) : Prop :=
  IsLeast {m | Reaches g c.request.rels c.request.seedIds id m} n

/-- **The two calls return the same distances, and exact ones of complete answers.** -/
structure Sound : Prop where
  same : ∀ t, t ∈ c.syncNodes.map GraphNode.triple ↔ t ∈ c.asyncNodes.map GraphNode.triple
  syncExact : c.syncRecords.length < c.request.limit →
    ∀ n ∈ c.syncNodes, n.nodeId ∉ c.request.seedIds → c.Distance n.nodeId n.hopDistance
  asyncExact : c.asyncRecords.length < c.request.limit →
    ∀ n ∈ c.asyncNodes, n.nodeId ∉ c.request.seedIds → c.Distance n.nodeId n.hopDistance

/-- What the order and the choice of the rows must not do. -/
structure Orderly : Prop where
  /-- the first asynchronous row of a node that is no seed is least among its synchronous ones -/
  first : ∀ id, id ≠ "" → ¬ c.Seen id → ∀ n, First c.asyncRecords id n ↔
    IsLeast (Lengths c.syncRecords id) n
  /-- no seed that is cut off is closer to a node of a complete answer -/
  cut : c.syncRecords.length < c.request.limit → ∀ id, id ≠ "" → id ∉ c.request.seedIds →
    ∀ n ∈ Lengths c.syncRecords id, ∀ m, Reaches g c.request.rels c.dropped id m →
      ∃ k ∈ Lengths c.syncRecords id, k ≤ m

variable {c}

theorem mem_seedNodes {db : Database} {request : Request}
    (h : SeedAnswers g request.seedIds (db.fetch request.seedIds)) {n : GraphNode}
    (hn : n ∈ seedNodes db request) : n.nodeId ≠ "" ∧ n.hopDistance = 0 ∧ n.graphProximity = 1 ∧
      request.includeSeeds = true ∧ Found g request.seedIds n.nodeId := by
  unfold seedNodes at hn
  split at hn
  · next hinclude =>
    unfold fetchSeeds at hn
    split at hn
    · cases hn
    · obtain ⟨r, hr, rfl⟩ := List.mem_map.mp hn
      obtain ⟨hr, hne⟩ := List.mem_filter.mp hr
      exact ⟨of_decide_eq_true hne, rfl, rfl, hinclude, (h _).mp ⟨r, hr, rfl⟩⟩
  · cases hn

theorem exists_seedNodes {db : Database} {request : Request}
    (h : SeedAnswers g request.seedIds (db.fetch request.seedIds)) {id : String} (hne : id ≠ "")
    (hinclude : request.includeSeeds = true) (hfound : Found g request.seedIds id) :
    ∃ n ∈ seedNodes db request, n.nodeId = id := by
  have hseeds : request.seedIds ≠ [] := List.ne_nil_of_mem hfound.1
  obtain ⟨r, hr, rfl⟩ := (h id).mpr hfound
  refine ⟨⟨r.nodeId, 0, 1, r.columns⟩, ?_, rfl⟩
  rw [seedNodes, if_pos hinclude, fetchSeeds, if_neg hseeds]
  exact List.mem_map.mpr ⟨r, List.mem_filter.mpr ⟨hr, decide_eq_true hne⟩, rfl⟩

/-- What both return for the seeds. -/
def SeedTriple (c : Calls g engine) (t : String × Nat × ℚ) : Prop :=
  t.1 ≠ "" ∧ c.Seen t.1 ∧ t.2 = (0, 1)

theorem seed_triples {db : Database}
    (h : SeedAnswers g c.request.seedIds (db.fetch c.request.seedIds)) (t : String × Nat × ℚ) :
    t ∈ (seedNodes db c.request).map GraphNode.triple ↔ c.SeedTriple t := by
  constructor
  · intro ht
    obtain ⟨n, hn, rfl⟩ := List.mem_map.mp ht
    obtain ⟨hne, hzero, hone, hseen⟩ := mem_seedNodes h hn
    exact ⟨hne, hseen, Prod.ext hzero hone⟩
  · rintro ⟨hne, hseen, ht⟩
    obtain ⟨n, hn, hid⟩ := exists_seedNodes h hne hseen.1 hseen.2
    obtain ⟨-, hzero, hone, -⟩ := mem_seedNodes h hn
    exact List.mem_map.mpr ⟨n, hn, Prod.ext hid ((Prod.ext hzero hone).trans ht.symm)⟩

theorem unseen_iff_seen {db : Database}
    (h : SeedAnswers g c.request.seedIds (db.fetch c.request.seedIds)) {id : String}
    (hne : id ≠ "") : (∀ n ∈ seedNodes db c.request, n.nodeId ≠ id) ↔ ¬ c.Seen id := by
  constructor
  · intro hnew hseen
    obtain ⟨n, hn, hid⟩ := exists_seedNodes h hne hseen.1 hseen.2
    exact hnew n hn hid
  · rintro hnew n hn rfl
    exact hnew (mem_seedNodes h hn).2.2.2

theorem exists_isLeast {s : Set Nat} {n : Nat} (h : n ∈ s) : ∃ k, IsLeast s k := by
  classical
  have hne : ∃ k, k ∈ s := ⟨n, h⟩
  exact ⟨Nat.find hne, Nat.find_spec hne, fun m hm => Nat.find_min' hne hm⟩

theorem not_isLeast_nil {id : String} {n : Nat} : ¬ IsLeast (Lengths [] id) n := by
  rintro ⟨⟨r, hr, -⟩, -⟩
  cases hr

/-- **What the synchronous call returns.** -/
theorem mem_expand_sync (t : String × Nat × ℚ) : t ∈ c.syncNodes.map GraphNode.triple ↔
    c.SeedTriple t ∨ (t.1 ≠ "" ∧ ¬ c.Seen t.1 ∧ IsLeast (Lengths c.syncRecords t.1) t.2.1 ∧
      t.2.2 = hopProximity t.2.1) := by
  unfold syncNodes syncRecords GraphExpander.expand
  dsimp only
  by_cases hseeds : c.request.seedIds = []
  · rw [if_pos hseeds, if_pos hseeds, seed_triples c.syncSeeds]
    exact ⟨.inl, fun h => h.resolve_right fun h => not_isLeast_nil h.2.2.1⟩
  · rw [if_neg hseeds, if_neg hseeds, List.map_append, List.mem_append, seed_triples c.syncSeeds,
      ← c.syncAnswers.hops_eq c.request.depth]
    refine or_congr_right ?_
    obtain ⟨id, n, score⟩ := t
    constructor
    · intro h
      obtain ⟨node, hnode, htriple⟩ := List.mem_map.mp h
      obtain ⟨r, hr, rfl⟩ := List.mem_map.mp hnode
      cases htriple
      obtain ⟨hne, hnew, hleast⟩ :=
        hops_unseen.mp (nearest_isLeast (List.mem_mergeSort.mp hr))
      exact ⟨hne, (unseen_iff_seen c.syncSeeds hne).mp hnew, hleast, rfl⟩
    · rintro ⟨hne, hnew, hleast, hscore⟩
      obtain ⟨r, hr, hid, hn⟩ := exists_nearest.mpr
        (hops_unseen.mpr ⟨hne, (unseen_iff_seen c.syncSeeds hne).mpr hnew, hleast⟩)
      refine List.mem_map.mpr ⟨nodeOf c.request.depth r,
        List.mem_map_of_mem (List.mem_mergeSort.mpr hr), ?_⟩
      simp only [GraphNode.triple, nodeOf, hid, hn]
      rw [show score = hopProximity n from hscore]

/-- **What the asynchronous call returns.** -/
theorem mem_expand_async (t : String × Nat × ℚ) : t ∈ c.asyncNodes.map GraphNode.triple ↔
    c.SeedTriple t ∨ (t.1 ≠ "" ∧ ¬ c.Seen t.1 ∧ First c.asyncRecords t.1 t.2.1 ∧
      t.2.2 = hopProximity t.2.1) := by
  unfold asyncNodes asyncRecords AsyncGraphExpander.expand
  dsimp only
  by_cases hseeds : c.request.seedIds = []
  · rw [if_pos hseeds, if_pos hseeds, seed_triples c.asyncSeeds]
    refine ⟨.inl, fun h => h.resolve_right ?_⟩
    rintro ⟨-, -, ⟨r, hr, -⟩, -⟩
    cases hr
  · rw [if_neg hseeds, if_neg hseeds, ← seed_triples c.asyncSeeds]
    obtain ⟨id, n, score⟩ := t
    constructor
    · intro h
      obtain ⟨node, hnode, htriple⟩ := List.mem_map.mp h
      rcases mem_collect.mp hnode with hnode | ⟨r, hr, hfirst, rfl⟩
      · exact .inl (List.mem_map.mpr ⟨node, hnode, htriple⟩)
      · cases htriple
        obtain ⟨hne, hnew⟩ := unseen_iff.mp hr
        have hhops := (c.asyncAnswers.hopsOf (lookup_mem hfirst) 1).mpr rfl
        exact .inr ⟨hne, (unseen_iff_seen c.asyncSeeds hne).mp hnew, ⟨r, hfirst, hhops⟩, rfl⟩
    · rintro (h | ⟨hne, hnew, ⟨r, hfirst, hhops⟩, hscore⟩)
      · obtain ⟨node, hnode, htriple⟩ := List.mem_map.mp h
        exact List.mem_map.mpr ⟨node, mem_collect.mpr (.inl hnode), htriple⟩
      · have hid : r.nodeId = id := lookup_key hfirst
        subst hid
        have hr : unseen (seedNodes c.async c.request) r = true :=
          unseen_iff.mpr ⟨hne, (unseen_iff_seen c.asyncSeeds hne).mpr hnew⟩
        refine List.mem_map.mpr ⟨nodeOf 1 r, mem_collect.mpr (.inr ⟨r, hr, hfirst, rfl⟩), ?_⟩
        have hn := (c.asyncAnswers.hopsOf (lookup_mem hfirst) 1).mp hhops
        simp only [GraphNode.triple, nodeOf, hn]
        rw [show score = hopProximity n from hscore]

/-! ## Distances -/

theorem seedIds_ne_nil {id : String} {n : Nat} (h : n ∈ Lengths c.syncRecords id) :
    c.request.seedIds ≠ [] := by
  obtain ⟨r, hr, -⟩ := h
  intro hseeds
  rw [syncRecords, if_pos hseeds] at hr
  cases hr

theorem reaches_split {id : String} {n : Nat} :
    Reaches g c.request.rels c.request.seedIds id n ↔
      Reaches g c.request.rels (c.request.seedIds.take (maxExpansionSeeds c.environ)) id n ∨
        Reaches g c.request.rels c.dropped id n := by
  constructor
  · rintro ⟨sid, hsid, hrest⟩
    rw [← List.take_append_drop (maxExpansionSeeds c.environ) c.request.seedIds] at hsid
    rcases List.mem_append.mp hsid with hsid | hsid
    · exact .inl ⟨sid, hsid, hrest⟩
    · exact .inr ⟨sid, hsid, hrest⟩
  · rintro (h | h)
    · exact h.mono (List.take_subset _ _)
    · exact h.mono (List.drop_subset _ _)

theorem distance_iff {id : String} {n : Nat}
    (hcomplete : c.syncRecords.length < c.request.limit) (hid : id ∉ c.request.seedIds)
    (hleast : IsLeast (Lengths c.syncRecords id) n) :
    c.Distance id n ↔ ∀ m, Reaches g c.request.rels c.dropped id m → n ≤ m := by
  have hseeds := seedIds_ne_nil hleast.1
  have hrecords : c.syncRecords = c.sync.expansion
      (GraphExpander.query (maxExpansionSeeds c.environ) c.request) := if_neg hseeds
  rw [hrecords] at hcomplete hleast
  have hkept := c.syncAnswers.isLeast_reaches hcomplete
    (fun h => hid (List.take_subset _ _ h)) hleast
  constructor
  · exact fun h m hm => h.2 (reaches_split.mpr (.inr hm))
  · intro h
    refine ⟨reaches_split.mpr (.inl hkept.1), fun m hm => ?_⟩
    rcases reaches_split.mp hm with hm | hm
    · exact hkept.2 hm
    · exact h m hm

/-- An asynchronous answer that is complete leaves the other one no row to cut off. -/
theorem sync_complete (h : c.asyncRecords.length < c.request.limit) :
    c.syncRecords.length < c.request.limit := by
  unfold syncRecords
  split
  · exact Nat.lt_of_le_of_lt (Nat.zero_le _) h
  · next hseeds =>
    rw [asyncRecords, if_neg hseeds] at h
    refine Nat.lt_of_le_of_lt ?_ h
    refine (List.subperm_of_subset c.syncAnswers.distinct fun r hr => ?_).length_le
    obtain ⟨sid, hsid, hrest⟩ := c.syncAnswers.sound r hr
    exact c.asyncAnswers.complete h r ⟨sid, List.take_subset _ _ hsid, hrest⟩

/-- **Both calls return the same distances, and exact ones, iff the asynchronous answer leads with
the rows that are least in the synchronous one and no seed that was cut off is closer.** -/
theorem expansion_sound_iff (c : Calls g engine) : c.Sound ↔ c.Orderly := by
  have hseed : ∀ {id : String} {n : Nat} {score : ℚ}, ¬ c.Seen id → ¬ c.SeedTriple (id, n, score) :=
    fun hnew h => hnew h.2.1
  constructor
  · intro h
    constructor
    · intro id hne hnew n
      have hsame := h.same (id, n, hopProximity n)
      rw [mem_expand_sync, mem_expand_async] at hsame
      constructor
      · intro hfirst
        exact ((hsame.mpr (.inr ⟨hne, hnew, hfirst, rfl⟩)).resolve_left (hseed hnew)).2.2.1
      · intro hleast
        exact ((hsame.mp (.inr ⟨hne, hnew, hleast, rfl⟩)).resolve_left (hseed hnew)).2.2.1
    · intro hcomplete id hne hid n hn m hm
      obtain ⟨k, hk⟩ := exists_isLeast hn
      have hmem := (mem_expand_sync (c := c) (id, k, hopProximity k)).mpr
        (.inr ⟨hne, fun hseen => hid hseen.2.1, hk, rfl⟩)
      obtain ⟨node, hnode, htriple⟩ := List.mem_map.mp hmem
      obtain ⟨hsameId, hrest⟩ := Prod.mk.inj htriple
      obtain ⟨hsameHops, -⟩ := Prod.mk.inj hrest
      have hexact := h.syncExact hcomplete node hnode (hsameId.symm ▸ hid)
      rw [hsameId, hsameHops] at hexact
      exact ⟨k, hk.1, (distance_iff hcomplete hid hk).mp hexact m hm⟩
  · intro h
    have hsync : c.syncRecords.length < c.request.limit → ∀ n ∈ c.syncNodes,
        n.nodeId ∉ c.request.seedIds → c.Distance n.nodeId n.hopDistance := by
      intro hcomplete n hn hid
      have hmem := (mem_expand_sync n.triple).mp (List.mem_map_of_mem hn)
      rcases hmem with hseed | ⟨hne, -, hleast, -⟩
      · exact absurd hseed.2.1.2.1 hid
      · refine (distance_iff hcomplete hid hleast).mpr fun m hm => ?_
        obtain ⟨k, hk, hkm⟩ := h.cut hcomplete n.nodeId hne hid _ hleast.1 m hm
        exact (hleast.2 hk).trans hkm
    have hsame : ∀ t, t ∈ c.syncNodes.map GraphNode.triple ↔
        t ∈ c.asyncNodes.map GraphNode.triple := by
      intro t
      rw [mem_expand_sync, mem_expand_async]
      refine or_congr_right (and_congr_right fun hne => and_congr_right fun hnew => ?_)
      rw [h.first t.1 hne hnew]
    refine ⟨hsame, hsync, fun hcomplete n hn hid => ?_⟩
    obtain ⟨n', hn', htriple⟩ := List.mem_map.mp ((hsame n.triple).mpr (List.mem_map_of_mem hn))
    obtain ⟨hsameId, hrest⟩ := Prod.mk.inj htriple
    obtain ⟨hsameHops, -⟩ := Prod.mk.inj hrest
    have hexact := hsync (sync_complete hcomplete) n' hn' (hsameId ▸ hid)
    rwa [hsameId, hsameHops] at hexact

/-- **Of complete answers, and with no seed cut off, only the order of the asynchronous rows
matters.** -/
theorem sound_iff_of_complete (hkept : c.request.seedIds.length ≤ maxExpansionSeeds c.environ)
    (hcomplete : c.asyncRecords.length < c.request.limit) :
    c.Orderly ↔ ∀ id, id ≠ "" → ¬ c.Seen id → ∀ n, First c.asyncRecords id n →
      ∀ m ∈ Lengths c.asyncRecords id, n ≤ m := by
  have hsync := sync_complete hcomplete
  have hquery : GraphExpander.query (maxExpansionSeeds c.environ) c.request =
      AsyncGraphExpander.query c.request := by
    rw [GraphExpander.query, List.take_of_length_le hkept]
    rfl
  have hlengths : ∀ id, Lengths c.syncRecords id = Lengths c.asyncRecords id := by
    have hmem : ∀ r, r ∈ c.syncRecords ↔ r ∈ c.asyncRecords := by
      unfold syncRecords asyncRecords at *
      split
      · exact fun r => Iff.rfl
      · next hseeds =>
        rw [if_neg hseeds] at hsync hcomplete
        intro r
        have hsound := c.syncAnswers.sound r
        have hall := c.syncAnswers.complete hsync r
        rw [hquery] at hsound hall ⊢
        exact ⟨fun h => c.asyncAnswers.complete hcomplete r (hsound h),
          fun h => hall (c.asyncAnswers.sound r h)⟩
    intro id
    ext n
    exact exists_congr fun r => and_congr_left fun _ => hmem r
  constructor
  · intro h id hne hnew n hfirst m hm
    rw [← hlengths] at hm
    exact ((h.first id hne hnew n).mp hfirst).2 hm
  · intro h
    refine ⟨fun id hne hnew n => ?_, ?_⟩
    · rw [hlengths]
      constructor
      · intro hfirst
        obtain ⟨r, hr, hn⟩ := hfirst
        exact ⟨⟨r, lookup_mem hr, lookup_key hr, hn⟩, h id hne hnew n ⟨r, hr, hn⟩⟩
      · intro hleast
        obtain ⟨r, hr, hid, -⟩ := hleast.1
        cases hfirst : lookup Record.nodeId id c.asyncRecords with
        | none => exact absurd hid (lookup_eq_none.mp hfirst r hr)
        | some r' =>
          have hne' : c.request.seedIds ≠ [] := by
            intro hseeds
            rw [asyncRecords, if_pos hseeds] at hr
            cases hr
          have hin : r' ∈ c.async.expansion (AsyncGraphExpander.query c.request) := by
            have hmem := lookup_mem hfirst
            rwa [asyncRecords, if_neg hne'] at hmem
          obtain ⟨m, hm, -⟩ := (c.asyncAnswers.sound r' hin).reaches
          have hle := h id hne hnew m ⟨r', hfirst, hm⟩ n hleast.1
          have hge := hleast.2 ⟨r', lookup_mem hfirst, lookup_key hfirst, hm⟩
          rw [Nat.le_antisymm hge hle]
          exact ⟨r', hfirst, hm⟩
    · intro _ id _ _ n _ m hm
      obtain ⟨sid, hsid, -⟩ := hm
      rw [dropped, List.drop_eq_nil_of_le hkept] at hsid
      cases hsid

end Calls

/-! ## A triangle -/

/-- Three functions that call each other. -/
def triangle : Graph (Fin 3) (Fin 3) where
  id v := some (match v with | 0 => "a" | 1 => "b" | 2 => "c")
  inScope _ := true
  columns _ := []
  type _ := "CALLS"
  ends e := match e with | 0 => (0, 1) | 1 => (1, 2) | 2 => (0, 2)

def trails : Engine (Fin 3) := ⟨List.Nodup, id⟩

def triangleRequest : Request := ⟨["a"], 2, none, 50, true⟩

/-- The rows of the triangle, in an order that a database may return them in. -/
def triangleRecords : List Record :=
  [⟨"a", "c", [], some 2⟩, ⟨"a", "c", [], some 1⟩, ⟨"a", "b", [], some 1⟩, ⟨"a", "b", [], some 2⟩]

def triangleDatabase : Database := ⟨fun _ => [⟨"a", []⟩], fun _ => triangleRecords⟩

theorem triangle_records (r : Record) :
    IsRecord triangle trails (AsyncGraphExpander.query triangleRequest) r ↔
      r ∈ triangleRecords := by
  constructor
  · rintro ⟨sid, hsid, u, v, es, id, -, -, -, -, hone, hdepth, hv, hne, -, rfl⟩
    obtain rfl := List.mem_singleton.mp hsid
    have hlength : es.length = 1 ∨ es.length = 2 := by
      have : es.length ≤ 2 := hdepth
      omega
    obtain rfl := Option.some.inj hv
    have hnode : v = 1 ∨ v = 2 := by
      have hv0 : v ≠ 0 := fun h => hne (by rw [h])
      omega
    rcases hnode with rfl | rfl <;> rcases hlength with h | h <;> rw [h] <;>
      simp [triangleRecords, triangle]
  · intro h
    have hjoin : ∀ {u v e : Fin 3}, triangle.ends e = (u, v) ∨ triangle.ends e = (v, u) →
        Joins triangle.ends e u v := id
    have htype : ∀ e, triangle.type e ∈ (AsyncGraphExpander.query triangleRequest).relTypes := by
      decide
    have hrow : ∀ (v : Fin 3) (es : List (Fin 3)),
        Walk triangle.ends (fun e => triangle.type e ∈
          (AsyncGraphExpander.query triangleRequest).relTypes) 0 es v → es.Nodup →
        1 ≤ es.length → es.length ≤ 2 → v ≠ 0 →
        IsRecord triangle trails (AsyncGraphExpander.query triangleRequest)
          ⟨"a", (triangle.id v).getD "", [], some es.length⟩ := by
      intro v es hwalk hnodup hone hdepth hv
      refine ⟨"a", List.mem_singleton_self _, 0, v, es, (triangle.id v).getD "", rfl, rfl, hwalk,
        hnodup, hone, hdepth, rfl, ?_, rfl, rfl⟩
      have hname : ∀ v : Fin 3, v ≠ 0 → (triangle.id v).getD "" ≠ "a" := by decide
      exact hname v hv
    simp only [triangleRecords, List.mem_cons, List.not_mem_nil, or_false] at h
    rcases h with rfl | rfl | rfl | rfl
    · exact hrow 2 [0, 1] (.cons (htype 0) (hjoin (.inl rfl)) (.cons (htype 1) (hjoin (.inl rfl))
        (.nil 2))) (by decide) (by decide) (by decide) (by decide)
    · exact hrow 2 [2] (.cons (htype 2) (hjoin (.inl rfl)) (.nil 2)) (by decide) (by decide)
        (by decide) (by decide)
    · exact hrow 1 [0] (.cons (htype 0) (hjoin (.inl rfl)) (.nil 1)) (by decide) (by decide)
        (by decide) (by decide)
    · exact hrow 1 [2, 1] (.cons (htype 2) (hjoin (.inl rfl)) (.cons (htype 1) (hjoin (.inr rfl))
        (.nil 1))) (by decide) (by decide) (by decide) (by decide)

theorem triangle_answers : Answers triangle trails (AsyncGraphExpander.query triangleRequest)
    triangleRecords where
  distinct := by simp [triangleRecords]
  sound := fun r hr => (triangle_records r).mpr hr
  bounded := by decide
  complete := fun _ r hr => (triangle_records r).mp hr

theorem triangle_seeds : SeedAnswers triangle ["a"] [⟨"a", []⟩] := by
  intro id
  simp only [List.mem_singleton, exists_eq_left, Found]
  constructor
  · rintro rfl
    exact ⟨rfl, 0, rfl, rfl⟩
  · exact fun h => h.1.symm

/-- Both calls, with the same rows in the same order. -/
def triangleCalls : Calls triangle trails where
  request := triangleRequest
  environ := none
  sync := triangleDatabase
  async := triangleDatabase
  syncSeeds := triangle_seeds
  asyncSeeds := triangle_seeds
  syncAnswers := triangle_answers
  asyncAnswers := triangle_answers

/-- The asynchronous call takes the two hops to `c` that come before the one. -/
theorem triangle_not_sound : ¬ triangleCalls.Sound := by
  intro h
  have hleast : IsLeast (Lengths triangleCalls.syncRecords "c") 1 := by
    refine ⟨⟨⟨"a", "c", [], some 1⟩, ?_, rfl, rfl⟩, ?_⟩
    · exact List.mem_cons_of_mem _ List.mem_cons_self
    · rintro n ⟨r, hr, -, hn⟩
      obtain ⟨m, hm, hone, -⟩ := (triangle_answers.sound r hr).reaches
      rw [hn] at hm
      exact Option.some.inj hm ▸ hone
  have hnew : ¬ triangleCalls.Seen "c" := fun hseen =>
    absurd (List.mem_singleton.mp hseen.2.1) (by decide)
  have hsync : ("c", 1, hopProximity 1) ∈ triangleCalls.syncNodes.map GraphNode.triple :=
    (Calls.mem_expand_sync _).mpr (.inr ⟨by decide, hnew, hleast, rfl⟩)
  rcases (Calls.mem_expand_async _).mp ((h.same _).mp hsync) with hseed | ⟨-, -, hfirst, -⟩
  · exact hnew hseed.2.1
  · obtain ⟨r, hr, hn⟩ := hfirst
    have hrow : r = ⟨"a", "c", [], some 2⟩ := (Option.some.inj hr).symm
    rw [hrow] at hn
    exact absurd (Option.some.inj hn) (by decide)

end CortexHarness.GraphExpansion
