import CortexHarness.Library.Python
import CortexHarness.Library.Table
import Mathlib.Data.List.TakeDrop
import Mathlib.Logic.Function.Basic

/-!
# The layout cache of the vector stores

Model of `qdrant_layout_cache.py`, and of `discover_code_collections`
(`local_qdrant.py:228-248`) as threads run them: a call notes the time, looks into the cache under
the lock, reads its store without the lock, and fills the cache under the lock again. Between these
steps other calls go on, stores change, and `invalidate` drops entries. A `System` keeps the list of
all steps so far, and a moment is a number of steps.

* The key of the cache is the caller's token `url`; the store is what its loader gives.
* `_ttl_seconds()` is read from the environment at every use: a step says whether the cache is
  disabled, and which ages are within the limit. Times are ticks of the monotonic clock.
* What a store answers, or that it raises, is a parameter.

Results:
* `Caches.size_evictOverflow`: the cache holds at most `MAX_ENTRIES` entries after a fill;
* `Sound.step`: what one step preserves;
* **`layout_cache_coherent`**: a run is coherent when every token stands for one store and no layout
  is stored that was read before a change which has been invalidated since;
* `layout_cache_incoherent`: two runs that are not.
-/

namespace CortexHarness.Vectors.LayoutCache

/-! ## The cache -/

inductive Key where
  | collection (url name : String)
  | listing (url : String)
  deriving DecidableEq

def Key.url : Key → String
  | .collection url _ => url
  | .listing url => url

inductive Layout where
  | sizes (sizes : List (String × Nat))
  | names (names : List String)
  deriving DecidableEq

structure Entry where
  time : Int
  layout : Layout
  deriving DecidableEq

/-- A dict, in the order of its insertions. -/
abbrev Dict := List (Key × Entry)

/-- `_META_CACHE` and `_LIST_CACHE` -/
structure Caches where
  metaCache : Dict
  listCache : Dict

/-- `MAX_ENTRIES` -/
def maxEntries : Nat := 64

namespace Caches

def empty : Caches := ⟨[], []⟩

def size (c : Caches) : Nat := c.metaCache.length + c.listCache.length

def entries (c : Caches) : List (Key × Entry) := c.metaCache ++ c.listCache

/-- The dict of a key. -/
def dict (c : Caches) : Key → Dict
  | .collection _ _ => c.metaCache
  | .listing _ => c.listCache

/-- `cache.get(key)`, where the entry is young enough -/
def get (c : Caches) (key : Key) (fresh : Int → Bool) : Option Layout :=
  match Table.lookup Prod.fst key (c.dict key) with
  | some (_, entry) => if fresh entry.time then some entry.layout else none
  | none => none

/-- `cache[key] = entry` -/
def put (c : Caches) (key : Key) (entry : Entry) : Caches :=
  match key with
  | .collection _ _ => { c with metaCache := Table.assign Prod.fst (key, entry) c.metaCache }
  | .listing _ => { c with listCache := Table.assign Prod.fst (key, entry) c.listCache }

/-- What is left of the caches. -/
def keep (c : Caches) (p : Key → Bool) : Caches where
  metaCache := c.metaCache.filter fun kv => p kv.1
  listCache := c.listCache.filter fun kv => p kv.1

/-- `min(items, key=lambda kv: kv[1][0], default=None)` -/
def oldest (items : List (Key × Entry)) : Option (Key × Entry) := items.minOn? fun kv => kv.2.time

/-- `_evict_overflow_locked`, for at most so many rounds -/
def evictOverflow : Nat → Caches → Caches
  | 0, c => c
  | rounds + 1, c =>
    if c.size ≤ maxEntries then c
    else
      match oldest ((oldest c.metaCache).toList ++ (oldest c.listCache).toList) with
      | none => c
      | some (key, _) => evictOverflow rounds (c.keep fun k => k ≠ key)

end Caches

/-- Is the key one that `invalidate(url, collection)` drops? -/
def covers (url collection : Option String) (key : Key) : Bool :=
  match url, collection, key with
  | none, _, _ => true
  | some url, none, key => key.url == url
  | some url, some collection, .collection url' name => url' == url && name == collection
  | some _, some _, .listing _ => false

/-! ## Calls -/

/-- What a store answers; `none` where it raises. -/
structure Contents where
  sizes : String → Option (List (String × Nat))
  names : Option (List String)

def Contents.read (contents : Contents) : Key → Option Layout
  | .collection _ name => (contents.sizes name).map .sizes
  | .listing _ => contents.names.map .names

inductive Request where
  | getCollectionMeta (url collection : String)
  | listCollections (url : String)
  | discoverCodeCollections (projectId : String)

def Request.key : Request → Key
  | .getCollectionMeta url collection => .collection url collection
  | .listCollections url => .listing url
  | .discoverCodeCollections _ => .listing ""

/-- The names that `discover_code_collections` keeps. -/
def discovered (projectId : String) (names : List String) : List String :=
  let start := strip projectId ++ "_"
  (names.filter fun name => startsWith name start && endsWith name "_functions" &&
    !endsWith name "_mess").mergeSort

/-- What is returned of a layout. -/
def Request.answer : Request → Layout → Layout
  | .discoverCodeCollections projectId, .names names => .names (discovered projectId names)
  | _, layout => layout

inductive Phase where
  | started
  | missed
  /-- the store was read at that moment -/
  | loaded (layout : Layout) (moment : Nat)
  deriving DecidableEq

variable (S : Type)

structure Call where
  request : Request
  store : S
  /-- the moment of the start -/
  started : Nat
  now : Int
  phase : Phase

structure Result where
  request : Request
  store : S
  started : Nat
  answer : Layout

inductive Event where
  | start (call : Nat) (request : Request) (store : S) (now : Int)
  | probe (call : Nat) (disabled : Bool) (within : Int → Bool)
  | read (call : Nat)
  | fill (call : Nat) (disabled : Bool)
  | change (store : S) (contents : Contents)
  | invalidate (url collection : Option String)

structure System where
  log : List (Event S)
  stores : S → Contents
  caches : Caches
  calls : Nat → Option (Call S)
  results : List (Result S)

variable {S} [DecidableEq S]

def Call.key (call : Call S) : Key := call.request.key

def Result.key (r : Result S) : Key := r.request.key

def Call.finish (call : Call S) (layout : Layout) : Result S :=
  ⟨call.request, call.store, call.started, call.request.answer layout⟩

/-- Is what was read stored? An empty dict of sizes is not. -/
def stored (disabled : Bool) (layout : Layout) : Bool := !disabled && layout != .sizes []

/-- What a step does, if the call has got there. -/
def react (s : System S) : Event S → Option (System S)
  | .start i request store now =>
    match s.calls i with
    | some _ => none
    | none =>
      let call : Call S := ⟨request, store, s.log.length, now, .started⟩
      some { s with calls := Function.update s.calls i (some call) }
  | .probe i disabled within =>
    match s.calls i with
    | some call =>
      match call.phase with
      | .started =>
        match if disabled then none else s.caches.get call.key fun time => within (call.now - time)
          with
        | some layout => some { s with
            calls := Function.update s.calls i none
            results := s.results ++ [call.finish layout] }
        | none => some { s with
            calls := Function.update s.calls i (some { call with phase := .missed }) }
      | _ => none
    | none => none
  | .read i =>
    match s.calls i with
    | some call =>
      match call.phase with
      | .missed =>
        let call' := ((s.stores call.store).read call.key).map fun layout =>
          { call with phase := .loaded layout s.log.length }
        some { s with calls := Function.update s.calls i call' }
      | _ => none
    | none => none
  | .fill i disabled =>
    match s.calls i with
    | some call =>
      match call.phase with
      | .loaded layout _ =>
        let caches := s.caches.put call.key ⟨call.now, layout⟩
        some { s with
          caches := if stored disabled layout then caches.evictOverflow caches.size else s.caches
          calls := Function.update s.calls i none
          results := s.results ++ [call.finish layout] }
      | _ => none
    | none => none
  | .change store contents => some { s with stores := Function.update s.stores store contents }
  | .invalidate url collection =>
    some { s with caches := s.caches.keep fun key => !covers url collection key }

def step (s : System S) (event : Event S) : Option (System S) :=
  (react s event).map fun s' => { s' with log := s.log ++ [event] }

def run (s : System S) (events : List (Event S)) : Option (System S) := events.foldlM step s

/-- Before the first call. -/
def initial (stores : S → Contents) : System S := ⟨[], stores, .empty, fun _ => none, []⟩

/-! ## Coherence -/

def Event.changes (e : Event S) (store : S) : Bool :=
  match e with
  | .change store' _ => store' = store
  | _ => false

/-- Does the step drop a key from the cache? -/
def Event.drops (e : Event S) (key : Key) : Bool :=
  match e with
  | .invalidate url collection => covers url collection key
  | _ => false

/-- What the stores answer after a step. -/
def after (stores : S → Contents) : Event S → S → Contents
  | .change store contents => Function.update stores store contents
  | _ => stores

/-- What the stores answer at a moment. -/
def contentsAt (stores : S → Contents) (log : List (Event S)) (moment : Nat) : S → Contents :=
  (log.take moment).foldl after stores

/-- No change of the store after the moment has been invalidated before `bound`. -/
def Current (log : List (Event S)) (store : S) (key : Key) (moment bound : Nat) : Prop :=
  ∀ p₁ p₂, p₁ < p₂ → p₂ < bound → (∃ e, log[p₁]? = some e ∧ e.changes store = true) →
    (∃ e, log[p₂]? = some e ∧ e.drops key = true) → p₁ < moment

/-- **What a call may yield**: what its own store held at a moment after every change that had been
invalidated when the call started. -/
def Coherent (stores : S → Contents) (log : List (Event S)) (r : Result S) : Prop :=
  ∃ moment ≤ log.length, Current log r.store r.key moment r.started ∧
    ((contentsAt stores log moment r.store).read r.key).map r.request.answer = some r.answer

/-- A step is orderly: a call uses the token of its store, and what it stores has not been read
before a change that has been invalidated since. -/
def Orderly (owner : String → S) (s : System S) : Event S → Prop
  | .start _ request store _ => owner request.key.url = store
  | .fill i disabled => ∀ call layout moment, s.calls i = some call →
    call.phase = .loaded layout moment → stored disabled layout = true →
      Current s.log call.store call.key moment s.log.length
  | _ => True

/-- Every step of a run is orderly. -/
def OrderlyRun (owner : String → S) : System S → List (Event S) → Prop
  | _, [] => True
  | s, e :: events => Orderly owner s e ∧ ∀ s', step s e = some s' → OrderlyRun owner s' events

/-! ## The size of the cache -/

namespace Caches

variable {c : Caches} {key : Key} {entry : Entry} {kv : Key × Entry}

theorem mem_oldest {items : List (Key × Entry)} (h : oldest items = some kv) : kv ∈ items :=
  List.minOn?_mem h

theorem oldest_eq_none {items : List (Key × Entry)} (h : oldest items = none) : items = [] := by
  unfold oldest at h
  by_contra hne
  rw [List.minOn?_eq_some_minOn hne] at h
  cases h

theorem mem_candidates (h : oldest ((oldest c.metaCache).toList ++ (oldest c.listCache).toList) =
    some kv) : kv ∈ c.entries := by
  rcases List.mem_append.mp (mem_oldest h) with hmem | hmem
  · exact List.mem_append_left _ (mem_oldest (Option.mem_toList.mp hmem))
  · exact List.mem_append_right _ (mem_oldest (Option.mem_toList.mp hmem))

theorem mem_keep {p : Key → Bool} (h : kv ∈ (c.keep p).entries) :
    kv ∈ c.entries ∧ p kv.1 = true := by
  rcases List.mem_append.mp h with h | h
  · obtain ⟨hmem, hp⟩ := List.mem_filter.mp h
    exact ⟨List.mem_append_left _ hmem, hp⟩
  · obtain ⟨hmem, hp⟩ := List.mem_filter.mp h
    exact ⟨List.mem_append_right _ hmem, hp⟩

theorem size_keep_lt (h : kv ∈ c.entries) : (c.keep fun k => k ≠ kv.1).size < c.size := by
  have hdrop : ∀ d : Dict, kv ∈ d → (d.filter fun x => x.1 ≠ kv.1).length < d.length :=
    fun d hmem => List.length_filter_lt_length_iff_exists.mpr ⟨kv, hmem, by simp⟩
  have hle : ∀ d : Dict, (d.filter fun x => x.1 ≠ kv.1).length ≤ d.length :=
    fun d => List.length_filter_le _ _
  unfold size keep
  rcases List.mem_append.mp h with h | h
  · exact Nat.add_lt_add_of_lt_of_le (hdrop _ h) (hle _)
  · exact Nat.add_lt_add_of_le_of_lt (hle _) (hdrop _ h)

theorem mem_evictOverflow (rounds : Nat) (h : kv ∈ (evictOverflow rounds c).entries) :
    kv ∈ c.entries := by
  induction rounds generalizing c with
  | zero => exact h
  | succ rounds ih =>
    unfold evictOverflow at h
    split at h
    · exact h
    · split at h
      · exact h
      · exact (mem_keep (ih h)).1

/-- **The cache holds at most `MAX_ENTRIES` entries after a fill.** -/
theorem size_evictOverflow (rounds : Nat) (h : c.size ≤ maxEntries + rounds) :
    (evictOverflow rounds c).size ≤ maxEntries := by
  induction rounds generalizing c with
  | zero => exact h
  | succ rounds ih =>
    unfold evictOverflow
    split
    · assumption
    · next hover =>
      split
      · next hnone =>
        -- without candidates both dicts are empty
        have hempty : (oldest c.metaCache).toList ++ (oldest c.listCache).toList = [] :=
          oldest_eq_none hnone
        obtain ⟨hmeta, hlist⟩ := List.append_eq_nil_iff.mp hempty
        have hsize : c.size = 0 := by
          unfold size
          rw [oldest_eq_none (Option.toList_eq_nil_iff.mp hmeta),
            oldest_eq_none (Option.toList_eq_nil_iff.mp hlist)]
          rfl
        omega
      · next key entry hsome =>
        have hlt : (c.keep fun k => k ≠ key).size < c.size :=
          size_keep_lt (mem_candidates hsome)
        exact ih (by omega)

theorem mem_assign {d : Dict} (h : kv ∈ Table.assign Prod.fst (key, entry) d) :
    kv = (key, entry) ∨ kv ∈ d := by
  unfold Table.assign at h
  split at h
  · obtain ⟨x, hx, rfl⟩ := Table.mem_updateWhere.mp h
    split
    · exact .inl rfl
    · exact .inr hx
  · rcases List.mem_append.mp h with h | h
    · exact .inr h
    · exact .inl (List.mem_singleton.mp h)

theorem mem_put (h : kv ∈ (c.put key entry).entries) : kv = (key, entry) ∨ kv ∈ c.entries := by
  cases key with
  | collection url name =>
    rcases List.mem_append.mp h with h | h
    · exact (mem_assign h).imp_right (List.mem_append_left _)
    · exact .inr (List.mem_append_right _ h)
  | listing url =>
    rcases List.mem_append.mp h with h | h
    · exact .inr (List.mem_append_left _ h)
    · exact (mem_assign h).imp_right (List.mem_append_right _)

/-- What is found under a key is an entry of it. -/
theorem mem_of_get {fresh : Int → Bool} {layout : Layout} (h : c.get key fresh = some layout) :
    ∃ entry, (key, entry) ∈ c.entries ∧ entry.layout = layout := by
  unfold get at h
  split at h
  · next key' entry hlookup =>
    split at h
    · have hkey : key' = key := Table.lookup_key hlookup
      have hmem : (key', entry) ∈ c.dict key := Table.lookup_mem hlookup
      refine ⟨entry, ?_, Option.some.inj h⟩
      subst hkey
      cases key' with
      | collection url name => exact List.mem_append_left _ hmem
      | listing url => exact List.mem_append_right _ hmem
    · cases h
  · cases h

end Caches

/-! ## Moments -/

section Moments

variable {stores : S → Contents} {log : List (Event S)} {store : S} {key : Key} {e : Event S}
  {moment bound : Nat}

theorem contentsAt_snoc (h : moment ≤ log.length) :
    contentsAt stores (log ++ [e]) moment = contentsAt stores log moment := by
  unfold contentsAt
  rw [List.take_append_of_le_length h]

theorem contentsAt_length :
    contentsAt stores (log ++ [e]) (log.length + 1) =
      after (contentsAt stores log log.length) e := by
  have hlength : (log ++ [e]).length = log.length + 1 := by simp
  unfold contentsAt
  rw [← hlength, List.take_length, List.take_length, List.foldl_append]
  rfl

omit [DecidableEq S] in
theorem getElem?_snoc {p : Nat} (h : p < log.length) : (log ++ [e])[p]? = log[p]? :=
  List.getElem?_append_left h

/-- What happened before a moment is not changed by a further step. -/
theorem Current.snoc (h : Current log store key moment bound) (hbound : bound ≤ log.length) :
    Current (log ++ [e]) store key moment bound := by
  intro p₁ p₂ hlt hp₂ hchange hdrop
  rw [getElem?_snoc (by omega)] at hchange hdrop
  exact h p₁ p₂ hlt hp₂ hchange hdrop

/-- A step that drops the key from the cache is the only one that makes a moment outdated. -/
theorem Current.extend (h : Current log store key moment log.length) (he : e.drops key = false) :
    Current (log ++ [e]) store key moment (log.length + 1) := by
  intro p₁ p₂ hlt hp₂ hchange hdrop
  rw [getElem?_snoc (by omega)] at hchange
  by_cases hlast : p₂ = log.length
  · obtain ⟨e', he', hdrop⟩ := hdrop
    rw [hlast, List.getElem?_concat_length] at he'
    cases he'
    rw [he] at hdrop
    cases hdrop
  · rw [getElem?_snoc (by omega)] at hdrop
    exact h p₁ p₂ hlt (by omega) hchange hdrop

theorem Coherent.snoc {r : Result S} (h : Coherent stores log r)
    (hstarted : r.started ≤ log.length) : Coherent stores (log ++ [e]) r := by
  obtain ⟨moment, hle, hcurrent, hanswer⟩ := h
  refine ⟨moment, hle.trans (List.prefix_append log _).length_le, hcurrent.snoc hstarted, ?_⟩
  rwa [contentsAt_snoc hle]

end Moments

/-! ## What a step preserves -/

section Runs

variable {stores : S → Contents} {owner : String → S} {s s' : System S} {e : Event S}

/-- A layout that a call with this key may yield. -/
def Valid (stores : S → Contents) (owner : String → S) (log : List (Event S)) (key : Key)
    (layout : Layout) : Prop :=
  ∃ moment ≤ log.length, Current log (owner key.url) key moment log.length ∧
    (contentsAt stores log moment (owner key.url)).read key = some layout

structure CallSound (stores : S → Contents) (owner : String → S) (log : List (Event S))
    (call : Call S) : Prop where
  store : owner call.key.url = call.store
  started : call.started ≤ log.length
  loaded : ∀ layout moment, call.phase = .loaded layout moment →
    call.started ≤ moment ∧ moment ≤ log.length ∧
      (contentsAt stores log moment call.store).read call.key = some layout

/-- **The invariant**: the cache holds layouts that are current, and so do the answers. -/
structure Sound (stores : S → Contents) (owner : String → S) (s : System S) : Prop where
  contents : s.stores = contentsAt stores s.log s.log.length
  entries : ∀ kv ∈ s.caches.entries, Valid stores owner s.log kv.1 kv.2.layout
  calls : ∀ i call, s.calls i = some call → CallSound stores owner s.log call
  results : ∀ r ∈ s.results, r.started ≤ s.log.length ∧ Coherent stores s.log r

theorem Valid.snoc {log : List (Event S)} {key : Key} {layout : Layout}
    (h : Valid stores owner log key layout) (he : e.drops key = false) :
    Valid stores owner (log ++ [e]) key layout := by
  obtain ⟨moment, hle, hcurrent, hread⟩ := h
  refine ⟨moment, hle.trans (List.prefix_append log _).length_le, ?_, by rwa [contentsAt_snoc hle]⟩
  rw [List.length_append]
  exact hcurrent.extend he

theorem CallSound.snoc {log : List (Event S)} {call : Call S}
    (h : CallSound stores owner log call) : CallSound stores owner (log ++ [e]) call := by
  have hlength := (List.prefix_append log [e]).length_le
  refine ⟨h.store, h.started.trans hlength, fun layout moment hphase => ?_⟩
  obtain ⟨hstarted, hle, hread⟩ := h.loaded layout moment hphase
  exact ⟨hstarted, hle.trans hlength, by rwa [contentsAt_snoc hle]⟩

/-- A step keeps the invariant if what it adds to the cache, to the calls and to the results meets
it, and what it drops from the cache is gone. -/
theorem Sound.extend (h : Sound stores owner s) (hlog : s'.log = s.log ++ [e])
    (hstores : s'.stores = after s.stores e)
    (hentries : ∀ kv ∈ s'.caches.entries, kv ∈ s.caches.entries ∧ e.drops kv.1 = false ∨
      Valid stores owner (s.log ++ [e]) kv.1 kv.2.layout)
    (hcalls : ∀ i call, s'.calls i = some call → s.calls i = some call ∨
      CallSound stores owner (s.log ++ [e]) call)
    (hresults : ∀ r ∈ s'.results, r ∈ s.results ∨
      r.started ≤ s.log.length ∧ Coherent stores (s.log ++ [e]) r) : Sound stores owner s' := by
  have hlength : (s.log ++ [e]).length = s.log.length + 1 := by simp
  refine ⟨?_, fun kv hkv => ?_, fun i call hcall => ?_, fun r hr => ?_⟩
  · rw [hstores, hlog, hlength, contentsAt_length, h.contents]
  · rw [hlog]
    rcases hentries kv hkv with ⟨hold, hdrops⟩ | hnew
    · exact (h.entries kv hold).snoc hdrops
    · exact hnew
  · rw [hlog]
    rcases hcalls i call hcall with hold | hnew
    · exact (h.calls i call hold).snoc
    · exact hnew
  · rw [hlog, hlength]
    rcases hresults r hr with hold | ⟨hstarted, hnew⟩
    · obtain ⟨hstarted, hcoherent⟩ := h.results r hold
      exact ⟨by omega, hcoherent.snoc hstarted⟩
    · exact ⟨by omega, hnew⟩

omit [DecidableEq S] in
/-- A call in the table after one of them has been replaced. -/
theorem calls_update {calls : Nat → Option (Call S)} {i j : Nat} {new : Option (Call S)}
    {call : Call S} (h : Function.update calls i new j = some call) :
    calls j = some call ∨ new = some call := by
  by_cases hj : j = i
  · subst hj
    rw [Function.update_self] at h
    exact .inr h
  · rw [Function.update_of_ne hj] at h
    exact .inl h

/-- What a call that has read its store returns. -/
theorem CallSound.coherent {log : List (Event S)} {call : Call S} {layout : Layout} {moment : Nat}
    (h : CallSound stores owner log call) (hphase : call.phase = .loaded layout moment) :
    Coherent stores log (call.finish layout) := by
  obtain ⟨hstarted, hle, hread⟩ := h.loaded layout moment hphase
  refine ⟨moment, hle, fun p₁ p₂ hlt hp₂ _ _ => ?_, ?_⟩
  · exact hlt.trans (hp₂.trans_le hstarted)
  · exact (congrArg (Option.map call.request.answer) hread).trans rfl

/-- What a call that finds a layout in the cache returns. -/
theorem Sound.hit (h : Sound stores owner s) {i : Nat} {call : Call S}
    (hcall : s.calls i = some call) {fresh : Int → Bool} {layout : Layout}
    (hget : s.caches.get call.key fresh = some layout) :
    Coherent stores s.log (call.finish layout) := by
  have hsound := h.calls i call hcall
  obtain ⟨entry, hmem, rfl⟩ := Caches.mem_of_get hget
  obtain ⟨moment, hle, hcurrent, hread⟩ := h.entries _ hmem
  rw [hsound.store] at hcurrent hread
  refine ⟨moment, hle, fun p₁ p₂ hlt hp₂ => ?_, ?_⟩
  · exact hcurrent p₁ p₂ hlt (hp₂.trans_le hsound.started)
  · exact (congrArg (Option.map call.request.answer) hread).trans rfl

/-- **A step keeps the invariant**, if it is orderly. -/
theorem Sound.step (h : Sound stores owner s) (horderly : Orderly owner s e)
    (hstep : step s e = some s') : Sound stores owner s' := by
  obtain ⟨t, hreact, rfl⟩ := Option.map_eq_some_iff.mp hstep
  cases e with
  | start i request store now =>
    unfold react at hreact
    dsimp only at hreact
    split at hreact
    · cases hreact
    · cases hreact
      refine h.extend rfl rfl (fun kv hkv => .inl ⟨hkv, rfl⟩) (fun j call hcall => ?_)
        fun r hr => .inl hr
      refine (calls_update hcall).imp_right fun hnew => ?_
      cases hnew
      exact ⟨horderly, (List.prefix_append s.log _).length_le, nofun⟩
  | probe i disabled within =>
    unfold react at hreact
    dsimp only at hreact
    split at hreact
    · next call hcall =>
      split at hreact
      · split at hreact
        · next layout hget =>
          cases hreact
          refine h.extend rfl rfl (fun kv hkv => .inl ⟨hkv, rfl⟩)
            (fun j call' hcall' => (calls_update hcall').imp_right nofun) fun r hr => ?_
          refine (List.mem_append.mp hr).imp_right fun hr => ?_
          cases List.mem_singleton.mp hr
          have hstarted := (h.calls i call hcall).started
          split at hget
          · cases hget
          · exact ⟨hstarted, (h.hit hcall hget).snoc hstarted⟩
        · cases hreact
          refine h.extend rfl rfl (fun kv hkv => .inl ⟨hkv, rfl⟩) (fun j call' hcall' => ?_)
            fun r hr => .inl hr
          refine (calls_update hcall').imp_right fun hnew => ?_
          cases hnew
          exact ⟨(h.calls i call hcall).store, (h.calls i call hcall).snoc.started, nofun⟩
      · cases hreact
    · cases hreact
  | read i =>
    unfold react at hreact
    dsimp only at hreact
    split at hreact
    · next call hcall =>
      split at hreact
      · cases hreact
        refine h.extend rfl rfl (fun kv hkv => .inl ⟨hkv, rfl⟩) (fun j call' hcall' => ?_)
          fun r hr => .inl hr
        refine (calls_update hcall').imp_right fun hnew => ?_
        obtain ⟨layout, hread, rfl⟩ := Option.map_eq_some_iff.mp hnew
        have hsound := h.calls i call hcall
        refine ⟨hsound.store, hsound.snoc.started, fun layout' moment hphase => ?_⟩
        cases hphase
        rw [h.contents] at hread
        exact ⟨hsound.started, (List.prefix_append s.log _).length_le,
          by rwa [contentsAt_snoc (Nat.le_refl _)]⟩
      · cases hreact
    · cases hreact
  | fill i disabled =>
    unfold react at hreact
    dsimp only at hreact
    split at hreact
    · next call hcall =>
      split at hreact
      · next layout moment hphase =>
        cases hreact
        have hsound := h.calls i call hcall
        refine h.extend rfl rfl (fun kv hkv => ?_)
          (fun j call' hcall' => (calls_update hcall').imp_right nofun) fun r hr => ?_
        · dsimp only at hkv
          split at hkv
          · next hstored =>
            rcases Caches.mem_put (Caches.mem_evictOverflow _ hkv) with rfl | hold
            · right
              obtain ⟨-, hle, hread⟩ := hsound.loaded layout moment hphase
              have hcurrent := horderly call layout moment hcall hphase hstored
              rw [← hsound.store] at hcurrent hread
              exact Valid.snoc ⟨moment, hle, hcurrent, hread⟩ rfl
            · exact .inl ⟨hold, rfl⟩
          · exact .inl ⟨hkv, rfl⟩
        · refine (List.mem_append.mp hr).imp_right fun hr => ?_
          cases List.mem_singleton.mp hr
          exact ⟨hsound.started, (hsound.coherent hphase).snoc hsound.started⟩
      · cases hreact
    · cases hreact
  | change store contents =>
    cases hreact
    exact h.extend rfl rfl (fun kv hkv => .inl ⟨hkv, rfl⟩) (fun j call hcall => .inl hcall)
      fun r hr => .inl hr
  | invalidate url collection =>
    cases hreact
    refine h.extend rfl rfl (fun kv hkv => ?_) (fun j call hcall => .inl hcall)
      fun r hr => .inl hr
    obtain ⟨hmem, hkept⟩ := Caches.mem_keep hkv
    exact .inl ⟨hmem, by simpa [Event.drops] using hkept⟩

/-- What a step makes of the cache. -/
theorem caches_step (h : step s e = some s') :
    s'.caches = s.caches ∨ (∃ caches : Caches, s'.caches = caches.evictOverflow caches.size) ∨
      ∃ p, s'.caches = s.caches.keep p := by
  obtain ⟨t, hreact, rfl⟩ := Option.map_eq_some_iff.mp h
  cases e with
  | fill i disabled =>
    unfold react at hreact
    dsimp only at hreact
    split at hreact
    · split at hreact
      · cases hreact
        dsimp only
        split
        · exact .inr (.inl ⟨_, rfl⟩)
        · exact .inl rfl
      · cases hreact
    · cases hreact
  | invalidate url collection =>
    cases hreact
    exact .inr (.inr ⟨fun key => !covers url collection key, rfl⟩)
  | start i request store now =>
    unfold react at hreact
    dsimp only at hreact
    split at hreact <;> cases hreact
    exact .inl rfl
  | probe i disabled within =>
    unfold react at hreact
    dsimp only at hreact
    repeat' split at hreact
    all_goals cases hreact
    all_goals exact .inl rfl
  | read i =>
    unfold react at hreact
    dsimp only at hreact
    repeat' split at hreact
    all_goals cases hreact
    all_goals exact .inl rfl
  | change store contents =>
    cases hreact
    exact .inl rfl

theorem size_step (hsize : s.caches.size ≤ maxEntries) (h : step s e = some s') :
    s'.caches.size ≤ maxEntries := by
  rcases caches_step h with heq | ⟨caches, heq⟩ | ⟨p, heq⟩
  · rwa [heq]
  · rw [heq]
    exact Caches.size_evictOverflow _ (Nat.le_add_left _ _)
  · rw [heq]
    exact (Nat.add_le_add (List.length_filter_le _ _) (List.length_filter_le _ _)).trans hsize

theorem log_step (h : step s e = some s') : s'.log = s.log ++ [e] := by
  obtain ⟨t, -, rfl⟩ := Option.map_eq_some_iff.mp h
  rfl

theorem run_cons {events : List (Event S)} (h : run s (e :: events) = some s') :
    ∃ t, step s e = some t ∧ run t events = some s' :=
  Option.bind_eq_some_iff.mp ((List.foldlM_cons ..).symm.trans h)

theorem run_log {events : List (Event S)} (h : run s events = some s') :
    s'.log = s.log ++ events := by
  induction events generalizing s with
  | nil =>
    cases h
    exact (List.append_nil _).symm
  | cons e events ih =>
    obtain ⟨t, hstep, hrun⟩ := run_cons h
    rw [ih hrun, log_step hstep, List.append_assoc, List.singleton_append]

theorem run_size {events : List (Event S)} (h : run s events = some s')
    (hsize : s.caches.size ≤ maxEntries) : s'.caches.size ≤ maxEntries := by
  induction events generalizing s with
  | nil =>
    cases h
    exact hsize
  | cons e events ih =>
    obtain ⟨t, hstep, hrun⟩ := run_cons h
    exact ih hrun (size_step hsize hstep)

theorem run_sound {events : List (Event S)} (h : run s events = some s')
    (horderly : OrderlyRun owner s events) (hsound : Sound stores owner s) :
    Sound stores owner s' := by
  induction events generalizing s with
  | nil =>
    cases h
    exact hsound
  | cons e events ih =>
    obtain ⟨t, hstep, hrun⟩ := run_cons h
    exact ih hrun (horderly.2 t hstep) (hsound.step horderly.1 hstep)

/-- **Coherence of the layout cache**: in every run the cache holds at most `MAX_ENTRIES` entries
after every step, and where every token stands for one store and no call stores what it has read
before a change that has been invalidated since, every call yields what its own store held after the
changes that had been invalidated when the call started. -/
theorem layout_cache_coherent (stores : S → Contents) (events : List (Event S)) (s : System S)
    (h : run (initial stores) events = some s) :
    s.caches.size ≤ maxEntries ∧ ∀ owner, OrderlyRun owner (initial stores) events →
      ∀ r ∈ s.results, Coherent stores events r := by
  refine ⟨run_size h (Nat.zero_le _), fun owner horderly r hr => ?_⟩
  have hstart : Sound stores owner (initial stores) := ⟨rfl, nofun, nofun, nofun⟩
  have hcoherent := ((run_sound h horderly hstart).results r hr).2
  rwa [run_log h] at hcoherent

theorem OrderlyRun.cons {events : List (Event S)} (he : Orderly owner s e)
    (hstep : LayoutCache.step s e = some s') (h : OrderlyRun owner s' events) :
    OrderlyRun owner s (e :: events) := by
  refine ⟨he, fun t ht => ?_⟩
  rw [hstep] at ht
  cases ht
  exact h

/-- Nothing comes between the read and the fill. -/
theorem orderly_fill {i : Nat} {disabled : Bool} (h : ∀ call layout moment,
    s.calls i = some call → call.phase = .loaded layout moment → s.log.length ≤ moment + 1) :
    Orderly owner s (.fill i disabled) := by
  intro call layout moment hcall hphase _ p₁ p₂ hlt hp₂ _ _
  have := h call layout moment hcall hphase
  omega

end Runs

/-! ## Two stores -/

/-- The stores of two projects, each with one collection. -/
def sampleStores (shop : Bool) : Contents where
  sizes _ := some [("default", 8)]
  names := some [if shop then "shop_1__java_functions" else "bank_1__java_functions"]

/-- A store without collections. -/
def emptied : Contents := ⟨fun _ => none, some []⟩

/-- The steps of a call on the token `""` that reads its store and fills the cache. -/
def sampleCall (i : Nat) (shop : Bool) : List (Event Bool) :=
  [.start i (.listCollections "") shop 0, .probe i false fun _ => true, .read i, .fill i false]

/-- A change that is invalidated, and a call afterwards. -/
def sampleRun : List (Event Bool) :=
  sampleCall 0 true ++ [.change true emptied, .invalidate none none] ++ sampleCall 1 true

theorem sampleRun_orderly : OrderlyRun (fun _ => true) (initial sampleStores) sampleRun := by
  have hfill : ∀ {s : System Bool} {i moment : Nat} {call : Call Bool} {layout : Layout},
      s.calls i = some call → call.phase = .loaded layout moment → s.log.length = moment + 1 →
        Orderly (fun _ => true) s (.fill i false) := by
    intro s i moment call layout hcall hphase hlength
    refine orderly_fill fun call' layout' moment' hcall' hphase' => ?_
    rw [hcall] at hcall'
    cases hcall'
    rw [hphase] at hphase'
    cases hphase'
    exact hlength.le
  exact .cons rfl rfl (.cons trivial rfl (.cons trivial rfl (.cons (hfill rfl rfl rfl) rfl
    (.cons trivial rfl (.cons trivial rfl (.cons rfl rfl (.cons trivial rfl (.cons trivial rfl
      (.cons (hfill rfl rfl rfl) rfl trivial)))))))))

theorem layout_cache_coherent_sample : ∃ s, run (initial sampleStores) sampleRun = some s ∧
    s.caches.size = 1 ∧ s.results.length = 2 ∧ ∀ r ∈ s.results, Coherent sampleStores sampleRun r :=
  ⟨_, rfl, rfl, rfl,
    (layout_cache_coherent sampleStores sampleRun _ rfl).2 (fun _ => true) sampleRun_orderly⟩

/-- The first call fills the cache after the change has been invalidated. -/
def lateFill : List (Event Bool) :=
  [.start 0 (.listCollections "") true 0, .probe 0 false fun _ => true, .read 0,
    .change true emptied, .invalidate none none, .fill 0 false,
    .start 1 (.listCollections "") true 1, .probe 1 false fun _ => true]

/-- Two stores are read through one token. -/
def sharedToken : List (Event Bool) :=
  sampleCall 0 true ++ [.start 1 (.listCollections "") false 1, .probe 1 false fun _ => true]

/-- **A slow reader brings a dropped layout back, and a token gives away the layout of another
store.** -/
theorem layout_cache_incoherent :
    (∃ s, run (initial sampleStores) lateFill = some s ∧
      ∃ r ∈ s.results, ¬ Coherent sampleStores lateFill r) ∧
    ∃ s, run (initial sampleStores) sharedToken = some s ∧
      ∃ r ∈ s.results, ¬ Coherent sampleStores sharedToken r := by
  refine ⟨⟨_, rfl, ⟨.listCollections "", true, 6, .names ["shop_1__java_functions"]⟩,
    List.mem_cons_of_mem _ List.mem_cons_self, ?_⟩,
    ⟨_, rfl, ⟨.listCollections "", false, 4, .names ["shop_1__java_functions"]⟩,
      List.mem_cons_of_mem _ List.mem_cons_self, ?_⟩⟩
  · rintro ⟨moment, hle, hcurrent, hanswer⟩
    have hlater : 3 < moment :=
      hcurrent 3 4 (by decide) (by decide) ⟨_, rfl, rfl⟩ ⟨_, rfl, rfl⟩
    have hmoment : moment = 4 ∨ moment = 5 ∨ moment = 6 ∨ moment = 7 ∨ moment = 8 := by
      have : moment ≤ 8 := hle
      omega
    rcases hmoment with rfl | rfl | rfl | rfl | rfl <;> cases hanswer
  · rintro ⟨moment, hle, -, hanswer⟩
    have hmoment : moment = 0 ∨ moment = 1 ∨ moment = 2 ∨ moment = 3 ∨ moment = 4 ∨ moment = 5 ∨
        moment = 6 := by
      have : moment ≤ 6 := hle
      omega
    rcases hmoment with rfl | rfl | rfl | rfl | rfl | rfl | rfl <;> revert hanswer <;> decide

end CortexHarness.Vectors.LayoutCache
