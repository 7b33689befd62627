import Mathlib.Algebra.Order.Ring.Unbundled.Rat
import Mathlib.Data.Prod.Lex
import Mathlib.Data.String.Basic
import CortexHarness.Library.Best
import CortexHarness.Library.Firsts
import CortexHarness.Library.Ranking
import CortexHarness.Link.Rebuild

/-!
# Links and the order of the symbols

`compute_scored_pairs` (`link_engine.py:1115-1249`) reads the symbols as a list. Which paragraph is
linked with which identity depends on their order in two places only: the match index keeps the
first symbol of an identity, with its keys and its path, and the candidates of a name are cut after
the tenth in a ranking that lets symbols tie.

* `Mentioned` are the keys that the paragraphs ask the index for;
* a candidate is seen as its score, identity and path (`view`); these come from the same three of a
  reference (`rate`), which is what the index is compared by.

Results:
* `refs_perm`, `views_perm`: under a mentioned key the index holds the same references, and rates
  the same candidates, if the symbols of an identity share the key;
* **`scored_order_free`**: if besides no cut goes through a tie, the same paragraphs are linked with
  the same identities whatever the order of the symbols.
-/

namespace CortexHarness.Link

open Table Ranking

variable (P : Platform)

/-! ## What the order could change -/

/-- The tokens by which a paragraph asks the index. -/
def askedTokens (mentions : Mentions) (p : ParagraphRef) : List String :=
  (extractIdentifierTokens P.toUnicode p.text).filter isLinkableToken ++
    (((lookup Prod.fst (p.anchor P) mentions).map Prod.snd).getD []).filter
      (isLinkableEntityToken P.toUnicode)

/-- A key that some paragraph asks the index for. -/
def Mentioned (paragraphs : List ParagraphRef) (mentions : Mentions) (key : List String) : Prop :=
  ∃ p ∈ paragraphs, key ∈ (askedTokens P mentions p).map tokenMatchKey

/-- The symbols of one identity have the mentioned keys in common, and the path if they have any. -/
def Uniform (paragraphs : List ParagraphRef) (mentions : Mentions) (symbols : List EngineSymbol) :
    Prop :=
  ∀ s ∈ symbols, ∀ t ∈ symbols, s.identity P = t.identity P → ∀ key,
    Mentioned P paragraphs mentions key → key ∈ symbolMatchKeys (s.asSymbolRef P) →
      key ∈ symbolMatchKeys (t.asSymbolRef P) ∧ s.path = t.path

/-- The candidates of one key, before they are cut. -/
def rated (symbols : List EngineSymbol) (index : MatchIndex) (stems key : List String) :
    List Candidate :=
  (index.refs key).filterMap fun ref =>
    (symbolByRef P symbols ref).bind fun symbol =>
      let stem := cleanFileStem P symbol.path
      let affinity := stem != "" && stems.contains stem
      if maxUnscopedSymbolDf < index.fileDf key && !affinity then none
      else some { score := scoreOf P (index.fileDf key) affinity symbol, symbol }

/-- The tenth and the eleventh candidate of a mentioned name never tie. -/
def NoTies (paragraphs : List ParagraphRef) (mentions : Mentions) (symbols : List EngineSymbol) :
    Prop :=
  let index := buildMatchIndex (symbols.map (·.asSymbolRef P))
  ∀ p ∈ paragraphs,
    let keys := paragraphKeys P index mentions p
    ∀ key ∈ keys, Clear rankedBefore 9
      (rated P symbols index (activeStems P symbols index p keys) key)

/-! ## What a candidate looks like -/

/-- What a reference is compared by. -/
def CodeSymbolRef.tag (ref : CodeSymbolRef) : Identity × String := (ref.identity, ref.path)

/-- What a candidate is compared by: its score, its identity, its path. -/
def Candidate.view (c : Candidate) : Rat × Identity × String :=
  (c.score, c.symbol.identity P, c.symbol.path)

/-- `rankedBefore`, by what is compared. -/
def viewBefore (a b : Rat × Identity × String) : Bool :=
  decide (b.1 < a.1) || (a.1 == b.1 &&
    (decide (a.2.2 < b.2.2) || (a.2.2 == b.2.2 && decide (a.2.1.2.1 ≤ b.2.1.2.1))))

/-- The candidate of a reference. -/
def rate (df : Nat) (stems : List String) (tag : Identity × String) :
    Option (Rat × Identity × String) :=
  let stem := cleanFileStem P tag.2
  let affinity := stem != "" && stems.contains stem
  if maxUnscopedSymbolDf < df && !affinity then none
  else some (if df ≤ 2 then exactNameScore
    else P.idfScore (tag.1.2.2.2 == TargetType.endpoint.text) df affinity, tag)

variable {P} {symbols symbols' : List EngineSymbol} {paragraphs : List ParagraphRef}
  {mentions : Mentions} {refs : List CodeSymbolRef} {key : List String}

/-! ## The match index -/

theorem lookup_refs (index : MatchIndex) (key : List String) (r : CodeSymbolRef) (k : List String) :
    MatchIndex.refs (assign Prod.fst (key, MatchIndex.refs index key ++ [r]) index) k =
      if k = key then MatchIndex.refs index key ++ [r] else MatchIndex.refs index k := by
  unfold MatchIndex.refs
  rw [lookup_assign]
  by_cases hk : key = k
  · rw [if_pos hk, if_pos hk.symm]
    rfl
  · rw [if_neg hk, if_neg (Ne.symm hk)]

/-- The keys of a reference, each once. -/
theorem nodup_symbolMatchKeys (ref : CodeSymbolRef) : (symbolMatchKeys ref).Nodup := by
  refine List.foldlRecOn (motive := List.Nodup) _ _ List.nodup_nil fun keys h segment _ => ?_
  dsimp only
  split
  · exact h
  · next hnew =>
    have hmem : tokenMatchKey segment ∉ keys := fun hin => hnew (by simp [hin])
    exact List.nodup_append.mpr ⟨h, List.nodup_singleton _, fun a ha b hb heq =>
      hmem (List.mem_singleton.mp hb ▸ heq ▸ ha)⟩

/-- A reference is put under each of its keys. -/
theorem refs_insert (r : CodeSymbolRef) {keys : List (List String)} (hkeys : keys.Nodup)
    (index : MatchIndex) (k : List String) :
    MatchIndex.refs (keys.foldl (fun index key =>
      assign Prod.fst (key, MatchIndex.refs index key ++ [r]) index) index) k =
        MatchIndex.refs index k ++ if k ∈ keys then [r] else [] := by
  induction keys generalizing index with
  | nil => simp
  | cons key keys ih =>
    obtain ⟨hnew, hkeys⟩ := List.nodup_cons.mp hkeys
    rw [List.foldl_cons, ih hkeys, lookup_refs]
    by_cases hk : k = key
    · subst hk
      simp [hnew]
    · simp [hk]

/-- **Under a key the index holds the first references of their identities that have it.** -/
theorem refs_buildMatchIndex (refs : List CodeSymbolRef) (k : List String) :
    MatchIndex.refs (buildMatchIndex refs) k =
      (firsts CodeSymbolRef.identity refs).filter fun r => decide (k ∈ symbolMatchKeys r) := by
  have hfirsts : refs.foldl (fun seen ref =>
      if seen.any (·.identity == ref.identity) then seen else seen ++ [ref]) [] =
        firsts CodeSymbolRef.identity refs := by
    unfold firsts
    congr 1
    funext seen ref
    simp [keepFirst]
  unfold buildMatchIndex
  dsimp only
  rw [hfirsts]
  generalize firsts CodeSymbolRef.identity refs = kept
  have hfold : ∀ (kept : List CodeSymbolRef) (index : MatchIndex),
      MatchIndex.refs (kept.foldl (fun index ref =>
        (symbolMatchKeys ref).foldl (fun index key =>
          assign Prod.fst (key, MatchIndex.refs index key ++ [ref]) index) index) index) k =
        MatchIndex.refs index k ++ kept.filter fun r => decide (k ∈ symbolMatchKeys r) := by
    intro kept
    induction kept with
    | nil => exact fun _ => (List.append_nil _).symm
    | cons r kept ih =>
      intro index
      rw [List.foldl_cons, ih, refs_insert r (nodup_symbolMatchKeys r)]
      by_cases hk : k ∈ symbolMatchKeys r
      · simp [hk]
      · simp [hk]
  rw [hfold]
  rfl

/-- The index of the symbols. -/
abbrev indexOf (P : Platform) (symbols : List EngineSymbol) : MatchIndex :=
  buildMatchIndex (symbols.map (·.asSymbolRef P))

theorem mem_refs {ref : CodeSymbolRef} (h : ref ∈ (indexOf P symbols).refs key) :
    ∃ s ∈ symbols, s.asSymbolRef P = ref := by
  rw [refs_buildMatchIndex] at h
  exact List.mem_map.mp (mem_of_mem_firsts (List.mem_filter.mp h).1)

theorem Uniform.perm (h : Uniform P paragraphs mentions symbols) (hperm : symbols.Perm symbols') :
    Uniform P paragraphs mentions symbols' :=
  fun s hs t ht => h s (hperm.mem_iff.mpr hs) t (hperm.mem_iff.mpr ht)

theorem mem_tags (h : Uniform P paragraphs mentions symbols)
    (hkey : Mentioned P paragraphs mentions key) {tag : Identity × String} :
    tag ∈ ((indexOf P symbols).refs key).map CodeSymbolRef.tag ↔
      ∃ s ∈ symbols, key ∈ symbolMatchKeys (s.asSymbolRef P) ∧ (s.identity P, s.path) = tag := by
  rw [refs_buildMatchIndex]
  constructor
  · intro htag
    obtain ⟨ref, href, rfl⟩ := List.mem_map.mp htag
    obtain ⟨hmem, hkeys⟩ := List.mem_filter.mp href
    obtain ⟨s, hs, rfl⟩ := List.mem_map.mp (mem_of_mem_firsts hmem)
    exact ⟨s, hs, of_decide_eq_true hkeys, rfl⟩
  · rintro ⟨s, hs, hkeys, rfl⟩
    obtain ⟨ref, href, hsame⟩ : ∃ ref ∈ firsts CodeSymbolRef.identity
        (symbols.map (·.asSymbolRef P)), ref.identity = (s.asSymbolRef P).identity :=
      exists_firsts (List.mem_map_of_mem hs)
    obtain ⟨t, ht, rfl⟩ := List.mem_map.mp (mem_of_mem_firsts href)
    obtain ⟨hkeys, hpath⟩ := h s hs t ht hsame.symm key hkey hkeys
    refine List.mem_map.mpr ⟨_, List.mem_filter.mpr ⟨href, decide_eq_true hkeys⟩, ?_⟩
    exact Prod.ext hsame hpath.symm

theorem nodup_tags (symbols : List EngineSymbol) (key : List String) :
    (((indexOf P symbols).refs key).map CodeSymbolRef.tag).Nodup := by
  refine List.Nodup.of_map Prod.fst ?_
  rw [refs_buildMatchIndex, List.map_map]
  exact (keyed_firsts _).sublist (List.Sublist.map _ List.filter_sublist)

/-- **Under a mentioned key the index holds the same references, whatever the order.** -/
theorem refs_perm (h : Uniform P paragraphs mentions symbols) (hperm : symbols.Perm symbols')
    (hkey : Mentioned P paragraphs mentions key) :
    (((indexOf P symbols).refs key).map CodeSymbolRef.tag).Perm
      (((indexOf P symbols').refs key).map CodeSymbolRef.tag) := by
  refine (List.perm_ext_iff_of_nodup (nodup_tags symbols key) (nodup_tags symbols' key)).mpr ?_
  intro tag
  rw [mem_tags h hkey, mem_tags (h.perm hperm) hkey]
  simp only [hperm.mem_iff]

theorem fileDf_perm (h : Uniform P paragraphs mentions symbols) (hperm : symbols.Perm symbols')
    (hkey : Mentioned P paragraphs mentions key) :
    (indexOf P symbols).fileDf key = (indexOf P symbols').fileDf key := by
  have hpaths := (refs_perm h hperm hkey).map Prod.snd
  rw [List.map_map, List.map_map] at hpaths
  exact hpaths.dedup.length_eq

theorem filled_buildMatchIndex (refs : List CodeSymbolRef) (k : List String)
    {entry : List String × List CodeSymbolRef}
    (h : lookup Prod.fst k (buildMatchIndex refs) = some entry) : entry.2 ≠ [] := by
  let Filled (index : MatchIndex) : Prop := ∀ k entry,
    lookup Prod.fst k index = some entry → entry.2 ≠ []
  have hfilled : Filled (buildMatchIndex refs) := by
    unfold buildMatchIndex
    refine List.foldlRecOn (motive := Filled) _ _ (fun k entry h => by cases h) ?_
    intro index hindex ref _
    refine List.foldlRecOn (motive := Filled) _ _ hindex ?_
    intro index hindex key _ k entry h
    rw [lookup_assign] at h
    split at h
    · cases h
      exact List.append_ne_nil_of_right_ne_nil _ (List.cons_ne_nil _ _)
    · exact hindex k entry h
  exact hfilled k entry h

theorem isSome_lookup (symbols : List EngineSymbol) (key : List String) :
    (lookup Prod.fst key (indexOf P symbols)).isSome = true ↔
      (indexOf P symbols).refs key ≠ [] := by
  unfold MatchIndex.refs
  cases h : lookup Prod.fst key (indexOf P symbols) with
  | none => simp
  | some entry => simpa using filled_buildMatchIndex _ _ h

theorem isSome_perm (h : Uniform P paragraphs mentions symbols) (hperm : symbols.Perm symbols')
    (hkey : Mentioned P paragraphs mentions key) :
    (lookup Prod.fst key (indexOf P symbols)).isSome =
      (lookup Prod.fst key (indexOf P symbols')).isSome := by
  rw [Bool.eq_iff_iff, isSome_lookup, isSome_lookup]
  have hlength := (refs_perm h hperm hkey).length_eq
  rw [List.length_map, List.length_map] at hlength
  rw [← List.length_pos_iff, ← List.length_pos_iff, hlength]

/-! ## The keys of a paragraph -/

theorem addKeys_congr {index index' : MatchIndex} {tokens : List String}
    (h : ∀ token ∈ tokens, (lookup Prod.fst (tokenMatchKey token) index).isSome =
      (lookup Prod.fst (tokenMatchKey token) index').isSome) (keys : List (List String)) :
    addKeys index keys tokens = addKeys index' keys tokens := by
  refine List.foldl_ext _ _ keys fun keys token htoken => ?_
  dsimp only
  rw [h token htoken]

theorem mem_addKeys {index : MatchIndex} {tokens : List String} {keys : List (List String)} :
    key ∈ addKeys index keys tokens ↔ key ∈ keys ∨ ∃ token ∈ tokens, tokenMatchKey token = key ∧
      key ≠ [] ∧ (lookup Prod.fst key index).isSome = true := by
  unfold addKeys
  induction tokens generalizing keys with
  | nil => simp
  | cons token tokens ih =>
    rw [List.foldl_cons, ih, List.exists_mem_cons_iff, ← or_assoc]
    refine or_congr_left ?_
    generalize tokenMatchKey token = asked
    dsimp only
    split
    · next hnew =>
      simp only [Bool.and_eq_true, Bool.not_eq_true', List.isEmpty_eq_false_iff] at hnew
      rw [List.mem_append, List.mem_singleton]
      refine or_congr_right ⟨?_, fun h => h.1.symm⟩
      rintro rfl
      exact ⟨rfl, hnew.1.1, hnew.1.2⟩
    · next hold =>
      refine (or_iff_left_of_imp ?_).symm
      rintro ⟨rfl, hne, hsome⟩
      by_contra hmem
      refine hold ?_
      simp [hne, hsome, hmem]

variable {p : ParagraphRef}

theorem mentioned_of_mem {index : MatchIndex} (hp : p ∈ paragraphs)
    (h : key ∈ paragraphKeys P index mentions p) : Mentioned P paragraphs mentions key := by
  refine ⟨p, hp, ?_⟩
  unfold askedTokens
  rw [List.map_append, List.mem_append]
  rcases mem_addKeys.mp h with h | ⟨token, htoken, rfl, -⟩
  · rcases mem_addKeys.mp h with h | ⟨token, htoken, rfl, -⟩
    · cases h
    · exact Or.inl (List.mem_map_of_mem htoken)
  · exact Or.inr (List.mem_map_of_mem htoken)

/-- **A paragraph asks for the same keys, whatever the order.** -/
theorem paragraphKeys_perm (h : Uniform P paragraphs mentions symbols)
    (hperm : symbols.Perm symbols') (hp : p ∈ paragraphs) :
    paragraphKeys P (indexOf P symbols) mentions p =
      paragraphKeys P (indexOf P symbols') mentions p := by
  have hasked : ∀ token ∈ askedTokens P mentions p,
      (lookup Prod.fst (tokenMatchKey token) (indexOf P symbols)).isSome =
        (lookup Prod.fst (tokenMatchKey token) (indexOf P symbols')).isSome :=
    fun token htoken => isSome_perm h hperm ⟨p, hp, List.mem_map_of_mem htoken⟩
  unfold paragraphKeys
  dsimp only
  rw [addKeys_congr fun token htoken => hasked token (List.mem_append_left _ htoken),
    addKeys_congr fun token htoken => hasked token (List.mem_append_right _ htoken)]

theorem activeStems_perm (h : Uniform P paragraphs mentions symbols)
    (hperm : symbols.Perm symbols') {keys : List (List String)}
    (hkeys : ∀ key ∈ keys, Mentioned P paragraphs mentions key) (stem : String) :
    stem ∈ activeStems P symbols (indexOf P symbols) p keys ↔
      stem ∈ activeStems P symbols' (indexOf P symbols') p keys := by
  have hrare : keys.filter (fun key => decide (0 < (indexOf P symbols).fileDf key) &&
      decide ((indexOf P symbols).fileDf key ≤ 3)) =
        keys.filter (fun key => decide (0 < (indexOf P symbols').fileDf key) &&
          decide ((indexOf P symbols').fileDf key ≤ 3)) :=
    List.filter_congr fun key hkey => by rw [fileDf_perm h hperm (hkeys key hkey)]
  have hpath : ∀ key ∈ keys, ∀ stem,
      stem ∈ ((indexOf P symbols).refs key).map (fun ref => cleanFileStem P ref.path) ↔
        stem ∈ ((indexOf P symbols').refs key).map (fun ref => cleanFileStem P ref.path) := by
    intro key hkey stem
    have hmap := ((refs_perm h hperm (hkeys key hkey)).map fun tag =>
      cleanFileStem P tag.2).mem_iff (a := stem)
    rwa [List.map_map, List.map_map] at hmap
  unfold activeStems
  dsimp only
  rw [hrare, List.mem_append, List.mem_append]
  refine or_congr ?_ ?_
  · simp only [List.mem_filter, List.mem_map, hperm.mem_iff]
  · simp only [List.mem_filter, List.map_flatMap, List.mem_flatMap]
    refine and_congr_left fun _ => exists_congr fun key => ?_
    exact and_congr_right fun hkey => hpath key hkey.1 stem

/-! ## The candidates of a key -/

theorem rankedBefore_view (a b : Candidate) :
    rankedBefore a b = viewBefore (a.view P) (b.view P) := rfl

/-- A candidate comes from what its reference is compared by. -/
theorem map_view_rated (stems key : List String) :
    (rated P symbols (indexOf P symbols) stems key).map (Candidate.view P) =
      (((indexOf P symbols).refs key).map CodeSymbolRef.tag).filterMap
        (rate P ((indexOf P symbols).fileDf key) stems) := by
  unfold rated
  rw [List.map_filterMap, List.filterMap_map]
  refine List.filterMap_congr fun ref href => ?_
  obtain ⟨s, hs, rfl⟩ := mem_refs href
  obtain ⟨t, ht⟩ : ∃ t, symbolByRef P symbols (s.asSymbolRef P) = some t := by
    refine Option.isSome_iff_exists.mp (List.find?_isSome.mpr ⟨s, List.mem_reverse.mpr hs, ?_⟩)
    exact beq_self_eq_true _
  have href : t.asSymbolRef P = s.asSymbolRef P := by
    have hfound := List.find?_some ht
    exact eq_of_beq hfound
  rw [ht, ← href]
  have htype : (t.targetType == TargetType.endpoint) =
      (t.targetType.text == TargetType.endpoint.text) := by
    cases t.targetType <;> decide
  simp only [Option.bind_some, Function.comp_apply, rate, CodeSymbolRef.tag, scoreOf,
    EngineSymbol.asSymbolRef]
  rw [htype]
  split
  · next hout => exact (if_pos hout).symm
  · next hin => exact (if_neg hin).symm

/-! ## The ranking -/

/-- Highest score first, then by path and name. -/
def rank (view : Rat × Identity × String) : Lex (Ratᵒᵈ × Lex (String × String)) :=
  toLex (OrderDual.toDual view.1, toLex (view.2.2, view.2.1.2.1))

theorem viewBefore_iff (a b : Rat × Identity × String) :
    viewBefore a b = true ↔ rank a ≤ rank b := by
  simp only [viewBefore, rank, Prod.Lex.toLex_le_toLex, OrderDual.toDual_lt_toDual,
    Bool.or_eq_true, Bool.and_eq_true, decide_eq_true_eq, beq_iff_eq, EmbeddingLike.apply_eq_iff_eq]

theorem viewBefore_trans (a b c : Rat × Identity × String) (hab : viewBefore a b = true)
    (hbc : viewBefore b c = true) : viewBefore a c = true := by
  rw [viewBefore_iff] at *
  exact hab.trans hbc

theorem viewBefore_total (a b : Rat × Identity × String) :
    (viewBefore a b || viewBefore b a) = true := by
  rw [Bool.or_eq_true, viewBefore_iff, viewBefore_iff]
  exact le_total _ _

theorem rate_congr {stems stems' : List String} (h : ∀ stem, stem ∈ stems ↔ stem ∈ stems')
    (df : Nat) (tag : Identity × String) : rate P df stems tag = rate P df stems' tag := by
  have hcontains : ∀ stem, stems.contains stem = stems'.contains stem := fun stem => by
    rw [Bool.eq_iff_iff, List.contains_iff_mem, List.contains_iff_mem, h]
  unfold rate
  dsimp only
  rw [hcontains]

/-- **A key has the same candidates before the cut, whatever the order.** -/
theorem views_perm (h : Uniform P paragraphs mentions symbols) (hperm : symbols.Perm symbols')
    (hkey : Mentioned P paragraphs mentions key) {stems stems' : List String}
    (hstems : ∀ stem, stem ∈ stems ↔ stem ∈ stems') :
    ((rated P symbols (indexOf P symbols) stems key).map (Candidate.view P)).Perm
      ((rated P symbols' (indexOf P symbols') stems' key).map (Candidate.view P)) := by
  rw [map_view_rated, map_view_rated, ← fileDf_perm h hperm hkey]
  have hrate : rate P ((indexOf P symbols).fileDf key) stems' =
      rate P ((indexOf P symbols).fileDf key) stems :=
    funext fun tag => (rate_congr hstems _ tag).symm
  rw [hrate]
  exact (refs_perm h hperm hkey).filterMap _

theorem mem_views (stems key : List String) (v : Rat × Identity × String) :
    v ∈ (tokenCandidates P symbols (indexOf P symbols) stems key).map (Candidate.view P) ↔
      v ∈ (((rated P symbols (indexOf P symbols) stems key).map (Candidate.view P)).mergeSort
        viewBefore).take (9 + 1) := by
  have hcut : tokenCandidates P symbols (indexOf P symbols) stems key =
      if maxCandidatesPerToken < (rated P symbols (indexOf P symbols) stems key).length then
        ((rated P symbols (indexOf P symbols) stems key).mergeSort rankedBefore).take
          maxCandidatesPerToken
      else rated P symbols (indexOf P symbols) stems key := rfl
  rw [hcut, ← List.map_mergeSort (r := rankedBefore) fun a _ b _ => rankedBefore_view a b,
    ← List.map_take]
  split
  · rfl
  · next hshort =>
    have hall : ((rated P symbols (indexOf P symbols) stems key).mergeSort rankedBefore).length ≤
        9 + 1 := by
      rw [List.length_mergeSort]
      exact Nat.not_lt.mp hshort
    rw [List.take_of_length_le hall, List.mem_map, List.mem_map]
    simp only [List.mem_mergeSort]

/-! ## The candidates of a paragraph -/

/-- The identities a paragraph mentions. -/
def identities (P : Platform) (cs : List Candidate) : List Identity :=
  cs.map fun c => c.symbol.identity P

theorem paragraphCandidates_eq (symbols : List EngineSymbol) (index : MatchIndex)
    (mentions : Mentions) (p : ParagraphRef) :
    paragraphCandidates P symbols index mentions p =
      Table.keepBest (fun c => c.symbol.identity P) (fun c prev => decide (prev.score < c.score))
        ((paragraphKeys P index mentions p).flatMap (tokenCandidates P symbols index
          (activeStems P symbols index p (paragraphKeys P index mentions p)))) := by
  unfold paragraphCandidates Table.keepBest
  dsimp only
  congr 1
  funext best c
  unfold keepBest keepBetter
  cases hprev : lookup (fun c => c.symbol.identity P) (c.symbol.identity P) best with
  | none => exact (assign_new (lookup_eq_none.mp hprev)).symm
  | some prev => simp

theorem nodup_identities (symbols : List EngineSymbol) (index : MatchIndex) (mentions : Mentions)
    (p : ParagraphRef) : (identities P (paragraphCandidates P symbols index mentions p)).Nodup := by
  rw [paragraphCandidates_eq]
  exact keyed_keepBest _

theorem mem_identities {index : MatchIndex} {id : Identity} :
    id ∈ identities P (paragraphCandidates P symbols index mentions p) ↔
      ∃ key ∈ paragraphKeys P index mentions p,
        id ∈ identities P (tokenCandidates P symbols index
          (activeStems P symbols index p (paragraphKeys P index mentions p)) key) := by
  unfold identities
  rw [paragraphCandidates_eq, map_key_keepBest, List.map_flatMap, List.mem_flatMap]

/-- **A paragraph mentions the same identities, whatever the order.** -/
theorem identities_perm (h : Uniform P paragraphs mentions symbols)
    (hties : NoTies P paragraphs mentions symbols) (hperm : symbols.Perm symbols')
    (hp : p ∈ paragraphs) :
    (identities P (paragraphCandidates P symbols (indexOf P symbols) mentions p)).Perm
      (identities P (paragraphCandidates P symbols' (indexOf P symbols') mentions p)) := by
  have hkeys := paragraphKeys_perm h hperm hp
  have hmem : ∀ key ∈ paragraphKeys P (indexOf P symbols) mentions p, ∀ id,
      id ∈ identities P (tokenCandidates P symbols (indexOf P symbols)
          (activeStems P symbols (indexOf P symbols) p
            (paragraphKeys P (indexOf P symbols) mentions p)) key) ↔
        id ∈ identities P (tokenCandidates P symbols' (indexOf P symbols')
          (activeStems P symbols' (indexOf P symbols') p
            (paragraphKeys P (indexOf P symbols) mentions p)) key) := by
    intro key hkey id
    have hstems := activeStems_perm (p := p) h hperm
      fun key (hkey : key ∈ paragraphKeys P (indexOf P symbols) mentions p) =>
        mentioned_of_mem hp hkey
    have hviews := mem_cut_perm viewBefore_trans viewBefore_total
      (views_perm h hperm (mentioned_of_mem hp hkey) hstems)
      ((hties p hp key hkey).map fun a b => rankedBefore_view a b)
    have hview : ∀ cs : List Candidate,
        identities P cs = (cs.map (Candidate.view P)).map fun v => v.2.1 := by
      intro cs
      rw [List.map_map]
      rfl
    rw [hview, hview, List.mem_map, List.mem_map]
    refine exists_congr fun v => and_congr_left fun _ => ?_
    rw [mem_views, mem_views]
    exact hviews v
  refine (List.perm_ext_iff_of_nodup (nodup_identities ..) (nodup_identities ..)).mpr fun id => ?_
  rw [mem_identities, mem_identities, ← hkeys]
  exact exists_congr fun key => and_congr_right fun hkey => hmem key hkey id

/-! ## The pairs -/

/-- Which paragraph is linked with which identity. -/
def linked (P : Platform) (results : List ScoredPair) : List (ParagraphRef × Identity) :=
  results.map fun r => (r.paragraph, r.symbol.identity P)

/-- The identity has not been linked often enough in the document. -/
def hasRoom (p : ParagraphRef) (links : List (ParagraphRef × Identity)) (id : Identity) : Bool :=
  decide (links.countP (fun link => link.1.docId == p.docId && link.2 == id) <
    maxParagraphsPerDocSymbol)

theorem linked_takePairs {cs : List Candidate} (hcs : (identities P cs).Nodup)
    (results : List ScoredPair) : linked P (cs.foldl (takePair P p) results) =
      linked P results ++ ((identities P cs).filter (hasRoom p (linked P results))).map (p, ·) := by
  induction cs generalizing results with
  | nil => exact (List.append_nil _).symm
  | cons c cs ih =>
    obtain ⟨hnew, hcs⟩ := List.nodup_cons.mp hcs
    have hstep : linked P (takePair P p results c) = linked P results ++
        if hasRoom p (linked P results) (c.symbol.identity P) then [(p, c.symbol.identity P)]
        else [] := by
      have hcount : (linked P results).countP (fun link => link.1.docId == p.docId &&
          link.2 == c.symbol.identity P) = results.countP fun r =>
            r.paragraph.docId == p.docId && r.symbol.identity P == c.symbol.identity P :=
        List.countP_map
      unfold takePair hasRoom
      rw [hcount]
      dsimp only
      split
      · next hfull => rw [if_neg (by simpa using hfull), List.append_nil]
      · next hroom =>
        rw [if_pos (by simpa using hroom)]
        exact List.map_append
    -- Taking a candidate changes no count but that of its own identity.
    have hother : (identities P cs).filter (hasRoom p (linked P (takePair P p results c))) =
        (identities P cs).filter (hasRoom p (linked P results)) := by
      refine List.filter_congr fun id hid => ?_
      have hne : c.symbol.identity P ≠ id := by
        rintro rfl
        exact hnew hid
      rw [hstep]
      unfold hasRoom
      rw [List.countP_append]
      split
      · simp [hne]
      · rfl
    rw [List.foldl_cons, ih hcs, hother, hstep]
    unfold identities
    rw [List.map_cons, List.filter_cons]
    split
    · rw [List.map_cons, List.append_assoc]
      rfl
    · rw [List.append_nil]

theorem hasRoom_perm {links links' : List (ParagraphRef × Identity)} (h : links.Perm links')
    (p : ParagraphRef) : hasRoom p links = hasRoom p links' := by
  funext id
  unfold hasRoom
  rw [h.countP_eq]

/-- The pairs, for a match index that has been built. -/
def pairsFrom (P : Platform) (symbols : List EngineSymbol) (index : MatchIndex)
    (mentions : Mentions) (results : List ScoredPair) (paragraphs : List ParagraphRef) :
    List ScoredPair :=
  paragraphs.foldl (fun results p =>
    (paragraphCandidates P symbols index mentions p).foldl (takePair P p) results) results

theorem linked_pairsFrom {index index' : MatchIndex} {mentions' : Mentions}
    {results results' : List ScoredPair}
    (h : ∀ p ∈ paragraphs, (identities P (paragraphCandidates P symbols index mentions p)).Perm
      (identities P (paragraphCandidates P symbols' index' mentions' p)))
    (hlinked : (linked P results).Perm (linked P results')) :
    (linked P (pairsFrom P symbols index mentions results paragraphs)).Perm
      (linked P (pairsFrom P symbols' index' mentions' results' paragraphs)) := by
  induction paragraphs generalizing results results' with
  | nil => exact hlinked
  | cons p paragraphs ih =>
    obtain ⟨hp, hrest⟩ := List.forall_mem_cons.mp h
    refine ih hrest ?_
    rw [linked_takePairs (nodup_identities ..), linked_takePairs (nodup_identities ..),
      hasRoom_perm hlinked]
    exact hlinked.append ((hp.filter _).map _)

/-- **The same paragraphs are linked with the same identities, whatever the order.** -/
theorem linked_perm (hperm : symbols.Perm symbols') (h : Uniform P paragraphs mentions symbols)
    (hties : NoTies P paragraphs mentions symbols) :
    (linked P (computeScoredPairs P paragraphs mentions symbols)).Perm
      (linked P (computeScoredPairs P paragraphs mentions symbols')) :=
  linked_pairsFrom (fun _ hp => identities_perm h hties hperm hp) (List.Perm.refl _)

/-- Ten symbols or fewer are never cut. -/
theorem noTies_of_few (h : symbols.length ≤ 10) : NoTies P paragraphs mentions symbols := by
  intro p _ keys key _
  refine clear_of_short ?_
  have hrefs : ((indexOf P symbols).refs key).length ≤ symbols.length := by
    have hkeyed : Keyed CodeSymbolRef.identity (firsts CodeSymbolRef.identity
        (symbols.map (·.asSymbolRef P))) := keyed_firsts _
    have hnodup := hkeyed.of_map
    have hfirsts := (hnodup.subperm fun _ => mem_of_mem_firsts).length_le
    rw [List.length_map] at hfirsts
    rw [refs_buildMatchIndex]
    exact (List.length_filter_le _ _).trans hfirsts
  exact (List.length_filterMap_le _ _).trans (hrefs.trans h)

/-! ## Matching and the order of the symbols -/

/-- Which paragraph of which document is linked with which identity. -/
def anchorPairs (P : Platform) (results : List ScoredPair) : List (Anchor × Identity) :=
  results.map fun r => (r.paragraph.anchor P, r.symbol.identity P)

theorem anchorPairs_iff {results results' : List ScoredPair}
    (h : (linked P results).Perm (linked P results')) (pair : Anchor × Identity) :
    pair ∈ anchorPairs P results ↔ pair ∈ anchorPairs P results' := by
  have hlinked := h.map fun link => (link.1.anchor P, link.2)
  unfold linked at hlinked
  rw [List.map_map, List.map_map] at hlinked
  exact hlinked.mem_iff

/-- **Matching does not depend on the order of the symbols**, if the symbols of one identity share
the keys that are mentioned, and no cut goes through a tie. -/
theorem scored_order_free (paragraphs : List ParagraphRef) (mentions : Mentions)
    (symbols : List EngineSymbol) (h : Uniform P paragraphs mentions symbols)
    (hties : NoTies P paragraphs mentions symbols) (symbols' : List EngineSymbol)
    (hperm : symbols.Perm symbols') (pair : Anchor × Identity) :
    pair ∈ anchorPairs P (computeScoredPairs P paragraphs mentions symbols) ↔
      pair ∈ anchorPairs P (computeScoredPairs P paragraphs mentions symbols') :=
  anchorPairs_iff (linked_perm hperm h hties) pair

/-- Two symbols of one identity, of which only the second has a name that is qualified. -/
def modulesOf (second : String) : List EngineSymbol :=
  [sampleSymbol "x" (.int 1), { sampleSymbol "x" (.int 1) with qualifiedName := second }]

theorem scored_order_free_sample :
    {pair | pair ∈ anchorPairs samplePlatform (computeScoredPairs samplePlatform
        (sampleInputs [] .null).paragraphs [] (modulesOf "m.a_bcd"))} =
      {pair | pair ∈ anchorPairs samplePlatform (computeScoredPairs samplePlatform
        (sampleInputs [] .null).paragraphs [] (modulesOf "m.a_bcd").reverse)} := by
  ext pair
  refine scored_order_free _ _ _ ?_ (noTies_of_few (by decide)) _ (List.reverse_perm _).symm pair
  have hkeys : ∀ s ∈ modulesOf "m.a_bcd", ∀ t ∈ modulesOf "m.a_bcd",
      ["a", "bcd"] ∈ symbolMatchKeys (t.asSymbolRef samplePlatform) ∧ s.path = t.path := by
    decide +kernel
  have hasked : (askedTokens samplePlatform [] ⟨"d", .int 1, "a_bcd"⟩).map tokenMatchKey =
      [["a", "bcd"]] := by decide +kernel
  rintro s hs t ht - key ⟨p, hp, hkey⟩ -
  obtain rfl := List.mem_singleton.mp hp
  rw [hasked] at hkey
  obtain rfl := List.mem_singleton.mp hkey
  exact hkeys s hs t ht

/-- A paragraph that names a method by its class. -/
def dottedParagraph : ParagraphRef :=
  { docId := "d", paragraphId := .int 1, text := "AlphaService.run" }

/-- A method, with and without its class. -/
def bareRun : EngineSymbol := { name := "run", path := "a.py" }

def qualifiedRun : EngineSymbol := { bareRun with qualifiedName := "AlphaService.run" }

/-- The class is found in the second symbol only if that one comes first. -/
theorem order_decides_sample : ¬ ∀ (P : Platform) (paragraphs : List ParagraphRef)
    (mentions : Mentions) (symbols symbols' : List EngineSymbol), symbols.Perm symbols' →
      ∀ pair, pair ∈ anchorPairs P (computeScoredPairs P paragraphs mentions symbols) ↔
        pair ∈ anchorPairs P (computeScoredPairs P paragraphs mentions symbols') := by
  intro h
  have hnone : anchorPairs samplePlatform (computeScoredPairs samplePlatform [dottedParagraph] []
      [bareRun, qualifiedRun]) = [] := by decide +kernel
  have hone : anchorPairs samplePlatform (computeScoredPairs samplePlatform [dottedParagraph] []
      [qualifiedRun, bareRun]) =
        [(dottedParagraph.anchor samplePlatform, bareRun.identity samplePlatform)] := by
    decide +kernel
  have hpair := h samplePlatform [dottedParagraph] [] [qualifiedRun, bareRun]
    [bareRun, qualifiedRun] (List.Perm.swap _ _ _)
    (dottedParagraph.anchor samplePlatform, bareRun.identity samplePlatform)
  rw [hnone, hone] at hpair
  exact absurd (hpair.mp (List.mem_singleton_self _)) List.not_mem_nil

end CortexHarness.Link
