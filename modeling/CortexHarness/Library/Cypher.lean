import CortexHarness.Library.Dict
import Mathlib.Data.List.Induction

/-!
# Reading queries over a property graph

The part of Cypher that an audit of endpoints uses: `OPTIONAL MATCH` of one node pattern, and the
implicit grouping of `WITH key, count(x)`. A `Comparison` says how the database compares values; a
row is a map, and two rows are equal when they have equal values under the same keys.

Results:
* `counts_countBy`: a group counts the matches of all rows that are equal to its key;
* `matchesOf_optionalMatch`: so a row that is there `n` times has every match counted `n` times;
* `exists_countTwice`: the same for a query that counts two matches one after the other;
* `Comparison.sameRow_iff`: rows are compared key by key.
-/

namespace CortexHarness.Cypher

open Json

/-! ## Values -/

/-- How a database compares values. -/
structure Comparison where
  /-- equal in a grouping key -/
  same : Json → Json → Bool
  /-- `value = value` is true -/
  equals : Json → Json → Bool
  refl : ∀ v, same v v = true
  symm : ∀ {v w}, same v w = true → same w v = true
  trans : ∀ {u v w}, same u v = true → same v w = true → same u w = true
  /-- equal values equal the same values -/
  congr : ∀ {v w} u, same v w = true → equals u v = equals u w
  /-- different integers are different values -/
  int : ∀ {m n : Int}, same (.int m) (.int n) = true → m = n

namespace Comparison

variable (c : Comparison)

/-- Both values are missing, or both are there and equal. -/
def sameOption : Option Json → Option Json → Bool
  | none, none => true
  | some v, some w => c.same v w
  | _, _ => false

/-- Two rows are equal. -/
def sameRow (r r' : Row) : Bool :=
  (r.map Prod.fst ++ r'.map Prod.fst).all fun key => c.sameOption (find? r key) (find? r' key)

variable {c} {r r' r'' : Row}

theorem find?_eq_none (key : String) (h : key ∉ r.map Prod.fst) : find? r key = none := by
  unfold find?
  rw [Option.map_eq_none_iff, List.find?_eq_none]
  intro m hm hkey
  exact h (List.mem_map.mpr ⟨m, hm, beq_iff_eq.mp hkey⟩)

theorem sameRow_iff :
    c.sameRow r r' = true ↔ ∀ key, c.sameOption (find? r key) (find? r' key) = true := by
  unfold sameRow
  rw [List.all_eq_true]
  refine ⟨fun h key => ?_, fun h key _ => h key⟩
  by_cases hkey : key ∈ r.map Prod.fst ++ r'.map Prod.fst
  · exact h key hkey
  · rw [List.mem_append, not_or] at hkey
    rw [find?_eq_none key hkey.1, find?_eq_none key hkey.2]
    rfl

theorem sameRow_refl (r : Row) : c.sameRow r r = true := by
  refine sameRow_iff.mpr fun key => ?_
  cases find? r key with
  | none => rfl
  | some v => exact c.refl v

theorem sameRow_symm (h : c.sameRow r r' = true) : c.sameRow r' r = true := by
  refine sameRow_iff.mpr fun key => ?_
  have hkey := sameRow_iff.mp h key
  cases hr : find? r key <;> cases hr' : find? r' key <;> rw [hr, hr'] at hkey
  · rfl
  · cases hkey
  · cases hkey
  · exact c.symm hkey

theorem sameRow_trans (h : c.sameRow r r' = true) (h' : c.sameRow r' r'' = true) :
    c.sameRow r r'' = true := by
  refine sameRow_iff.mpr fun key => ?_
  have hkey := sameRow_iff.mp h key
  have hkey' := sameRow_iff.mp h' key
  cases hr : find? r key <;> cases hr' : find? r' key <;> cases hr'' : find? r'' key <;>
    rw [hr, hr'] at hkey <;> rw [hr', hr''] at hkey'
  all_goals first | rfl | cases hkey; done | cases hkey'; done | exact c.trans hkey hkey'

/-- The values of equal rows. -/
theorem same_field (h : c.sameRow r r' = true) (key : String) :
    c.same (field r key) (field r' key) = true := by
  have hkey := sameRow_iff.mp h key
  unfold field
  cases hr : find? r key <;> cases hr' : find? r' key <;> rw [hr, hr'] at hkey
  · exact c.refl _
  · cases hkey
  · cases hkey
  · exact hkey

end Comparison

/-! ## Nodes -/

/-- A node of the graph. -/
structure Node where
  labels : List String
  properties : Row

/-- `(x:Label {property: row.field, …})` -/
structure NodePattern where
  label : String
  properties : List (String × String)

/-- The nodes that a row matches. -/
def NodePattern.hits (c : Comparison) (graph : List Node) (p : NodePattern) (row : Row) : List Node :=
  graph.filter fun n => n.labels.contains p.label &&
    p.properties.all fun q => c.equals (field n.properties q.1) (field row q.2)

theorem NodePattern.hits_congr {c : Comparison} {graph : List Node} (p : NodePattern) {r r' : Row}
    (h : c.sameRow r r' = true) : p.hits c graph r = p.hits c graph r' := by
  unfold NodePattern.hits
  congr 1
  funext n
  congr 2
  funext q
  exact c.congr _ (c.same_field h q.2)

/-! ## Tables -/

section Tables

variable {α ν : Type} (same : α → α → Bool) (hits : α → List ν)

/-- `OPTIONAL MATCH`: a row once for each match, or once with `null`. -/
def optionalMatch (rows : List α) : List (α × Option ν) :=
  rows.flatMap fun r => if (hits r).isEmpty then [(r, none)] else (hits r).map fun n => (r, some n)

/-- One more row of a table whose groups count their matches. -/
def tally (p : α × Option ν) : List (α × Nat) → List (α × Nat)
  | [] => [(p.1, if p.2.isSome then 1 else 0)]
  | (r, n) :: groups =>
    if same r p.1 then (r, n + if p.2.isSome then 1 else 0) :: groups
    else (r, n) :: tally p groups

/-- `WITH row, count(x)`: the groups of equal rows, each with the number of its matches. -/
def countBy (table : List (α × Option ν)) : List (α × Nat) :=
  table.foldl (fun groups p => tally same p groups) []

/-- The matches of the rows that equal `r`. -/
def matchesOf (table : List (α × Option ν)) (r : α) : Nat :=
  table.countP fun p => same r p.1 && p.2.isSome

variable {same hits} {table : List (α × Option ν)} {groups : List (α × Nat)} {r r' : α} {n : Nat}
  {p : α × Option ν}

/-- `same` is an equivalence. -/
structure Grouping (same : α → α → Bool) : Prop where
  refl : ∀ r, same r r = true
  symm : ∀ {r r'}, same r r' = true → same r' r = true
  trans : ∀ {r r' r''}, same r r' = true → same r' r'' = true → same r r'' = true

theorem Grouping.congr (h : Grouping same) (hr : same r r' = true) (x : α) : same r x = same r' x := by
  cases hx : same r' x with
  | true => exact h.trans hr hx
  | false =>
    by_contra hne
    rw [Bool.not_eq_false] at hne
    rw [h.trans (h.symm hr) hne] at hx
    cases hx

/-- The groups of a table: every row is in one, and every group counts its own rows. -/
structure Counts (same : α → α → Bool) (table : List (α × Option ν)) (groups : List (α × Nat)) :
    Prop where
  count : ∀ g ∈ groups, g.2 = matchesOf same table g.1
  row : ∀ g ∈ groups, ∃ p ∈ table, p.1 = g.1
  covers : ∀ p ∈ table, ∃ g ∈ groups, same g.1 p.1 = true
  apart : groups.Pairwise fun g g' => same g.1 g'.1 = false

theorem matchesOf_append (p : α × Option ν) (r : α) :
    matchesOf same (table ++ [p]) r =
      matchesOf same table r + if same r p.1 && p.2.isSome then 1 else 0 := by
  unfold matchesOf
  rw [List.countP_append, List.countP_singleton]

/-- A row with a group of its own is counted there. -/
theorem tally_old (hs : Grouping same) (ha : groups.Pairwise fun g g' => same g.1 g'.1 = false)
    (h : ∃ g ∈ groups, same g.1 p.1 = true) :
    tally same p groups =
      groups.map fun g => (g.1, g.2 + if same g.1 p.1 && p.2.isSome then 1 else 0) := by
  induction groups with
  | nil => exact absurd h (by simp)
  | cons g groups ih =>
    obtain ⟨r, n⟩ := g
    obtain ⟨hhead, hrest⟩ := List.pairwise_cons.mp ha
    unfold tally
    by_cases hr : same r p.1 = true
    · rw [if_pos hr, List.map_cons]
      -- The other groups are apart from the first one, so the row is not in them.
      have hothers : ∀ g ∈ groups, same g.1 p.1 = false := by
        intro g hg
        by_contra hne
        rw [Bool.not_eq_false] at hne
        have hsame := hs.trans hr (hs.symm hne)
        rw [hhead g hg] at hsame
        cases hsame
      have hsame : groups.map (fun g => (g.1, g.2 + if same g.1 p.1 && p.2.isSome then 1 else 0)) =
          groups := by
        refine (List.map_congr_left fun g hg => ?_).trans (List.map_id groups)
        simp [hothers g hg]
      rw [hsame]
      simp [hr]
    · obtain ⟨g, hg, hgp⟩ := h
      rcases List.mem_cons.mp hg with rfl | hg
      · exact absurd hgp hr
      · rw [if_neg hr, List.map_cons, ih hrest ⟨g, hg, hgp⟩]
        simp [hr]

theorem tally_new (h : ∀ g ∈ groups, same g.1 p.1 = false) :
    tally same p groups = groups ++ [(p.1, if p.2.isSome then 1 else 0)] := by
  induction groups with
  | nil => rfl
  | cons g groups ih =>
    unfold tally
    rw [if_neg (by simp [h g List.mem_cons_self]),
      ih fun g' hg => h g' (List.mem_cons_of_mem _ hg)]
    rfl

theorem Counts.tally (hs : Grouping same) (h : Counts same table groups) (p : α × Option ν) :
    Counts same (table ++ [p]) (tally same p groups) := by
  by_cases hold : ∃ g ∈ groups, same g.1 p.1 = true
  · rw [tally_old hs h.apart hold]
    refine ⟨?_, ?_, ?_, ?_⟩
    · intro g' hg'
      obtain ⟨g, hg, rfl⟩ := List.mem_map.mp hg'
      rw [matchesOf_append, h.count g hg]
    · intro g' hg'
      obtain ⟨g, hg, rfl⟩ := List.mem_map.mp hg'
      obtain ⟨q, hq, he⟩ := h.row g hg
      exact ⟨q, List.mem_append_left _ hq, he⟩
    · intro q hq
      rcases List.mem_append.mp hq with hq | hq
      · obtain ⟨g, hg, hsame⟩ := h.covers q hq
        exact ⟨_, List.mem_map_of_mem hg, hsame⟩
      · obtain ⟨g, hg, hsame⟩ := hold
        exact ⟨_, List.mem_map_of_mem hg, List.mem_singleton.mp hq ▸ hsame⟩
    · exact List.pairwise_map.mpr h.apart
  · have hnew : ∀ g ∈ groups, same g.1 p.1 = false := by
      intro g hg
      by_contra hne
      exact hold ⟨g, hg, (Bool.not_eq_false _).mp hne⟩
    -- No earlier row equals this one, or its group would.
    have hfresh : matchesOf same table p.1 = 0 := by
      refine List.countP_eq_zero.mpr fun q hq hboth => ?_
      obtain ⟨g, hg, hgq⟩ := h.covers q hq
      have hsame := hs.trans hgq (hs.symm (Bool.and_eq_true _ _ ▸ hboth).1)
      rw [hnew g hg] at hsame
      cases hsame
    rw [tally_new hnew]
    refine ⟨?_, ?_, ?_, ?_⟩
    · intro g hg
      rw [matchesOf_append]
      rcases List.mem_append.mp hg with hg | hg
      · simp [h.count g hg, hnew g hg]
      · rw [List.mem_singleton.mp hg, hfresh, hs.refl]
        simp
    · intro g hg
      rcases List.mem_append.mp hg with hg | hg
      · obtain ⟨q, hq, he⟩ := h.row g hg
        exact ⟨q, List.mem_append_left _ hq, he⟩
      · rw [List.mem_singleton.mp hg]
        exact ⟨p, by simp, rfl⟩
    · intro q hq
      rcases List.mem_append.mp hq with hq | hq
      · obtain ⟨g, hg, hsame⟩ := h.covers q hq
        exact ⟨g, List.mem_append_left _ hg, hsame⟩
      · refine ⟨(p.1, if p.2.isSome then 1 else 0), by simp, ?_⟩
        rw [List.mem_singleton.mp hq]
        exact hs.refl p.1
    · refine List.pairwise_append.mpr ⟨h.apart, List.pairwise_singleton _ _, fun g hg g' hg' => ?_⟩
      rw [List.mem_singleton.mp hg']
      exact hnew g hg

/-- **The groups of a table.** -/
theorem counts_countBy (hs : Grouping same) (table : List (α × Option ν)) :
    Counts same table (countBy same table) := by
  induction table using List.reverseRecOn with
  | nil => exact ⟨nofun, nofun, nofun, .nil⟩
  | append_singleton table p ih =>
    unfold countBy
    rw [List.foldl_append]
    exact ih.tally hs p

/-- **A row that is there `n` times has each of its matches counted `n` times.** -/
theorem matchesOf_optionalMatch {rows : List α}
    (hcongr : ∀ r r', same r r' = true → hits r = hits r') (r : α) :
    matchesOf same (optionalMatch hits rows) r = rows.countP (same r) * (hits r).length := by
  induction rows with
  | nil => simp [optionalMatch, matchesOf]
  | cons x rows ih =>
    unfold optionalMatch matchesOf at ih ⊢
    rw [List.flatMap_cons, List.countP_append, ih, List.countP_cons, Nat.add_mul, Nat.add_comm]
    congr 1
    cases hx : same r x with
    | false => split <;> simp [List.countP_map, Function.comp_def, hx]
    | true =>
      rw [hcongr r x hx]
      split
      · next hnil => simp [List.isEmpty_iff.mp hnil]
      · simp [List.countP_map, Function.comp_def, hx]

theorem mem_optionalMatch {rows : List α} :
    r ∈ rows ↔ ∃ p ∈ optionalMatch hits rows, p.1 = r := by
  unfold optionalMatch
  constructor
  · intro hr
    by_cases hnil : (hits r).isEmpty = true
    · exact ⟨(r, none), List.mem_flatMap.mpr ⟨r, hr, by simp [hnil]⟩, rfl⟩
    · obtain ⟨n, hn⟩ := List.exists_mem_of_ne_nil _ (by simpa using hnil)
      refine ⟨(r, some n), List.mem_flatMap.mpr ⟨r, hr, ?_⟩, rfl⟩
      rw [if_neg hnil]
      exact List.mem_map_of_mem hn
  · rintro ⟨p, hp, rfl⟩
    obtain ⟨r, hr, hp⟩ := List.mem_flatMap.mp hp
    split at hp
    · rwa [List.mem_singleton.mp hp]
    · obtain ⟨n, -, rfl⟩ := List.mem_map.mp hp
      exact hr

/-! ## Two matches, each counted -/

/-- The key `row, count`. -/
def sameKey (same : α → α → Bool) (k k' : α × Nat) : Bool := same k.1 k'.1 && k.2 == k'.2

theorem grouping_sameKey (hs : Grouping same) : Grouping (sameKey same) where
  refl k := by simp [sameKey, hs.refl]
  symm {k k'} h := by
    simp only [sameKey, Bool.and_eq_true, beq_iff_eq] at h ⊢
    exact ⟨hs.symm h.1, h.2.symm⟩
  trans {k k' k''} h h' := by
    simp only [sameKey, Bool.and_eq_true, beq_iff_eq] at h h' ⊢
    exact ⟨hs.trans h.1 h'.1, h.2.trans h'.2⟩

/-- `OPTIONAL MATCH x WITH row, count(x) AS n OPTIONAL MATCH y WITH row, n, count(y)` -/
def countTwice (same : α → α → Bool) (hits hits' : α → List ν) (rows : List α) :
    List ((α × Nat) × Nat) :=
  countBy (sameKey same)
    (optionalMatch (fun k => hits' k.1) (countBy same (optionalMatch hits rows)))

/-- A group is equal to no other one. -/
theorem countP_apart (hs : Grouping same) (ha : groups.Pairwise fun g g' => same g.1 g'.1 = false)
    {g : α × Nat} (hg : g ∈ groups) : groups.countP (sameKey same g) = 1 := by
  induction groups with
  | nil => cases hg
  | cons x groups ih =>
    obtain ⟨hhead, hrest⟩ := List.pairwise_cons.mp ha
    rw [List.countP_cons]
    rcases List.mem_cons.mp hg with rfl | hg
    · have hzero : groups.countP (sameKey same g) = 0 :=
        List.countP_eq_zero.mpr fun k hk => by simp [sameKey, hhead k hk]
      rw [hzero, if_pos ((grouping_sameKey hs).refl g)]
    · have hx : sameKey same g x = false := by
        cases hgx : same g.1 x.1 with
        | false => simp [sameKey, hgx]
        | true =>
          have hsame := hs.symm hgx
          rw [hhead g hg] at hsame
          cases hsame
      rw [ih hrest hg, hx]
      rfl

/-- **What the two counts are**: the first one is multiplied by the number of equal rows, the
second one is not. -/
theorem exists_countTwice (hs : Grouping same) {hits hits' : α → List ν} {rows : List α}
    (hc : ∀ r r', same r r' = true → hits r = hits r')
    (hc' : ∀ r r', same r r' = true → hits' r = hits' r') (P : Nat → Nat → Prop) :
    (∃ g ∈ countTwice same hits hits' rows, P g.1.2 g.2) ↔
      ∃ r ∈ rows, P (rows.countP (same r) * (hits r).length) (hits' r).length := by
  have hfirst := counts_countBy hs (optionalMatch hits rows)
  have hsecond := counts_countBy (grouping_sameKey hs)
    (optionalMatch (fun k : α × Nat => hits' k.1) (countBy same (optionalMatch hits rows)))
  have hkeys (k k' : α × Nat) (h : sameKey same k k' = true) : hits' k.1 = hits' k'.1 :=
    hc' _ _ (Bool.and_eq_true _ _ ▸ h).1
  -- Both counts of one record.
  have hcounts {g : (α × Nat) × Nat} (hg : g ∈ countTwice same hits hits' rows) :
      g.1 ∈ countBy same (optionalMatch hits rows) ∧
        g.1.2 = rows.countP (same g.1.1) * (hits g.1.1).length ∧ g.2 = (hits' g.1.1).length := by
    obtain ⟨p, hp, hpg⟩ := hsecond.row g hg
    have hmem : g.1 ∈ countBy same (optionalMatch hits rows) :=
      mem_optionalMatch.mpr ⟨p, hp, hpg⟩
    refine ⟨hmem, ?_, ?_⟩
    · rw [hfirst.count g.1 hmem, matchesOf_optionalMatch hc]
    · rw [hsecond.count g hg, matchesOf_optionalMatch hkeys, countP_apart hs hfirst.apart hmem,
        Nat.one_mul]
  constructor
  · rintro ⟨g, hg, hP⟩
    obtain ⟨hmem, hone, htwo⟩ := hcounts hg
    obtain ⟨q, hq, hqg⟩ := hfirst.row g.1 hmem
    refine ⟨g.1.1, mem_optionalMatch.mpr ⟨q, hq, hqg⟩, ?_⟩
    rwa [← hone, ← htwo]
  · rintro ⟨r, hr, hP⟩
    obtain ⟨q, hq, rfl⟩ : ∃ q ∈ optionalMatch hits rows, q.1 = r := mem_optionalMatch.mp hr
    obtain ⟨k, hk, hkq⟩ := hfirst.covers q hq
    obtain ⟨q', hq', rfl⟩ : ∃ q' ∈ optionalMatch (fun k : α × Nat => hits' k.1)
      (countBy same (optionalMatch hits rows)), q'.1 = k := mem_optionalMatch.mp hk
    obtain ⟨g, hg, hgk⟩ := hsecond.covers q' hq'
    obtain ⟨-, hone, htwo⟩ := hcounts hg
    have hsame : same g.1.1 q.1 = true := hs.trans (Bool.and_eq_true _ _ ▸ hgk).1 hkq
    refine ⟨g, hg, ?_⟩
    rw [hone, htwo, hc _ _ hsame, hc' _ _ hsame, List.countP_congr fun x _ => by
      rw [hs.congr hsame]]
    exact hP

theorem pairwise_iff_countP (hs : Grouping same) {rows : List α} :
    rows.Pairwise (fun r r' => same r r' = false) ↔ ∀ r ∈ rows, rows.countP (same r) = 1 := by
  induction rows with
  | nil => simp
  | cons x rows ih =>
    have hx : (∀ r ∈ rows, same x r = false) ↔ rows.countP (same x) = 0 := by
      simp [List.countP_eq_zero]
    rw [List.pairwise_cons, ih, hx, List.forall_mem_cons, List.countP_cons, if_pos (hs.refl x)]
    constructor
    · rintro ⟨hzero, hrows⟩
      refine ⟨by rw [hzero], fun r hr => ?_⟩
      have hrx : same r x = false := by
        cases h : same r x with
        | false => rfl
        | true => exact absurd (hs.symm h) (List.countP_eq_zero.mp hzero r hr)
      rw [List.countP_cons, hrows r hr, hrx]
      rfl
    · rintro ⟨hone, hrows⟩
      have hzero : rows.countP (same x) = 0 := by omega
      refine ⟨hzero, fun r hr => ?_⟩
      have hcount := hrows r hr
      have hpos : 0 < rows.countP (same r) := List.countP_pos_iff.mpr ⟨r, hr, hs.refl r⟩
      rw [List.countP_cons] at hcount
      omega

end Tables

theorem Comparison.grouping (c : Comparison) : Grouping c.sameRow :=
  ⟨sameRow_refl, sameRow_symm, sameRow_trans⟩

end CortexHarness.Cypher
