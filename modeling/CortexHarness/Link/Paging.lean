import Mathlib.Data.List.Lex
import Mathlib.Data.List.Sort
import Mathlib.Data.Prod.Lex
import CortexHarness.Library.Dict
import CortexHarness.Library.Loops
import CortexHarness.Library.Python
import CortexHarness.Library.Segments

/-!
# Paged graph reads

`pagedRows` reads all rows of one match through windows of internal ids: inside a window it asks
for the rows from a page start, jumps to the group of the last row it got, and resumes inside that
group when a page ends in it. Pages may be cut short by the server at any length.

* `Graph` is what the graph answers; `Graph.exact` is a server that holds still, answers its count
  and its bounds exactly and cuts the ordered rows of every page wherever it likes, after the
  first.

Results:
* `absorb_segment`: what a page adds to the rows read so far;
* **`pagedRows_complete`**: against such a server `pagedRows` ends with every row, once, in the
  order of the ids.
-/

namespace CortexHarness.Link

open CortexHarness.Json CortexHarness.Loops CortexHarness.Segments

/-! ## The code -/

/-- `id(...)` is an integer. -/
def idOf : Json → Option Int
  | .int n => some n
  | _ => none

/-- `_row_id_tuple(row)`. -/
def rowIdTuple (row : Row) : List Int :=
  row.filterMap fun m => if startsWith m.1 "_" && endsWith m.1 "_id" then idOf m.2 else none

/-- The answers of the graph to the four queries of a read; the pages are numbered. -/
structure Graph where
  count : Option Int
  lo : Option Int
  hi : Option Int
  /-- `match_cypher` from `wlo` up to `whi`, at most `limit` rows -/
  matchPage : Nat → (wlo whi : Int) → (limit : Nat) → List Row
  /-- `group_cypher` at `wlo`, after `after`, at most `limit` rows -/
  groupPage : Nat → (wlo after : Int) → (limit : Nat) → List Row

/-- `_READ_WINDOW_MIN_IDS` -/
def readWindowMinIds : Int := 256

/-- `rows` and `seen_ids`, with the number of pages asked for. -/
structure Reading where
  rows : List Row := []
  seenIds : List (List Int) := []
  pages : Nat := 0

def absorbRow (s : Reading) (row : Row) : Reading :=
  let nodeId := rowIdTuple row
  if nodeId = [] then { s with rows := s.rows ++ [row] }
  else if s.seenIds.contains nodeId then s
  else { s with seenIds := nodeId :: s.seenIds, rows := s.rows ++ [row] }

/-- `absorb(page)` -/
def absorb (s : Reading) (page : List Row) : Reading := page.foldl absorbRow s

/-- `expected and len(rows) >= expected` -/
def enough (expected : Option Int) (s : Reading) : Bool :=
  match expected with
  | some e => e != 0 && decide (e ≤ s.rows.length)
  | none => false

/-- `page_lo`, `after` and what has been read. -/
structure Place where
  pageLo : Int
  after : Option Int
  reading : Reading

variable (g : Graph) (expected : Option Int) (batch : Nat)

/-- The query of one round of the inner loop. -/
def askPage (windowHi : Int) (p : Place) : List Row :=
  match p.after with
  | none => g.matchPage p.reading.pages p.pageLo windowHi batch
  | some after => g.groupPage p.reading.pages p.pageLo after batch

/-- One round of the inner loop. -/
def pageRound (windowHi : Int) (p : Place) : Place ⊕ Reading :=
  let page := askPage g batch windowHi p
  let reading := { p.reading with pages := p.reading.pages + 1 }
  match page.getLast? with
  | none =>
    match p.after with
    | none => .inr reading
    | some _ =>
      if windowHi ≤ p.pageLo + 1 then .inr reading
      else .inl { pageLo := p.pageLo + 1, after := none, reading }
  | some last =>
    let reading := absorb reading page
    if enough expected reading then .inr reading
    else
      match rowIdTuple last with
      | [] => .inr reading
      | anchor :: ids =>
        if p.pageLo < anchor then .inl { pageLo := anchor, after := none, reading }
        else .inl { pageLo := p.pageLo, after := (anchor :: ids).getLast?, reading }

/-- The inner loop: the pages of one window. -/
def drainWindow (fuel : Nat) (windowLo windowHi : Int) (reading : Reading) : Option Reading :=
  loop (fun _ p => some (pageRound g expected batch windowHi p)) fuel
    { pageLo := windowLo, after := none, reading }

/-- One round of the outer loop. -/
def windowRound (hi width : Int) (fuel : Nat) (s : Int × Reading) :
    Option ((Int × Reading) ⊕ Reading) :=
  if hi ≤ s.1 then some (.inr s.2)
  else if enough expected s.2 then some (.inr s.2)
  else
    let windowHi := min (s.1 + width) hi
    (drainWindow g expected batch fuel s.1 windowHi s.2).map fun reading => .inl (windowHi, reading)

/-- The warning about a short read. -/
def shortfall (what : String) (s : Reading) : Option String :=
  match expected with
  | some e =>
    if (s.rows.length : Int) < e then
      some ("[link-engine] warning: " ++ what ++ " truncated — read " ++
        toString s.rows.length ++ " of " ++ toString e ++
        " rows (server resultset cap?); links for the missing rows would stale-propagate")
    else none
  | none => none

/-- `width` -/
def windowWidth (lo hi : Int) : Int :=
  let divisor := match expected with
    | some e => if e = 0 then 1 else e
    | none => 1
  max readWindowMinIds ((batch * (hi - lo)) / max divisor 1)

/-- `_paged_rows`: the rows, and the warning it prints. -/
def pagedRows (what : String) (fuel : Nat) : Option (List Row × Option String) :=
  let expected := g.count
  let lo := g.lo.getD 0
  let hi := (g.hi.map (· + 1)).getD (2 ^ 62)
  let width := windowWidth expected batch lo hi
  (loop (windowRound g expected batch hi width) fuel (lo, {})).map fun s =>
    (s.rows, shortfall expected what s)

/-! ## The server -/

/-- `id(p)` of a row. -/
def anchor (row : Row) : Int := (rowIdTuple row).headD 0

/-- The last id of a row. -/
def lastId (row : Row) : Int := (rowIdTuple row).getLastD 0

/-- `ORDER BY` the ids. -/
def orderById (rows : List Row) : List Row :=
  rows.mergeSort fun a b => decide (rowIdTuple a ≤ rowIdTuple b)

/-- A graph that holds `rows` and lets at most `cap n` rows through of its `n`-th page. -/
def Graph.exact (rows : List Row) (cap : Nat → Nat) : Graph where
  count := some rows.length
  lo := (rows.map anchor).min?
  hi := (rows.map anchor).max?
  matchPage n wlo whi limit :=
    ((orderById (rows.filter fun r => decide (wlo ≤ anchor r) && decide (anchor r < whi))).take
      limit).take (cap n)
  groupPage n wlo after limit :=
    ((orderById (rows.filter fun r => decide (anchor r = wlo) && decide (after < lastId r))).take
      limit).take (cap n)

/-- The rows carry one id each, or an anchor and an entity each, and no two the same. -/
structure IdTuples (rows : List Row) : Prop where
  width : (∀ r ∈ rows, (rowIdTuple r).length = 1) ∨ ∀ r ∈ rows, (rowIdTuple r).length = 2
  distinct : (rows.map rowIdTuple).Nodup

/-! ## The rows in order -/

variable {rows : List Row}

theorem orderById_perm (rows : List Row) : List.Perm (orderById rows) rows :=
  List.mergeSort_perm _ _

@[simp] theorem orderById_nil : orderById [] = [] := List.mergeSort_nil

theorem orderById_pairwise (rows : List Row) :
    (orderById rows).Pairwise fun a b => rowIdTuple a ≤ rowIdTuple b := by
  have h := @List.pairwise_mergeSort _ (fun a b => decide (rowIdTuple a ≤ rowIdTuple b))
    (fun a b c hab hbc => by
      simp only [decide_eq_true_eq] at hab hbc ⊢
      exact le_trans hab hbc)
    (fun a b => by
      simp only [Bool.or_eq_true, decide_eq_true_eq]
      exact le_total _ _) rows
  exact h.imp fun h => of_decide_eq_true h

theorem IdTuples.inj (h : IdTuples rows) {a b : Row} (ha : a ∈ rows) (hb : b ∈ rows)
    (he : rowIdTuple a = rowIdTuple b) : a = b :=
  List.inj_on_of_nodup_map h.distinct ha hb he

theorem IdTuples.sorted (h : IdTuples rows) :
    (orderById rows).Pairwise fun a b => rowIdTuple a < rowIdTuple b := by
  have hnd : ((orderById rows).map rowIdTuple).Nodup :=
    (((orderById_perm rows).map rowIdTuple).nodup_iff).mpr h.distinct
  have hne := List.pairwise_map.mp hnd
  exact ((orderById_pairwise rows).and hne).imp fun h => lt_of_le_of_ne h.1 h.2

theorem IdTuples.orderById_filter (h : IdTuples rows) (p : Row → Bool) :
    orderById (rows.filter p) = (orderById rows).filter p := by
  refine @List.Perm.eq_of_pairwise _ (fun a b => rowIdTuple a ≤ rowIdTuple b) _ _
    (fun a b ha hb hab hba => ?_) (orderById_pairwise _)
    ((orderById_pairwise rows).sublist List.filter_sublist)
    ((orderById_perm _).trans ((orderById_perm rows).filter p).symm)
  have ha' := List.mem_of_mem_filter ((orderById_perm _).mem_iff.mp ha)
  have hb' := (orderById_perm rows).mem_iff.mp (List.mem_of_mem_filter hb)
  exact h.inj ha' hb' (le_antisymm hab hba)

/-- `a` comes before `b`. -/
def Earlier (a b : Row) : Prop :=
  anchor a < anchor b ∨ anchor a = anchor b ∧ lastId a < lastId b

theorem IdTuples.earlier (h : IdTuples rows) : (orderById rows).Pairwise Earlier := by
  refine h.sorted.imp_of_mem fun {a b} ha hb hlt => ?_
  have ha' := (orderById_perm rows).mem_iff.mp ha
  have hb' := (orderById_perm rows).mem_iff.mp hb
  unfold Earlier anchor lastId
  rcases h.width with hw | hw
  · obtain ⟨x, hx⟩ := List.length_eq_one_iff.mp (hw a ha')
    obtain ⟨y, hy⟩ := List.length_eq_one_iff.mp (hw b hb')
    rw [hx, hy] at hlt ⊢
    left
    simpa [List.cons_lt_cons_iff] using hlt
  · obtain ⟨x, x', hx⟩ := List.length_eq_two.mp (hw a ha')
    obtain ⟨y, y', hy⟩ := List.length_eq_two.mp (hw b hb')
    rw [hx, hy] at hlt ⊢
    simpa [List.cons_lt_cons_iff] using hlt

theorem IdTuples.ids (h : IdTuples rows) {r : Row} (hr : r ∈ rows) :
    ∃ ids, rowIdTuple r = anchor r :: ids ∧ (anchor r :: ids).getLast? = some (lastId r) := by
  unfold anchor lastId
  rcases h.width with hw | hw
  · obtain ⟨x, hx⟩ := List.length_eq_one_iff.mp (hw r hr)
    exact ⟨[], by rw [hx]; rfl, by rw [hx]; rfl⟩
  · obtain ⟨x, y, hx⟩ := List.length_eq_two.mp (hw r hr)
    exact ⟨[y], by rw [hx]; rfl, by rw [hx]; rfl⟩

/-! ## What has been read -/

/-- The first `k` of the ordered rows `l` have been read. -/
structure HasRead (l : List Row) (k : Nat) (s : Reading) : Prop where
  rows : s.rows = l.take k
  seen : ∀ i r, l[i]? = some r → (rowIdTuple r ∈ s.seenIds ↔ i < k)
  le : k ≤ l.length

theorem hasRead_zero (l : List Row) (n : Nat) : HasRead l 0 { pages := n } where
  rows := by simp
  seen i r _ := by simp
  le := Nat.zero_le _

variable {l : List Row} {k : Nat} {s : Reading}

theorem HasRead.pages (h : HasRead l k s) (n : Nat) : HasRead l k { s with pages := n } :=
  { rows := h.rows, seen := h.seen, le := h.le }

/-- One row: new if it is the next one, known if it came before. -/
theorem HasRead.absorbRow (h : HasRead l k s) (hne : ∀ r ∈ l, rowIdTuple r ≠ [])
    (hinj : (l.map rowIdTuple).Nodup) {i : Nat} {r : Row} (hr : l[i]? = some r) (hi : i ≤ k) :
    HasRead l (max k (i + 1)) (absorbRow s r) := by
  have hid := hne r (List.mem_of_getElem? hr)
  have hlen : i < l.length := (List.getElem?_eq_some_iff.mp hr).1
  unfold Link.absorbRow
  simp only [hid, if_false]
  by_cases hk : i < k
  · have hseen : s.seenIds.contains (rowIdTuple r) = true :=
      List.contains_iff_mem.mpr ((h.seen i r hr).mpr hk)
    rw [if_pos hseen, max_eq_left (by omega)]
    exact h
  · obtain rfl : i = k := by omega
    have hseen : ¬ s.seenIds.contains (rowIdTuple r) = true := fun hc =>
      absurd ((h.seen i r hr).mp (List.contains_iff_mem.mp hc)) (by omega)
    rw [if_neg hseen, max_eq_right (by omega)]
    refine ⟨?_, fun j r' hr' => ?_, hlen⟩
    · rw [List.take_add_one, hr, h.rows]
      rfl
    · rw [List.mem_cons, h.seen j r' hr']
      constructor
      · rintro (he | hlt)
        · have hj : (l.map rowIdTuple)[j]? = (l.map rowIdTuple)[i]? := by
            rw [List.getElem?_map, List.getElem?_map, hr, hr']
            exact congrArg some he
          have hjl : j < (l.map rowIdTuple).length := by
            rw [List.length_map]
            exact (List.getElem?_eq_some_iff.mp hr').1
          have := (List.getElem?_inj hjl hinj).mp hj
          omega
        · omega
      · intro hlt
        rcases Nat.lt_or_ge j i with hj | hj
        · exact Or.inr hj
        · obtain rfl : j = i := by omega
          rw [hr] at hr'
          exact Or.inl (congrArg rowIdTuple (Option.some.inj hr').symm)

/-- **A page adds its rows beyond those read so far.** -/
theorem absorb_segment (h : HasRead l k s) (hne : ∀ r ∈ l, rowIdTuple r ≠ [])
    (hinj : (l.map rowIdTuple).Nodup) {p : Nat} (hp : p ≤ k) (n : Nat) (hn : p + n ≤ l.length) :
    HasRead l (max k (p + n)) (absorb s ((l.drop p).take n)) := by
  induction n generalizing p k s with
  | zero =>
    rw [List.take_zero, max_eq_left (by omega)]
    exact h
  | succ n ih =>
    obtain ⟨r, hr⟩ : ∃ r, l[p]? = some r := ⟨_, List.getElem?_eq_getElem (by omega)⟩
    have hdrop : l.drop p = r :: l.drop (p + 1) := by
      obtain ⟨hlt, he⟩ := List.getElem?_eq_some_iff.mp hr
      rw [List.drop_eq_getElem_cons hlt, he]
    have hstep := h.absorbRow hne hinj hr hp
    have := ih hstep (p := p + 1) (by omega) (by omega)
    rw [hdrop, List.take_succ_cons]
    show HasRead l _ (absorb (Link.absorbRow s r) _)
    convert this using 1
    omega

/-! ## Places between the rows -/

/-- The row lies before the place where a page starts. -/
def before (lo : Int) (after : Option Int) (r : Row) : Bool :=
  decide (anchor r < lo) || (decide (anchor r = lo) && after.any fun a => decide (lastId r ≤ a))

theorem before_none (lo : Int) (r : Row) : before lo none r = true ↔ anchor r < lo := by
  simp [before]

theorem before_some (lo a : Int) (r : Row) :
    before lo (some a) r = true ↔ anchor r < lo ∨ anchor r = lo ∧ lastId r ≤ a := by
  simp [before]

theorem initial_before (h : l.Pairwise Earlier) (lo : Int) (after : Option Int) :
    Initial (before lo after) l := by
  refine h.imp fun {a b} hab hb => ?_
  unfold Earlier at hab
  cases after with
  | none =>
    rw [before_none] at hb ⊢
    omega
  | some x =>
    rw [before_some] at hb ⊢
    omega

/-- How many rows lie before a place. -/
def position (l : List Row) (lo : Int) (after : Option Int) : Nat := l.countP (before lo after)

theorem position_le (l : List Row) (lo : Int) (after : Option Int) :
    position l lo after ≤ l.length := List.countP_le_length

/-- Where the rows a page is taken from end. -/
def pageEnd (windowHi pageLo : Int) (after : Option Int) : Int :=
  match after with
  | none => windowHi
  | some _ => pageLo + 1

/-- **A page is a segment of the ordered rows**, empty only if there are none. -/
theorem askPage_exact (h : IdTuples rows) {cap : Nat → Nat} (hcap : ∀ n, 1 ≤ cap n) {batch : Nat}
    (hbatch : 1 ≤ batch) (windowHi : Int) (p : Place) (hlo : p.pageLo < windowHi) :
    ∃ n, askPage (Graph.exact rows cap) batch windowHi p =
        ((orderById rows).drop (position (orderById rows) p.pageLo p.after)).take n ∧
      position (orderById rows) p.pageLo p.after + n ≤ max
        (position (orderById rows) p.pageLo p.after)
        (position (orderById rows) (pageEnd windowHi p.pageLo p.after) none) ∧
      (n = 0 → position (orderById rows) (pageEnd windowHi p.pageLo p.after) none ≤
        position (orderById rows) p.pageLo p.after) := by
  obtain ⟨l, hl⟩ : ∃ l, orderById rows = l := ⟨_, rfl⟩
  have hearlier : l.Pairwise Earlier := hl ▸ h.earlier
  rw [hl]
  set stop := pageEnd windowHi p.pageLo p.after with hstop
  have hpage : askPage (Graph.exact rows cap) batch windowHi p =
      (((l.filter fun r => !before p.pageLo p.after r && before stop none r).take batch).take
        (cap p.reading.pages)) := by
    unfold askPage Graph.exact
    cases hafter : p.after with
    | none =>
      simp only [h.orderById_filter, hl]
      congr 2
      refine List.filter_congr fun r _ => ?_
      rw [Bool.eq_iff_iff]
      simp [before, hstop, pageEnd, hafter]
    | some a =>
      simp only [h.orderById_filter, hl]
      congr 2
      refine List.filter_congr fun r _ => ?_
      rw [Bool.eq_iff_iff]
      simp [before, hstop, pageEnd, hafter]
      omega
  have hsub : ∀ r ∈ l, before p.pageLo p.after r = true → before stop none r = true := by
    intro r _ hr
    rw [before_none, hstop]
    cases hafter : p.after with
    | none =>
      rw [hafter, before_none] at hr
      exact lt_trans hr hlo
    | some a =>
      rw [hafter, before_some] at hr
      show anchor r < p.pageLo + 1
      omega
  rw [filter_between (initial_before hearlier _ _) (initial_before hearlier _ _) hsub,
    List.drop_take, List.take_take, List.take_take] at hpage
  refine ⟨_, hpage, ?_, fun hn => ?_⟩
  · have hle := List.countP_mono_left hsub
    unfold position
    omega
  · have := hcap p.reading.pages
    unfold position
    omega

theorem position_none_mono (l : List Row) {lo lo' : Int} (h : lo ≤ lo') :
    position l lo none ≤ position l lo' none := by
  refine List.countP_mono_left fun r _ hr => ?_
  rw [before_none] at hr ⊢
  omega

/-- The place of the last row of a page: rows up to it lie before the next place. -/
theorem position_of_getElem (hl : l.Pairwise Earlier) {i : Nat} {r : Row} (hr : l[i]? = some r) :
    position l (anchor r) none ≤ i ∧ position l (anchor r) (some (lastId r)) = i + 1 := by
  constructor
  · have := (initial_getElem (initial_before hl (anchor r) none) hr).not
    rw [before_none] at this
    unfold position
    omega
  · have hin := (initial_getElem (initial_before hl (anchor r) (some (lastId r))) hr).mp
      ((before_some ..).mpr (Or.inr ⟨rfl, le_refl _⟩))
    refine le_antisymm (Nat.le_of_not_lt fun hlt => ?_) hin
    have hlen : i + 1 < l.length := lt_of_lt_of_le hlt (position_le ..)
    have hnext : l[i + 1]? = some l[i + 1] := List.getElem?_eq_getElem hlen
    have hb := (initial_getElem (initial_before hl (anchor r) (some (lastId r))) hnext).mpr hlt
    have hbound : i < l.length := Nat.lt_of_succ_lt hlen
    have hi : l[i] = r := (List.getElem?_eq_some_iff.mp hr).2
    have hearlier := List.pairwise_iff_getElem.mp hl i (i + 1) (by omega) hlen (by omega)
    rw [hi] at hearlier
    rw [before_some] at hb
    unfold Earlier at hearlier
    omega

/-! ## The loops -/

/-- What the inner loop keeps: everything before its place has been read. -/
structure Between (l : List Row) (windowHi : Int) (p : Place) (k : Nat) : Prop where
  read : HasRead l k p.reading
  place : position l p.pageLo p.after ≤ k
  inside : p.pageLo < windowHi

/-- What is left of the window: the ids above the page start, then the rows of its group. -/
def left (l : List Row) (windowHi : Int) (p : Place) : Nat ×ₗ Nat :=
  toLex ((windowHi - p.pageLo).toNat, match p.after with
    | none => l.length + 1
    | some a => l.length - position l p.pageLo (some a))

/-- Everything below `hi` has been read. -/
def Drained (l : List Row) (hi : Int) (s : Reading) : Prop :=
  ∃ k, HasRead l k s ∧ position l hi none ≤ k

theorem drained_of_enough (h : HasRead l k s) (he : enough (some l.length) s = true) (hi : Int) :
    Drained l hi s := by
  refine ⟨k, h, le_trans (position_le ..) ?_⟩
  have hlen : s.rows.length = min k l.length := by rw [h.rows, List.length_take]
  simp only [enough, Bool.and_eq_true, decide_eq_true_eq] at he
  omega

/-- A round goes on to a later place, or leaves the window drained. -/
def Advances (l : List Row) (windowHi : Int) (p : Place) (out : Place ⊕ Reading) : Prop :=
  (∃ p', out = .inl p' ∧ (∃ k, Between l windowHi p' k) ∧ left l windowHi p' < left l windowHi p) ∨
    ∃ s, out = .inr s ∧ Drained l windowHi s

variable {g : Graph} {batch : Nat} {windowHi : Int} {p : Place}

theorem pageRound_empty {expected : Option Int} (hp : Between l windowHi p k)
    (hpage : askPage g batch windowHi p = [])
    (hdone : position l (pageEnd windowHi p.pageLo p.after) none ≤ k) :
    Advances l windowHi p (pageRound g expected batch windowHi p) := by
  have hread := hp.read.pages (p.reading.pages + 1)
  unfold pageRound
  rw [hpage]
  dsimp only
  rw [List.getLast?_nil]
  dsimp only
  cases hafter : p.after with
  | none =>
    rw [hafter] at hdone
    exact Or.inr ⟨_, rfl, k, hread, hdone⟩
  | some a =>
    rw [hafter] at hdone
    dsimp only
    by_cases hover : windowHi ≤ p.pageLo + 1
    · rw [if_pos hover]
      exact Or.inr ⟨_, rfl, k, hread, le_trans (position_none_mono l hover) hdone⟩
    · rw [if_neg hover]
      refine Or.inl ⟨_, rfl, ⟨k, hread, hdone, Int.not_le.mp hover⟩, ?_⟩
      refine Prod.Lex.toLex_lt_toLex.mpr (Or.inl ?_)
      show (windowHi - (p.pageLo + 1)).toNat < (windowHi - p.pageLo).toNat
      have := hp.inside
      omega

/-- The ordered rows of the server. -/
structure Served (l : List Row) : Prop where
  earlier : l.Pairwise Earlier
  ids : ∀ r ∈ l, ∃ ids, rowIdTuple r = anchor r :: ids ∧
    (anchor r :: ids).getLast? = some (lastId r)
  distinct : (l.map rowIdTuple).Nodup

theorem IdTuples.served (h : IdTuples rows) : Served (orderById rows) where
  earlier := h.earlier
  ids _ hr := h.ids ((orderById_perm rows).mem_iff.mp hr)
  distinct := (((orderById_perm rows).map rowIdTuple).nodup_iff).mpr h.distinct

theorem Served.ne_nil (h : Served l) (r : Row) (hr : r ∈ l) : rowIdTuple r ≠ [] := by
  obtain ⟨ids, hids, -⟩ := h.ids r hr
  rw [hids]
  exact List.cons_ne_nil _ _

/-- A page with rows: the next page starts at the group of its last row, or goes on inside it. -/
theorem pageRound_page (h : Served l) (hp : Between l windowHi p k) {n : Nat}
    (hpage : askPage g batch windowHi p = (l.drop (position l p.pageLo p.after)).take (n + 1))
    (hend : position l p.pageLo p.after + (n + 1) ≤
      position l (pageEnd windowHi p.pageLo p.after) none) :
    Advances l windowHi p (pageRound g (some l.length) batch windowHi p) := by
  have hlen := le_trans hend (position_le l _ none)
  have hread := absorb_segment (hp.read.pages (p.reading.pages + 1)) h.ne_nil h.distinct hp.place
    (n + 1) hlen
  obtain ⟨r, hr⟩ : ∃ r, l[position l p.pageLo p.after + n]? = some r :=
    ⟨_, List.getElem?_eq_getElem (by omega)⟩
  have hlast : ((l.drop (position l p.pageLo p.after)).take (n + 1)).getLast? = some r := by
    have hlength : min (n + 1) (l.length - position l p.pageLo p.after) - 1 = n := by omega
    rw [List.getLast?_eq_getElem?, List.length_take, List.length_drop, hlength,
      List.getElem?_take_of_lt (by omega), List.getElem?_drop]
    exact hr
  -- Where the last row lies: not before the place, before the end of the page's range.
  obtain ⟨hbefore, hat⟩ := position_of_getElem h.earlier hr
  obtain ⟨ids, hids, hlastId⟩ := h.ids r (List.mem_of_getElem? hr)
  have hfrom : ¬ before p.pageLo p.after r = true := fun hb =>
    absurd ((initial_getElem (initial_before h.earlier p.pageLo p.after) hr).mp hb)
      (show ¬ _ < position l _ _ by omega)
  have hto := (initial_getElem
    (initial_before h.earlier (pageEnd windowHi p.pageLo p.after) none) hr).mpr
    (show _ < position l _ none by omega)
  rw [before_none] at hto
  have hstop : pageEnd windowHi p.pageLo p.after ≤ windowHi := by
    cases p.after with
    | none => exact le_refl _
    | some a => exact hp.inside
  unfold pageRound
  rw [hpage]
  dsimp only
  rw [hlast]
  dsimp only
  by_cases henough : enough (some (l.length : Int)) (absorb
      { p.reading with pages := p.reading.pages + 1 }
      ((l.drop (position l p.pageLo p.after)).take (n + 1))) = true
  · rw [if_pos henough]
    exact Or.inr ⟨_, rfl, drained_of_enough hread henough windowHi⟩
  · rw [if_neg henough, hids]
    dsimp only
    left
    by_cases hjump : p.pageLo < anchor r
    · rw [if_pos hjump]
      refine ⟨_, rfl, ⟨_, hread, le_trans hbefore ?_, lt_of_lt_of_le hto hstop⟩, ?_⟩
      · omega
      · refine Prod.Lex.toLex_lt_toLex.mpr (Or.inl ?_)
        show (windowHi - anchor r).toNat < (windowHi - p.pageLo).toNat
        have := hp.inside
        omega
    · -- The page ended inside the group it started in.
      have hge : p.pageLo ≤ anchor r := by
        refine Int.not_lt.mp fun hlt => hfrom ?_
        cases p.after with
        | none => exact (before_none ..).mpr hlt
        | some a => exact (before_some ..).mpr (Or.inl hlt)
      have hanchor : anchor r = p.pageLo := by omega
      rw [if_neg hjump, hlastId]
      rw [hanchor] at hat
      refine ⟨_, rfl, ⟨_, hread, le_trans hat.le (le_max_right _ _), hp.inside⟩, ?_⟩
      refine Prod.Lex.toLex_lt_toLex.mpr (Or.inr ⟨rfl, ?_⟩)
      show l.length - position l p.pageLo (some (lastId r)) < _
      cases hafter : p.after with
      | none =>
        show _ < l.length + 1
        omega
      | some a =>
        rw [hafter] at hat hlen
        show _ < l.length - position l p.pageLo (some a)
        omega

variable {cap : Nat → Nat}

theorem pageRound_spec (h : IdTuples rows) (hcap : ∀ n, 1 ≤ cap n) (hbatch : 1 ≤ batch)
    (hp : Between (orderById rows) windowHi p k) :
    Advances (orderById rows) windowHi p
      (pageRound (Graph.exact rows cap) (some (orderById rows).length) batch windowHi p) := by
  obtain ⟨n, hpage, hend, hempty⟩ := askPage_exact h hcap hbatch windowHi p hp.inside
  cases n with
  | zero =>
    rw [List.take_zero] at hpage
    exact pageRound_empty hp hpage (le_trans (hempty rfl) hp.place)
  | succ n => exact pageRound_page h.served hp hpage (by omega)

/-- **The inner loop ends and leaves its window drained.** -/
theorem drainWindow_ends (h : IdTuples rows) (hcap : ∀ n, 1 ≤ cap n) (hbatch : 1 ≤ batch)
    {windowLo : Int} (hlt : windowLo < windowHi) {s : Reading}
    (hs : Drained (orderById rows) windowLo s) :
    ∃ s', Ends (fun fuel => drainWindow (Graph.exact rows cap) (some (orderById rows).length) batch
      fuel windowLo windowHi s) s' ∧ Drained (orderById rows) windowHi s' := by
  obtain ⟨k, hread, hplace⟩ := hs
  refine loop_ends (I := fun p => ∃ k, Between (orderById rows) windowHi p k) wellFounded_lt
    (left (orderById rows) windowHi) (fun p hp => ?_) _ ⟨k, hread, hplace, hlt⟩
  obtain ⟨k, hp⟩ := hp
  rcases pageRound_spec h hcap hbatch hp with ⟨p', he, hI, hlt⟩ | ⟨s', he, hQ⟩
  · exact Or.inl ⟨p', he ▸ ends_some _, hI, hlt⟩
  · exact Or.inr ⟨s', he ▸ ends_some _, hQ⟩

theorem windowWidth_pos (expected : Option Int) (batch : Nat) (lo hi : Int) :
    0 < windowWidth expected batch lo hi :=
  lt_of_lt_of_le (by decide) (le_max_left _ _)

/-- **The outer loop ends with everything below `hi` read.** -/
theorem windows_end (h : IdTuples rows) (hcap : ∀ n, 1 ≤ cap n) (hbatch : 1 ≤ batch)
    (hi : Int) {width : Int} (hwidth : 0 < width) (s : Int × Reading)
    (hs : Drained (orderById rows) s.1 s.2) :
    ∃ s', Ends (fun fuel => loop (windowRound (Graph.exact rows cap)
      (some (orderById rows).length) batch hi width) fuel s) s' ∧
        Drained (orderById rows) hi s' := by
  refine loop_ends (I := fun s => Drained (orderById rows) s.1 s.2) wellFounded_lt
    (fun s : Int × Reading => (hi - s.1).toNat) (fun s hs => ?_) s hs
  by_cases hover : hi ≤ s.1
  · obtain ⟨k, hread, hplace⟩ := hs
    refine Or.inr ⟨s.2, ?_, k, hread, le_trans (position_none_mono _ hover) hplace⟩
    simp only [windowRound, hover, if_true]
    exact ends_some _
  · by_cases henough : enough (some ((orderById rows).length : Int)) s.2 = true
    · obtain ⟨k, hread, -⟩ := hs
      refine Or.inr ⟨s.2, ?_, drained_of_enough hread henough hi⟩
      simp only [windowRound, hover, henough, if_true, if_false]
      exact ends_some _
    · left
      have hwindow : s.1 < min (s.1 + width) hi := by omega
      obtain ⟨s', hends, hs'⟩ := drainWindow_ends h hcap hbatch hwindow hs
      refine ⟨(min (s.1 + width) hi, s'), ?_, hs', ?_⟩
      · simp only [windowRound, hover, henough, if_false]
        exact hends.map _
      · show (hi - min (s.1 + width) hi).toNat < (hi - s.1).toNat
        omega

theorem position_lo {lo : Int} (h : (rows.map anchor).min? = some lo) :
    position (orderById rows) lo none = 0 := by
  refine List.countP_eq_zero.mpr fun r hr hb => ?_
  have hmem := (orderById_perm rows).mem_iff.mp hr
  have := (List.min?_eq_some_iff.mp h).2 _ (List.mem_map_of_mem hmem)
  rw [before_none] at hb
  omega

theorem position_hi {hi : Int} (h : (rows.map anchor).max? = some hi) :
    position (orderById rows) (hi + 1) none = (orderById rows).length := by
  refine List.countP_eq_length.mpr fun r hr => ?_
  have hmem := (orderById_perm rows).mem_iff.mp hr
  have := (List.max?_eq_some_iff.mp h).2 _ (List.mem_map_of_mem hmem)
  rw [before_none]
  omega

theorem pagedRows_ends (h : IdTuples rows) {batch : Nat} (hbatch : 1 ≤ batch) {cap : Nat → Nat}
    (hcap : ∀ n, 1 ≤ cap n) (what : String) :
    Ends (pagedRows (Graph.exact rows cap) batch what) (orderById rows, none) := by
  have hlength : (orderById rows).length = rows.length := (orderById_perm rows).length_eq
  -- Nothing lies below the first window, and nothing above the last.
  have hstart : Drained (orderById rows) ((Graph.exact rows cap).lo.getD 0) {} := by
    refine ⟨0, hasRead_zero _ 0, Nat.le_of_eq ?_⟩
    cases hlo : (rows.map anchor).min? with
    | none =>
      obtain rfl : rows = [] := by simpa using hlo
      simp [position]
    | some lo =>
      show position _ ((rows.map anchor).min?.getD 0) none = 0
      rw [hlo]
      exact position_lo hlo
  have hstop : position (orderById rows) (((Graph.exact rows cap).hi.map (· + 1)).getD (2 ^ 62))
      none = (orderById rows).length := by
    show position _ (((rows.map anchor).max?.map (· + 1)).getD (2 ^ 62)) none = _
    cases hhi : (rows.map anchor).max? with
    | none =>
      obtain rfl : rows = [] := by simpa using hhi
      simp [position]
    | some hi => exact position_hi hhi
  obtain ⟨s, hends, k, hread, hplace⟩ := windows_end h hcap hbatch
    (((Graph.exact rows cap).hi.map (· + 1)).getD (2 ^ 62))
    (windowWidth_pos (Graph.exact rows cap).count batch ((Graph.exact rows cap).lo.getD 0)
      (((Graph.exact rows cap).hi.map (· + 1)).getD (2 ^ 62)))
    ((Graph.exact rows cap).lo.getD 0, {}) hstart
  rw [hstop] at hplace
  rw [hlength] at hends
  have hrows : s.rows = orderById rows := by rw [hread.rows, List.take_of_length_le hplace]
  have hquiet : shortfall (Graph.exact rows cap).count what s = none := by
    show (if (s.rows.length : Int) < rows.length then _ else none) = none
    rw [hrows, hlength, if_neg (lt_irrefl _)]
  rw [← hquiet, ← hrows]
  exact hends.map fun s => (s.rows, shortfall (Graph.exact rows cap).count what s)

/-- **Paged reads are complete.** Whatever the batch and wherever the server cuts its pages, the
read ends with every row, once, in the order of the ids, and without a warning. -/
theorem pagedRows_complete (rows : List Row) (h : IdTuples rows) (batch : Nat) (hbatch : 1 ≤ batch)
    (cap : Nat → Nat) (hcap : ∀ n, 1 ≤ cap n) (what : String) :
    ∃ result, Ends (pagedRows (Graph.exact rows cap) batch what) (result, none) ∧
      result.Perm rows ∧ result.Pairwise fun a b => rowIdTuple a < rowIdTuple b :=
  ⟨orderById rows, pagedRows_ends h hbatch hcap what, orderById_perm rows, h.sorted⟩

/-- Two paragraphs, the first with two entities, in no order. -/
def sampleEdges : List Row :=
  [[("_node_id", .int 700), ("_entity_id", .int 2), ("name", .str "Order")],
    [("_node_id", .int 3), ("_entity_id", .int 9), ("name", .str "Invoice")],
    [("_node_id", .int 3), ("_entity_id", .int 5), ("name", .str "Order")]]

/-- A server that lets one row through at a time. -/
theorem pagedRows_complete_sample :
    ∃ result, Ends (pagedRows (Graph.exact sampleEdges fun _ => 1) 500 "HAS_ENTITY edges")
      (result, none) ∧ result.Perm sampleEdges ∧
      result.Pairwise fun a b => rowIdTuple a < rowIdTuple b :=
  pagedRows_complete sampleEdges ⟨Or.inr (by decide +kernel), by decide +kernel⟩ 500 (by decide)
    (fun _ => 1) (fun _ => Nat.le_refl 1) "HAS_ENTITY edges"

end CortexHarness.Link
