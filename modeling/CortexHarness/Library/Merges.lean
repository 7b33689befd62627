import Mathlib.Data.List.Basic
import Mathlib.Data.List.Induction
import Mathlib.Logic.Function.Basic

/-!
# Stores under `MERGE … SET`

`merge key set rows s` goes through the rows of an `UNWIND`: each finds or creates the element under
its key, and then sets it.

Results:
* `merge_other`: an element that no row names stays;
* `merge_invariant`: what the rows of a key preserve;
* `merge_written`: what every row of a key sets holds of the element afterwards;
* `isSome_merge`: the elements that exist afterwards;
* `merge_coalescing`: when a `SET` keeps one part of an element and overwrites the other, an element has
  what the first and the last row of its key say;
* **`merge_filter_iff`**: which rows can be left out when a `SET` overwrites; `merge_part` does the
  parts of an element one by one;
* `merge_replay`: so repeating beginnings of the rows (`Replay`) before them changes nothing.
-/

namespace CortexHarness.Merges

variable {ρ κ β : Type} [DecidableEq κ]

/-- `UNWIND rows AS row MERGE (x {key: row.key}) SET …`; a new element is set from `none`. -/
def merge (key : ρ → κ) (set : ρ → Option β → β) (rows : List ρ) (s : κ → Option β) :
    κ → Option β :=
  rows.foldl (fun s r => Function.update s (key r) (some (set r (s (key r))))) s

variable {key : ρ → κ} {set : ρ → Option β → β} {rows rows' : List ρ} {s : κ → Option β} {k : κ}
  {r : ρ}

@[simp] theorem merge_nil : merge key set [] s = s := rfl

@[simp] theorem merge_cons : merge key set (r :: rows) s =
    merge key set rows (Function.update s (key r) (some (set r (s (key r))))) := rfl

theorem merge_append : merge key set (rows ++ rows') s = merge key set rows' (merge key set rows s) :=
  List.foldl_append

theorem merge_other (h : ∀ r ∈ rows, key r ≠ k) : merge key set rows s k = s k := by
  induction rows generalizing s with
  | nil => rfl
  | cons r rows ih =>
    have hne : k ≠ key r := fun he => h r List.mem_cons_self he.symm
    rw [merge_cons, ih fun r hr => h r (List.mem_cons_of_mem _ hr), Function.update_of_ne hne]

/-- What the rows of a key preserve holds in the end. -/
theorem merge_invariant {P : Option β → Prop}
    (hset : ∀ r ∈ rows, key r = k → ∀ old, P old → P (some (set r old))) (hs : P (s k)) :
    P (merge key set rows s k) := by
  induction rows generalizing s with
  | nil => exact hs
  | cons r rows ih =>
    rw [merge_cons]
    refine ih (fun r hr => hset r (List.mem_cons_of_mem _ hr)) ?_
    by_cases hr : key r = k
    · subst hr
      rw [Function.update_self]
      exact hset r List.mem_cons_self rfl _ hs
    · rwa [Function.update_of_ne (Ne.symm hr)]

/-- **What every row of a key sets holds of the element afterwards.** -/
theorem merge_written {P : β → Prop} (hset : ∀ r ∈ rows, key r = k → ∀ old, P (set r old))
    (hr : ∃ r ∈ rows, key r = k) : ∃ b, merge key set rows s k = some b ∧ P b := by
  obtain ⟨r, hr, rfl⟩ := hr
  obtain ⟨before, after, rfl⟩ := List.append_of_mem hr
  rw [merge_append, merge_cons]
  refine merge_invariant (P := fun o => ∃ b, o = some b ∧ P b) (fun r' hr' he old _ => ?_) ?_
  · have hmem : r' ∈ before ++ r :: after := List.mem_append_right _ (List.mem_cons_of_mem _ hr')
    exact ⟨_, rfl, hset r' hmem he old⟩
  · rw [Function.update_self]
    exact ⟨_, rfl, hset r (List.mem_append_right _ List.mem_cons_self) rfl _⟩

theorem isSome_merge :
    (merge key set rows s k).isSome ↔ (s k).isSome ∨ ∃ r ∈ rows, key r = k := by
  by_cases hr : ∃ r ∈ rows, key r = k
  · obtain ⟨b, hb, -⟩ : ∃ b, merge key set rows s k = some b ∧ True :=
      merge_written (P := fun _ => True) (fun _ _ _ _ => trivial) hr
    rw [hb]
    exact ⟨fun _ => .inr hr, fun _ => rfl⟩
  · rw [merge_other fun r hmem he => hr ⟨r, hmem, he⟩]
    exact ⟨.inl, fun h => h.resolve_right hr⟩

theorem merge_congr {set' : ρ → Option β → β} (h : ∀ r ∈ rows, set r = set' r) :
    merge key set rows s = merge key set' rows s := by
  induction rows generalizing s with
  | nil => rfl
  | cons r rows ih =>
    rw [merge_cons, merge_cons, h r List.mem_cons_self,
      ih fun r hr => h r (List.mem_cons_of_mem _ hr)]

theorem merge_concat : merge key set (rows ++ [r]) s =
    Function.update (merge key set rows s) (key r) (some (set r (merge key set rows s (key r)))) := by
  rw [merge_append]
  rfl

theorem merge_map {α : Type} (f : α → ρ) (rows : List α) :
    merge key set (rows.map f) s = merge (fun a => key (f a)) (fun a => set (f a)) rows s :=
  List.foldl_map

/-- A part of the elements that only some rows set is merged from these rows. -/
theorem merge_part {γ : Type} (part : Option β → Option γ) (sets : ρ → Bool)
    (set' : ρ → Option γ → γ)
    (hset : ∀ r old, sets r = true → part (some (set r old)) = some (set' r (part old)))
    (hskip : ∀ r old, sets r = false → part (some (set r old)) = part old) :
    part (merge key set rows s k) = merge key set' (rows.filter sets) (fun k => part (s k)) k := by
  induction rows generalizing s with
  | nil => rfl
  | cons r rows ih =>
    rw [merge_cons, ih]
    cases hr : sets r with
    | true =>
      rw [List.filter_cons_of_pos hr, merge_cons]
      congr 1
      funext k'
      by_cases hk : k' = key r
      · subst hk
        rw [Function.update_self, Function.update_self, hset r _ hr]
      · rw [Function.update_of_ne hk, Function.update_of_ne hk]
    | false =>
      rw [List.filter_cons_of_neg (by simp [hr])]
      congr 1
      funext k'
      by_cases hk : k' = key r
      · subst hk
        rw [Function.update_self, hskip r _ hr]
      · rw [Function.update_of_ne hk]

/-! ## Rows that overwrite -/

section Overwrite

variable {value : ρ → β} {p : ρ → Bool}

theorem merge_overwrite (value : ρ → β) (rows : List ρ) (s : κ → Option β) (k : κ) :
    merge key (fun r _ => value r) rows s k =
      ((rows.filter fun r => key r = k).getLast?.map value).or (s k) := by
  induction rows using List.reverseRecOn with
  | nil => rfl
  | append_singleton rows r ih =>
    rw [merge_concat, List.filter_append, List.filter_singleton]
    by_cases hr : key r = k
    · subst hr
      rw [Function.update_self, decide_eq_true rfl, Bool.cond_true, List.getLast?_concat]
      rfl
    · rw [Function.update_of_ne (Ne.symm hr), ih, decide_eq_false hr, Bool.cond_false,
        List.append_nil]

/-- What the last row of a key says, where `p` leaves that row out, is there without it. -/
def Covered (key : ρ → κ) (value : ρ → β) (p : ρ → Bool) (rows : List ρ) (s : κ → Option β) :
    Prop :=
  ∀ k r, (rows.filter fun r => key r = k).getLast? = some r → p r = false →
    (((rows.filter p).filter fun r => key r = k).getLast?.map value).or (s k) = some (value r)

/-- **Rows can be left out iff what they say last is there without them.** -/
theorem merge_filter_iff (value : ρ → β) (p : ρ → Bool) (rows : List ρ) (s : κ → Option β) :
    merge key (fun r _ => value r) rows s = merge key (fun r _ => value r) (rows.filter p) s ↔
      Covered key value p rows s := by
  constructor
  · intro h k r hlast _
    have hk := congrFun h k
    rw [merge_overwrite, merge_overwrite, hlast] at hk
    exact hk.symm
  · intro h
    funext k
    rw [merge_overwrite, merge_overwrite]
    cases hlast : (rows.filter fun r => key r = k).getLast? with
    | none =>
      have hnone : (rows.filter fun r => key r = k) = [] := List.getLast?_eq_none_iff.mp hlast
      have hnone' : ((rows.filter p).filter fun r => key r = k) = [] := by
        rw [List.filter_comm, hnone]
        rfl
      rw [hnone']
      rfl
    | some r =>
      cases hr : p r with
      | false => exact (h k r hlast hr).symm
      | true =>
        obtain ⟨before, hbefore⟩ := List.getLast?_eq_some_iff.mp hlast
        rw [List.filter_comm, hbefore, List.filter_append, List.filter_cons_of_pos hr,
          List.filter_nil, List.getLast?_concat]

/-- A `SET` that leaves what is there. -/
theorem merge_keep (c : β) (rows : List ρ) (s : κ → Option β) (k : κ) :
    merge key (fun _ old => old.getD c) rows s k =
      (s k).or (if rows.any fun r => key r = k then some c else none) := by
  induction rows using List.reverseRecOn with
  | nil =>
    rw [merge_nil]
    cases s k <;> rfl
  | append_singleton rows r ih =>
    rw [merge_concat, List.any_append, List.any_cons, List.any_nil, Bool.or_false]
    by_cases hr : key r = k
    · subst hr
      rw [Function.update_self, ih, decide_eq_true rfl, Bool.or_true, if_pos rfl]
      cases s (key r) with
      | some b => rfl
      | none =>
        rw [Option.none_or, Option.none_or]
        split <;> rfl
    · rw [Function.update_of_ne (Ne.symm hr), ih, decide_eq_false hr, Bool.or_false]

end Overwrite

/-! ## Replays -/

section Replays

variable {α : Type} {whole log : List α}

/-- The log repeats beginnings of `whole`. -/
def Replay (whole log : List α) : Prop :=
  ∃ parts : List (List α), (∀ part ∈ parts, part <+: whole) ∧ log = parts.flatten

theorem Replay.nil : Replay whole [] := ⟨[], fun _ h => (List.not_mem_nil h).elim, rfl⟩

theorem Replay.append (h : Replay whole log) {part : List α} (hpart : part <+: whole) :
    Replay whole (log ++ part) := by
  obtain ⟨parts, hparts, rfl⟩ := h
  refine ⟨parts ++ [part], fun p hp => ?_, by simp⟩
  rcases List.mem_append.mp hp with hp | hp
  · exact hparts p hp
  · exact List.mem_singleton.mp hp ▸ hpart

theorem Replay.filter (h : Replay whole log) (p : α → Bool) :
    Replay (whole.filter p) (log.filter p) := by
  obtain ⟨parts, hparts, rfl⟩ := h
  refine ⟨parts.map (List.filter p), fun part hpart => ?_, by rw [List.filter_flatten]⟩
  obtain ⟨part', hpart', rfl⟩ := List.mem_map.mp hpart
  exact (hparts part' hpart').filter p

theorem Replay.filterMap {γ : Type} (h : Replay whole log) (f : α → Option γ) :
    Replay (whole.filterMap f) (log.filterMap f) := by
  obtain ⟨parts, hparts, rfl⟩ := h
  refine ⟨parts.map (List.filterMap f), fun part hpart => ?_, by rw [List.filterMap_flatten]⟩
  obtain ⟨part', hpart', rfl⟩ := List.mem_map.mp hpart
  exact (hparts part' hpart').filterMap f

theorem Replay.flatMap {γ : Type} (h : Replay whole log) (f : α → List γ) :
    Replay (whole.flatMap f) (log.flatMap f) := by
  obtain ⟨parts, hparts, rfl⟩ := h
  refine ⟨parts.map (List.flatMap f), fun part hpart => ?_, ?_⟩
  · obtain ⟨part', hpart', rfl⟩ := List.mem_map.mp hpart
    obtain ⟨rest, hrest⟩ := hparts part' hpart'
    exact ⟨rest.flatMap f, by rw [← List.flatMap_append, hrest]⟩
  · induction parts with
    | nil => rfl
    | cons part parts ih =>
      rw [List.flatten_cons, List.flatMap_append, List.map_cons, List.flatten_cons,
        ih fun p hp => hparts p (List.mem_cons_of_mem _ hp)]

theorem Replay.mem (h : Replay whole log) {a : α} (ha : a ∈ log) : a ∈ whole := by
  obtain ⟨parts, hparts, rfl⟩ := h
  obtain ⟨part, hpart, ha⟩ := List.mem_flatten.mp ha
  exact (hparts part hpart).subset ha

theorem Replay.head?_eq (h : Replay whole log) : (log ++ whole).head? = whole.head? := by
  obtain ⟨parts, hparts, rfl⟩ := h
  induction parts with
  | nil => rfl
  | cons part parts ih =>
    rw [List.flatten_cons, List.append_assoc]
    cases hpart : part with
    | nil => exact ih fun p hp => hparts p (List.mem_cons_of_mem _ hp)
    | cons a rest =>
      obtain ⟨tail, rfl⟩ := hpart ▸ hparts part List.mem_cons_self
      rfl

theorem Replay.getLast?_eq (h : Replay whole log) : (log ++ whole).getLast? = whole.getLast? := by
  rw [List.getLast?_append]
  cases hlast : whole.getLast? with
  | some a => rfl
  | none =>
    rw [List.getLast?_eq_none_iff] at hlast
    obtain ⟨parts, hparts, rfl⟩ := h
    have hnil : parts.flatten = [] := List.flatten_eq_nil_iff.mpr fun part hpart =>
      List.prefix_nil.mp (hlast ▸ hparts part hpart)
    rw [hnil]
    rfl

end Replays

/-! ## What the first and the last row set -/

section Coalesce

/-- A `SET` that keeps one part of an element that is there (`coalesce`), and sets the other. -/
structure Coalescing (set : ρ → Option β → β) (γ δ : Type) where
  build : γ → δ → β
  firstOf : β → γ
  first : ρ → γ
  rest : ρ → δ
  firstOf_build : ∀ a c, firstOf (build a c) = a
  set_eq : ∀ r old, set r old = build (old.elim (first r) firstOf) (rest r)

/-- A `SET` of every property. -/
def Coalescing.overwrite (value : ρ → β) : Coalescing (fun r _ => value r) Unit ρ where
  build _ r := value r
  firstOf _ := ()
  first _ := ()
  rest r := r
  firstOf_build _ _ := rfl
  set_eq _ _ := rfl

variable {γ δ : Type}

/-- An element has what the first row of its key and the last one say. -/
theorem merge_coalescing (c : Coalescing set γ δ) (rows : List ρ) (k : κ) :
    merge key set rows (fun _ => none) k =
      ((rows.filter fun r => key r = k).head?.bind fun r =>
        (rows.filter fun r => key r = k).getLast?.map fun r' => c.build (c.first r) (c.rest r')) := by
  induction rows using List.reverseRecOn with
  | nil => rfl
  | append_singleton rows r ih =>
    rw [merge_concat]
    by_cases hr : key r = k
    · subst hr
      rw [Function.update_self, ih, List.filter_append, List.filter_singleton, decide_eq_true rfl]
      cases hrows : rows.filter fun r' => key r' = key r with
      | nil => simp [c.set_eq]
      | cons x xs =>
        obtain ⟨y, hy⟩ := Option.isSome_iff_exists.mp
          (List.getLast?_isSome.mpr (List.cons_ne_nil x xs))
        rw [List.head?_cons, hy, Bool.cond_true, List.getLast?_concat, List.cons_append,
          List.head?_cons]
        simp [c.set_eq, c.firstOf_build]
    · rw [Function.update_of_ne (Ne.symm hr), ih, List.filter_append, List.filter_singleton,
        decide_eq_false hr]
      simp

/-- **Repeating beginnings of the rows before them changes nothing.** -/
theorem merge_replay (c : Coalescing set γ δ) {whole log : List ρ} (h : Replay whole log) :
    merge key set (log ++ whole) (fun _ => none) = merge key set whole fun _ => none := by
  funext k
  have hk := h.filter fun r => key r = k
  rw [merge_coalescing c, merge_coalescing c, List.filter_append, hk.head?_eq, hk.getLast?_eq]

end Coalesce

end CortexHarness.Merges
