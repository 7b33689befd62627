import Mathlib.Data.List.Basic
import Mathlib.Data.List.Nodup

/-!
# Repeated upserts

A store of labelled edges and a list of upserts. An upsert finds the edges between its ends that
carry its key as their label, or creates one, and then writes them; the write may change the label.
The position of an edge in the store is its identity.

Results:
* `disjoint_of_noClash`, `noClash_of_disjoint`: two upserts of a list never touch one edge exactly
  when no upsert looks for the label that an earlier one stores between the same ends;
* `replay_iff`: with distinct stored labels, running a list again changes nothing and its upserts
  touch distinct edges exactly when every upsert stores the label it looks for.
-/

namespace CortexHarness.Upserts

variable {ε κ ρ : Type}

/-- An edge with its properties. -/
structure Edge (ε ρ : Type) where
  ends : ε
  props : ρ

/-- `MERGE` an edge labelled `key` between `ends`, then write its properties. -/
structure Upsert (ε κ ρ : Type) where
  ends : ε
  key : κ
  /-- the properties of a new edge -/
  fresh : ρ
  write : ρ → ρ

/-- The write leaves the label `s`, and leaves the properties alone when it is made again. -/
structure Stores (label : ρ → Option κ) (u : Upsert ε κ ρ) (s : κ) : Prop where
  labels : ∀ p, label (u.write p) = some s
  again : ∀ p, u.write (u.write p) = u.write p

variable [DecidableEq ε] [DecidableEq κ] (label : ρ → Option κ)

namespace Upsert

/-- The edge is between the ends of the upsert and carries its key. -/
def hits (u : Upsert ε κ ρ) (e : Edge ε ρ) : Bool :=
  e.ends = u.ends && label e.props = some u.key

/-- The edge after the write. -/
def put (u : Upsert ε κ ρ) (e : Edge ε ρ) : Edge ε ρ := { e with props := u.write e.props }

/-- Write every edge that the upsert hits; where there is none, create one. -/
def step (edges : List (Edge ε ρ)) (u : Upsert ε κ ρ) : List (Edge ε ρ) :=
  if edges.any (u.hits label) then edges.map fun e => if u.hits label e then u.put e else e
  else edges ++ [u.put { ends := u.ends, props := u.fresh }]

/-- The upsert writes or creates the edge `i`. -/
def Touches (u : Upsert ε κ ρ) (edges : List (Edge ε ρ)) (i : Nat) : Prop :=
  (∃ e, edges[i]? = some e ∧ u.hits label e = true) ∨
    (edges.any (u.hits label) = false ∧ i = edges.length)

end Upsert

open Upsert

/-- The upserts in order. -/
def run (edges : List (Edge ε ρ)) (us : List (Upsert ε κ ρ)) : List (Edge ε ρ) :=
  us.foldl (step label) edges

/-- No edge is touched by two upserts of the run. -/
def Disjoint (edges : List (Edge ε ρ)) (us : List (Upsert ε κ ρ)) : Prop :=
  ∀ s t (u v : Upsert ε κ ρ), s < t → us[s]? = some u → us[t]? = some v →
    ∀ i, u.Touches label (run label edges (us.take s)) i →
      ¬ v.Touches label (run label edges (us.take t)) i

/-- `stored` says what each upsert stores. -/
def Lawful (stored : Upsert ε κ ρ → κ) (us : List (Upsert ε κ ρ)) : Prop :=
  ∀ u ∈ us, Stores label u (stored u)

/-- No upsert looks for the label that an earlier one stores between the same ends. -/
def NoClash (stored : Upsert ε κ ρ → κ) (us : List (Upsert ε κ ρ)) : Prop :=
  us.Pairwise fun u v => ¬ (u.ends = v.ends ∧ stored u = v.key)

/-! ## One upsert -/

variable {label} {stored : Upsert ε κ ρ → κ} {edges : List (Edge ε ρ)} {u v : Upsert ε κ ρ}
  {i : Nat}

theorem hits_iff {e : Edge ε ρ} :
    u.hits label e = true ↔ e.ends = u.ends ∧ label e.props = some u.key := by
  unfold Upsert.hits
  rw [Bool.and_eq_true, decide_eq_true_iff, decide_eq_true_iff]

theorem exists_touched (label : ρ → Option κ) (u : Upsert ε κ ρ) (edges : List (Edge ε ρ)) :
    ∃ i, u.Touches label edges i := by
  by_cases h : edges.any (u.hits label) = true
  · obtain ⟨e, he, hit⟩ := List.any_eq_true.mp h
    obtain ⟨i, hi⟩ := List.getElem?_of_mem he
    exact ⟨i, .inl ⟨e, hi, hit⟩⟩
  · exact ⟨edges.length, .inr ⟨by simpa using h, rfl⟩⟩

theorem step_touched {s : κ} (hs : Stores label u s) (h : u.Touches label edges i) :
    ∃ e, (step label edges u)[i]? = some e ∧ e.ends = u.ends ∧ label e.props = some s := by
  unfold step
  rcases h with ⟨e, he, hit⟩ | ⟨hnone, rfl⟩
  · rw [if_pos (List.any_eq_true.mpr ⟨e, List.mem_of_getElem? he, hit⟩)]
    refine ⟨u.put e, ?_, (hits_iff.mp hit).1, hs.labels _⟩
    rw [List.getElem?_map, he, Option.map_some, if_pos hit]
  · rw [hnone]
    refine ⟨_, List.getElem?_concat_length, rfl, hs.labels _⟩

/-- An edge of the store that is not touched stays as it is. -/
theorem step_untouched (h : ¬ u.Touches label edges i) : (step label edges u)[i]? = edges[i]? := by
  unfold step
  split
  · rw [List.getElem?_map]
    cases he : edges[i]? with
    | none => rfl
    | some e =>
      have hit : ¬ u.hits label e = true := fun hit => h (.inl ⟨e, he, hit⟩)
      rw [Option.map_some, if_neg hit]
  · next hnone =>
    have hne : i ≠ edges.length := fun hi => h (.inr ⟨by simpa using hnone, hi⟩)
    rcases Nat.lt_or_gt_of_ne hne with hlt | hgt
    · exact List.getElem?_append_left hlt
    · rw [List.getElem?_eq_none (by simp; omega), List.getElem?_eq_none (by omega)]

theorem length_le_step (label : ρ → Option κ) (edges : List (Edge ε ρ)) (u : Upsert ε κ ρ) :
    edges.length ≤ (step label edges u).length := by
  unfold step
  split
  · exact Nat.le_of_eq (List.length_map _).symm
  · rw [List.length_append]
    omega

theorem length_le_run (label : ρ → Option κ) (edges : List (Edge ε ρ)) (us : List (Upsert ε κ ρ)) :
    edges.length ≤ (run label edges us).length := by
  induction us generalizing edges with
  | nil => exact Nat.le_refl _
  | cons u us ih => exact Nat.le_trans (length_le_step label edges u) (ih _)

/-! ## Which edges a run touches -/

variable {us : List (Upsert ε κ ρ)}

theorem run_append (edges : List (Edge ε ρ)) (us us' : List (Upsert ε κ ρ)) :
    run label edges (us ++ us') = run label (run label edges us) us' := List.foldl_append

theorem run_take_succ {t : Nat} (h : us[t]? = some u) :
    run label edges (us.take (t + 1)) = step label (run label edges (us.take t)) u := by
  rw [List.take_add_one, h, run_append]
  rfl

/-- An edge that no upsert of the run touches from `s` on stays as it is. -/
theorem run_untouched (edges : List (Edge ε ρ)) (us : List (Upsert ε κ ρ)) (i s n : Nat)
    (h : ∀ t v, s ≤ t → t < s + n → us[t]? = some v →
      ¬ v.Touches label (run label edges (us.take t)) i) :
    (run label edges (us.take (s + n)))[i]? = (run label edges (us.take s))[i]? := by
  induction n with
  | zero => rfl
  | succ n ih =>
    have hn := ih fun t v hs ht => h t v hs (by omega)
    rw [← hn, ← Nat.add_assoc]
    cases hv : us[s + n]? with
    | none =>
      have hl : us.length ≤ s + n := List.getElem?_eq_none_iff.mp hv
      rw [List.take_of_length_le hl, List.take_of_length_le (by omega)]
    | some v =>
      rw [run_take_succ hv]
      exact step_untouched (h _ v (by omega) (by omega) hv)

/-- Without clashes the first upsert that touches an edge is the only one. -/
theorem untouched_after (hl : Lawful label stored us) (hc : NoClash stored us) {s : Nat}
    (hu : us[s]? = some u) (hi : u.Touches label (run label edges (us.take s)) i) (n : Nat) :
    ∀ v, us[s + 1 + n]? = some v → ¬ v.Touches label (run label edges (us.take (s + 1 + n))) i := by
  induction n using Nat.strongRecOn with
  | _ n ih =>
    intro v hv htouch
    have hsame := run_untouched edges us i (s + 1) n
      fun t w hs ht hw => by
        obtain ⟨k, rfl⟩ := Nat.exists_eq_add_of_le hs
        exact ih k (by omega) w hw
    obtain ⟨e, he, hends, hlabel⟩ := step_touched (hl u (List.mem_of_getElem? hu)) hi
    rw [run_take_succ hu, he] at hsame
    have hclash : ¬ (u.ends = v.ends ∧ stored u = v.key) := by
      obtain ⟨hlt, rfl⟩ := List.getElem?_eq_some_iff.mp hu
      obtain ⟨hlt', rfl⟩ := List.getElem?_eq_some_iff.mp hv
      exact List.pairwise_iff_getElem.mp hc _ _ hlt hlt' (by omega)
    rcases htouch with ⟨e', he', hit⟩ | ⟨-, rfl⟩
    · rw [hsame] at he'
      cases he'
      obtain ⟨hends', hlabel'⟩ := hits_iff.mp hit
      rw [hlabel] at hlabel'
      exact hclash ⟨hends.symm.trans hends', Option.some.inj hlabel'⟩
    · rw [List.getElem?_eq_none (Nat.le_refl _)] at hsame
      cases hsame

theorem disjoint_of_noClash (hl : Lawful label stored us) (hc : NoClash stored us)
    (edges : List (Edge ε ρ)) : Disjoint label edges us := by
  intro s t u v hst hu hv i hi
  obtain ⟨n, rfl⟩ := Nat.exists_eq_add_of_le (Nat.succ_le_of_lt hst)
  exact untouched_after hl hc hu hi n v hv

theorem noClash_of_disjoint (hl : Lawful label stored us) (hd : Disjoint label edges us) :
    NoClash stored us := by
  refine List.pairwise_iff_getElem.mpr ?_
  rintro s t hs ht hst ⟨hends, hkey⟩
  have hu := List.getElem?_eq_getElem hs
  have hv := List.getElem?_eq_getElem ht
  obtain ⟨i, hi⟩ := exists_touched label us[s] (run label edges (us.take s))
  -- the edge still carries what `s` stored when `t` looks for it
  obtain ⟨n, rfl⟩ := Nat.exists_eq_add_of_le (Nat.succ_le_of_lt hst)
  have hsame := run_untouched edges us i (s + 1) n
    fun r w hr hlt hw => hd s r _ w (by omega) hu hw i hi
  obtain ⟨e, he, he', hlabel⟩ := step_touched (hl _ (List.getElem_mem hs)) hi
  rw [run_take_succ hu, he] at hsame
  refine hd s _ _ _ hst hu hv i hi (.inl ⟨e, hsame, hits_iff.mpr ⟨he'.trans hends, ?_⟩⟩)
  rw [hlabel, hkey]

/-! ## Running a list again -/

/-- Every edge that the upsert hits is as the upsert leaves it, and there is one. -/
structure Settled (label : ρ → Option κ) (u : Upsert ε κ ρ) (edges : List (Edge ε ρ)) : Prop where
  found : ∃ e ∈ edges, u.hits label e = true
  still : ∀ e ∈ edges, u.hits label e = true → u.put e = e

theorem step_of_settled (h : Settled label u edges) : step label edges u = edges := by
  unfold step
  rw [if_pos (List.any_eq_true.mpr h.found)]
  conv_rhs => rw [← List.map_id edges]
  refine List.map_congr_left fun e he => ?_
  by_cases hit : u.hits label e = true
  · rw [if_pos hit]
    exact h.still e he hit
  · rw [if_neg hit]
    rfl

theorem mem_step {e : Edge ε ρ} (h : e ∈ step label edges u) :
    (∃ p, e = u.put p ∧ p.ends = u.ends) ∨ (e ∈ edges ∧ u.hits label e = false) := by
  unfold step at h
  split at h
  · obtain ⟨p, hp, rfl⟩ := List.mem_map.mp h
    by_cases hit : u.hits label p = true
    · rw [if_pos hit]
      exact .inl ⟨p, rfl, (hits_iff.mp hit).1⟩
    · rw [if_neg hit]
      exact .inr ⟨hp, by simpa using hit⟩
  · next hnone =>
    rcases List.mem_append.mp h with he | he
    · refine .inr ⟨he, ?_⟩
      by_contra hit
      exact hnone (List.any_eq_true.mpr ⟨e, he, by simpa using hit⟩)
    · rw [List.mem_singleton.mp he]
      exact .inl ⟨_, rfl, rfl⟩

omit [DecidableEq ε] [DecidableEq κ] in
theorem put_put {s : κ} (hs : Stores label u s) (e : Edge ε ρ) : u.put (u.put e) = u.put e := by
  unfold Upsert.put
  rw [hs.again]

theorem settled_step (hs : Stores label u u.key) (edges : List (Edge ε ρ)) :
    Settled label u (step label edges u) := by
  refine ⟨?_, fun e he hit => ?_⟩
  · obtain ⟨i, hi⟩ := exists_touched label u edges
    obtain ⟨e, he, hends, hlabel⟩ := step_touched hs hi
    exact ⟨e, List.mem_of_getElem? he, hits_iff.mpr ⟨hends, hlabel⟩⟩
  · rcases mem_step he with ⟨p, rfl, -⟩ | ⟨-, hmiss⟩
    · exact put_put hs p
    · rw [hmiss] at hit
      cases hit

/-- Another upsert, that neither looks for nor stores the key, leaves them settled. -/
theorem Settled.step (h : Settled label u edges) {s : κ} (hv : Stores label v s)
    (hkey : v.key ≠ u.key) (hstored : s ≠ u.key) :
    Settled label u (step label edges v) := by
  have hput : ∀ e, u.hits label (v.put e) = false := by
    intro e
    by_contra hit
    have hlabel := (hits_iff.mp (by simpa using hit)).2
    have hs : label (v.put e).props = some s := hv.labels e.props
    rw [hs] at hlabel
    exact hstored (Option.some.inj hlabel)
  refine ⟨?_, fun e he hit => ?_⟩
  · obtain ⟨e, he, hit⟩ := h.found
    obtain ⟨i, hi⟩ := List.getElem?_of_mem he
    have hmiss : ¬ v.Touches label edges i := by
      rintro (⟨e', he', hit'⟩ | ⟨-, rfl⟩)
      · rw [hi] at he'
        cases he'
        have hu := (hits_iff.mp hit).2
        rw [(hits_iff.mp hit').2] at hu
        exact hkey (Option.some.inj hu)
      · rw [List.getElem?_eq_none (Nat.le_refl _)] at hi
        cases hi
    exact ⟨e, List.mem_of_getElem? ((step_untouched hmiss).trans hi), hit⟩
  · rcases mem_step he with ⟨p, rfl, -⟩ | ⟨hmem, -⟩
    · rw [hput p] at hit
      cases hit
    · exact h.still e hmem hit

theorem Settled.run (h : Settled label u edges) (hl : Lawful label stored us)
    (hus : ∀ v ∈ us, v.key ≠ u.key ∧ stored v ≠ u.key) : Settled label u (run label edges us) := by
  induction us generalizing edges with
  | nil => exact h
  | cons v us ih =>
    have hv := hus v List.mem_cons_self
    refine ih (h.step (hl v List.mem_cons_self) hv.1 hv.2) ?_ ?_
    · exact fun w hw => hl w (List.mem_cons_of_mem _ hw)
    · exact fun w hw => hus w (List.mem_cons_of_mem _ hw)

theorem settled_run (hl : Lawful label stored us) (hkeys : ∀ u ∈ us, stored u = u.key)
    (hd : (us.map stored).Nodup) (edges : List (Edge ε ρ)) :
    ∀ u ∈ us, Settled label u (run label edges us) := by
  induction us generalizing edges with
  | nil => simp
  | cons v us ih =>
    obtain ⟨hv, hd⟩ := List.nodup_cons.mp hd
    have hl' : Lawful label stored us := fun w hw => hl w (List.mem_cons_of_mem _ hw)
    have hkeys' : ∀ w ∈ us, stored w = w.key := fun w hw => hkeys w (List.mem_cons_of_mem _ hw)
    have hrest := ih hl' hkeys' hd (step label edges v)
    intro u hu
    rcases List.mem_cons.mp hu with rfl | hu
    · have hkey := hkeys u List.mem_cons_self
      have hs := hl u List.mem_cons_self
      rw [hkey] at hs
      refine (settled_step hs edges).run hl' fun w hw => ?_
      have hne : stored w ≠ u.key := by
        rw [← hkey]
        exact fun he => hv (he ▸ List.mem_map_of_mem hw)
      exact ⟨by rwa [← hkeys' w hw], hne⟩
    · exact hrest u hu

theorem run_of_settled (h : ∀ u ∈ us, Settled label u edges) : run label edges us = edges := by
  induction us with
  | nil => rfl
  | cons u us ih =>
    show run label (step label edges u) us = edges
    rw [step_of_settled (h u List.mem_cons_self)]
    exact ih fun v hv => h v (List.mem_cons_of_mem _ hv)

theorem run_touched (hl : Lawful label stored us) (hc : NoClash stored us) {t : Nat}
    (hu : us[t]? = some u) (hi : u.Touches label (run label edges (us.take t)) i) :
    ∃ e, (run label edges us)[i]? = some e ∧ label e.props = some (stored u) := by
  obtain ⟨e, he, -, hlabel⟩ := step_touched (hl u (List.mem_of_getElem? hu)) hi
  obtain ⟨n, hn⟩ := Nat.exists_eq_add_of_le
    (Nat.succ_le_of_lt (List.getElem?_eq_some_iff.mp hu).1)
  have hsame : (run label edges (us.take (t + 1 + n)))[i]? =
      (run label edges (us.take (t + 1)))[i]? := by
    refine run_untouched edges us i (t + 1) n fun r w hr hlt hw => ?_
    obtain ⟨k, rfl⟩ := Nat.exists_eq_add_of_le hr
    exact untouched_after hl hc hu hi k w hw
  rw [run_take_succ hu, he, ← hn, List.take_length] at hsame
  exact ⟨e, hsame, hlabel⟩

theorem stored_of_replay (hl : Lawful label stored us) (hc : NoClash stored us)
    (hrun : run label edges us = edges) : ∀ u ∈ us, stored u = u.key := by
  intro u hu
  obtain ⟨t, ht⟩ := List.getElem?_of_mem hu
  obtain ⟨i, hi⟩ := exists_touched label u (run label edges (us.take t))
  obtain ⟨e, he, hlabel⟩ := run_touched hl hc ht hi
  rw [hrun] at he
  have hbefore : (run label edges (us.take (0 + t)))[i]? = (run label edges (us.take 0))[i]? := by
    refine run_untouched edges us i 0 t fun r w _ hlt hw htouch => ?_
    exact disjoint_of_noClash hl hc edges r t w u (by omega) hw ht i htouch hi
  rw [Nat.zero_add] at hbefore
  rcases hi with ⟨e', he', hit⟩ | ⟨-, rfl⟩
  · rw [hbefore] at he'
    cases he.symm.trans he'
    have hkey := (hits_iff.mp hit).2
    rw [hlabel] at hkey
    exact Option.some.inj hkey
  · -- the edge was in the store, so it was not created
    have hlt := (List.getElem?_eq_some_iff.mp he).1
    have hle := length_le_run label edges (us.take t)
    omega

/-- **Replay**: with distinct stored labels, a list of upserts has distinct effects that a second
run leaves alone exactly when each upsert stores the label it looks for. -/
theorem replay_iff (hl : Lawful label stored us) (hd : (us.map stored).Nodup)
    (edges : List (Edge ε ρ)) :
    (run label (run label edges us) us = run label edges us ∧ Disjoint label edges us) ↔
      ∀ u ∈ us, stored u = u.key := by
  constructor
  · rintro ⟨hrun, hdis⟩
    exact stored_of_replay hl (noClash_of_disjoint hl hdis) hrun
  · intro hkeys
    refine ⟨run_of_settled (settled_run hl hkeys hd edges), disjoint_of_noClash hl ?_ edges⟩
    have hp : us.Pairwise fun u v => stored u ≠ stored v := List.pairwise_map.mp hd
    refine List.Pairwise.imp_of_mem ?_ hp
    rintro u v - hv hne ⟨-, he⟩
    exact hne (he.trans (hkeys v hv).symm)

end CortexHarness.Upserts
