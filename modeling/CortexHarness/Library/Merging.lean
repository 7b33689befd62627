import CortexHarness.Library.Firsts

/-!
# Merges in which the first wins

Rows have an identity and a group. Only the first row of an identity is kept; the first kept row of
a group gives the group its parts, and the strong rows of a group elect a result when they agree on
their key: that of the first of them. `OrderFree` says when nothing of this depends on the order of
the rows.

Results:
* `OrderFree.same`: under `OrderFree`, every order gives the same groups, the same identities in each
  and the same results;
* `orderFree_of_same`: and only then.
-/

namespace CortexHarness.Merging

open Table

variable {ω ι γ π κ τ : Type}

/-- What a merge reads of a row. -/
structure Reading (ω ι γ π κ τ : Type) where
  ident : ω → ι
  group : ω → γ
  parts : ω → π
  strong : ω → Bool
  key : ω → κ
  /-- the result of a row in a group with the given parts -/
  result : π → ω → τ

section Condition

variable (R : Reading ω ι γ π κ τ) (rows : List ω)

/-- Some order elects `o` in its group: every identity there has a row that is weak or agrees
with `o`. -/
def Possible (o : ω) : Prop :=
  ∀ x ∈ rows, R.group x = R.group o → R.strong x = true →
    ∃ y ∈ rows, R.ident y = R.ident x ∧ (R.strong y = true → R.key y = R.key o)

/-- Every order elects the result `t` in the group of `o`. -/
def Certain (o : ω) (t : τ) : Prop :=
  (∀ x ∈ rows, R.ident x = R.ident o → R.strong x = true) ∧
    ∀ x ∈ rows, R.group x = R.group o → R.strong x = true →
      R.result (R.parts x) x = t ∧
        ∀ y ∈ rows, R.group y = R.group o → R.strong y = true → R.ident x ≠ R.ident y →
          R.key x = R.key y

/-- The order of the rows does not matter: an identity is in one group, a group has one value of the
parts, and a result that some order elects is elected by every order, in this group or another. -/
structure OrderFree : Prop where
  groups : ∀ o ∈ rows, ∀ o' ∈ rows, R.ident o = R.ident o' → R.group o = R.group o'
  parts : ∀ o ∈ rows, ∀ o' ∈ rows, R.group o = R.group o' → R.parts o = R.parts o'
  results : ∀ o ∈ rows, R.strong o = true → Possible R rows o →
    ∃ x ∈ rows, R.strong x = true ∧ Certain R rows x (R.result (R.parts o) o)

variable {R rows}

theorem OrderFree.perm (h : OrderFree R rows) {rows' : List ω} (hp : rows.Perm rows') : OrderFree R rows' := by
  have hmem : ∀ o, o ∈ rows' ↔ o ∈ rows := fun o => hp.mem_iff.symm
  refine ⟨?_, ?_, ?_⟩
  · intro o ho o' ho'
    exact h.groups o ((hmem o).mp ho) o' ((hmem o').mp ho')
  · intro o ho o' ho'
    exact h.parts o ((hmem o).mp ho) o' ((hmem o').mp ho')
  · intro o ho hs hpos
    simp only [Possible, Certain, hmem] at hpos ⊢
    exact h.results o ((hmem o).mp ho) hs hpos

theorem exists_front {o : ω} (h : o ∈ rows) : ∃ l, rows.Perm (o :: l) := by
  obtain ⟨pre, post, rfl⟩ := List.append_of_mem h
  exact ⟨pre ++ post, List.perm_middle⟩

end Condition

section Kept

variable [DecidableEq ι] (R : Reading ω ι γ π κ τ) (rows : List ω)

/-- The rows that are kept. -/
def kept : List ω := firsts R.ident rows

variable {R rows}

theorem mem_of_kept {o : ω} (h : o ∈ kept R rows) : o ∈ rows := mem_of_mem_firsts h

theorem exists_kept {o : ω} (h : o ∈ rows) : ∃ x ∈ kept R rows, R.ident x = R.ident o :=
  exists_firsts h

theorem kept_unique {x y : ω} (hx : x ∈ kept R rows) (hy : y ∈ kept R rows)
    (he : R.ident x = R.ident y) : x = y := eq_of_keyed (keyed_firsts rows) hx hy he

theorem OrderFree.kept_group (h : OrderFree R rows) {o : ω} (ho : o ∈ rows) :
    ∃ x ∈ kept R rows, R.ident x = R.ident o ∧ R.group x = R.group o := by
  obtain ⟨x, hx, he⟩ : ∃ x ∈ kept R rows, R.ident x = R.ident o := exists_kept ho
  exact ⟨x, hx, he, h.groups x (mem_of_kept hx) o ho he⟩

theorem OrderFree.members_sub (h : OrderFree R rows) {rows' : List ω} (hp : rows.Perm rows') {g : γ} {e : ι}
    (ho : ∃ o ∈ kept R rows, R.group o = g ∧ R.ident o = e) :
    ∃ o ∈ kept R rows', R.group o = g ∧ R.ident o = e := by
  obtain ⟨o, hk, rfl, rfl⟩ := ho
  obtain ⟨x, hx, he, hg⟩ := (h.perm hp).kept_group (hp.subset (mem_of_kept hk))
  exact ⟨x, hx, hg, he⟩

variable (R) in
theorem kept_cons (o : ω) (l : List ω) : ∃ t, kept R (o :: l) = o :: t := by
  obtain ⟨t, ht⟩ := firsts_extends R.ident [o] l
  exact ⟨t, ht.symm⟩

/-- A row kept whose identity occurs in the first part of the rows is in that part. -/
theorem kept_front {front back : List ω} {x y : ω} (hx : x ∈ kept R (front ++ back))
    (hy : y ∈ front) (he : R.ident y = R.ident x) : x ∈ kept R front := by
  obtain ⟨added, hadded, -, hnew⟩ := firsts_append R.ident front back
  unfold kept at hx
  rw [hadded] at hx
  rcases List.mem_append.mp hx with hx | hx
  · exact hx
  · exact absurd he (hnew x hx y hy)

end Kept

variable [DecidableEq ι] [DecidableEq γ] (R : Reading ω ι γ π κ τ) (rows : List ω)

/-- The first row of a group. -/
def head (g : γ) : Option ω := (kept R rows).find? fun o => decide (R.group o = g)

/-- The first strong row of a group. -/
def champion (g : γ) : Option ω := (kept R rows).find? fun o => R.strong o && decide (R.group o = g)

/-- The strong rows of the group agree, and the first of them has the result `t`. -/
def Elected (g : γ) (t : τ) : Prop :=
  ∃ h o, head R rows g = some h ∧ champion R rows g = some o ∧
    (∀ x ∈ kept R rows, R.strong x = true → R.group x = g →
      ∀ y ∈ kept R rows, R.strong y = true → R.group y = g → R.key x = R.key y) ∧
    t = R.result (R.parts h) o

/-- Two orders give the same groups, the same identities in each, and the same results. -/
structure Same (rows rows' : List ω) : Prop where
  groups : ∀ g p, (head R rows g).map R.parts = some p ↔ (head R rows' g).map R.parts = some p
  members : ∀ g e, (∃ o ∈ kept R rows, R.group o = g ∧ R.ident o = e) ↔
    ∃ o ∈ kept R rows', R.group o = g ∧ R.ident o = e
  results : ∀ t, (∃ g, Elected R rows g t) ↔ ∃ g, Elected R rows' g t

variable {R rows} {rows' : List ω}

theorem head_mem {g : γ} {h : ω} (hh : head R rows g = some h) :
    h ∈ kept R rows ∧ R.group h = g :=
  ⟨List.mem_of_find?_eq_some hh, by simpa using List.find?_some hh⟩

theorem champion_mem {g : γ} {o : ω} (ho : champion R rows g = some o) :
    o ∈ kept R rows ∧ R.strong o = true ∧ R.group o = g := by
  refine ⟨List.mem_of_find?_eq_some ho, ?_⟩
  simpa using List.find?_some ho

theorem exists_head {o : ω} (h : o ∈ kept R rows) : ∃ x, head R rows (R.group o) = some x := by
  cases hh : head R rows (R.group o) with
  | some x => exact ⟨x, rfl⟩
  | none =>
    have := List.find?_eq_none.mp hh o h
    simp at this

theorem exists_champion {o : ω} (h : o ∈ kept R rows) (hs : R.strong o = true) :
    ∃ x, champion R rows (R.group o) = some x := by
  cases hc : champion R rows (R.group o) with
  | some x => exact ⟨x, rfl⟩
  | none =>
    have := List.find?_eq_none.mp hc o h
    simp [hs] at this

/-! ## The condition suffices -/

theorem OrderFree.groups_sub (h : OrderFree R rows) (hp : rows.Perm rows') {g : γ} {p : π}
    (hh : (head R rows g).map R.parts = some p) : (head R rows' g).map R.parts = some p := by
  obtain ⟨o, ho, rfl⟩ := Option.map_eq_some_iff.mp hh
  obtain ⟨hk, rfl⟩ := head_mem ho
  have hmem := hp.subset (mem_of_kept hk)
  obtain ⟨x, hx, -, hg⟩ := (h.perm hp).kept_group hmem
  obtain ⟨y, hy⟩ := exists_head hx
  rw [hg] at hy
  rw [hy, Option.map_some, Option.some_inj]
  obtain ⟨hyk, hyg⟩ := head_mem hy
  exact (h.perm hp).parts y (mem_of_kept hyk) o hmem hyg

theorem OrderFree.possible_of_elected (h : OrderFree R rows) {g : γ} {t : τ}
    (ht : Elected R rows g t) :
    ∃ o ∈ rows, R.strong o = true ∧ Possible R rows o ∧ t = R.result (R.parts o) o := by
  obtain ⟨hd, o, hh, hc, hkeys, rfl⟩ := ht
  obtain ⟨hhk, hhg⟩ := head_mem hh
  obtain ⟨hok, hos, hog⟩ := champion_mem hc
  refine ⟨o, mem_of_kept hok, hos, ?_, ?_⟩
  · intro x hx hg hs
    obtain ⟨y, hy, hye, hyg⟩ := h.kept_group hx
    refine ⟨y, mem_of_kept hy, hye, fun hys => ?_⟩
    exact hkeys y hy hys (hyg.trans (hg.trans hog)) o hok hos hog
  · rw [h.parts hd (mem_of_kept hhk) o (mem_of_kept hok) (hhg.trans hog.symm)]

theorem OrderFree.elected_of_certain (h : OrderFree R rows) {o : ω} (ho : o ∈ rows) {t : τ}
    (hc : Certain R rows o t) : Elected R rows (R.group o) t := by
  obtain ⟨hstrong, hall⟩ := hc
  obtain ⟨x, hx, hxe, hxg⟩ := h.kept_group ho
  have hxs := hstrong x (mem_of_kept hx) hxe
  obtain ⟨hd, hh⟩ := exists_head hx
  obtain ⟨c, hch⟩ := exists_champion hx hxs
  rw [hxg] at hh hch
  obtain ⟨hck, hcs, hcg⟩ := champion_mem hch
  obtain ⟨hhk, hhg⟩ := head_mem hh
  refine ⟨hd, c, hh, hch, ?_, ?_⟩
  · intro a ha hsa hga b hb hsb hgb
    by_cases he : R.ident a = R.ident b
    · rw [kept_unique ha hb he]
    · exact (hall a (mem_of_kept ha) hga hsa).2 b (mem_of_kept hb) hgb hsb he
  · rw [h.parts hd (mem_of_kept hhk) c (mem_of_kept hck) (hhg.trans hcg.symm)]
    exact (hall c (mem_of_kept hck) hcg hcs).1.symm

theorem OrderFree.results_sub (h : OrderFree R rows) (hp : rows.Perm rows') {t : τ}
    (ht : ∃ g, Elected R rows g t) : ∃ g, Elected R rows' g t := by
  obtain ⟨g, ht⟩ := ht
  obtain ⟨o, ho, hs, hpos, rfl⟩ := h.possible_of_elected ht
  obtain ⟨x, hx, -, hc⟩ := h.results o ho hs hpos
  have hmem : ∀ o, o ∈ rows ↔ o ∈ rows' := fun o => hp.mem_iff
  refine ⟨R.group x, (h.perm hp).elected_of_certain (hp.subset hx) ?_⟩
  simp only [Certain, hmem] at hc
  exact hc

/-- **The order of the rows does not matter** under `OrderFree`. -/
theorem OrderFree.same (h : OrderFree R rows) (hp : rows.Perm rows') : Same R rows rows' :=
  have h' := h.perm hp
  { groups := fun _ _ => ⟨h.groups_sub hp, h'.groups_sub hp.symm⟩
    members := fun _ _ => ⟨h.members_sub hp, h'.members_sub hp.symm⟩
    results := fun _ => ⟨h.results_sub hp, h'.results_sub hp.symm⟩ }

/-! ## The condition is necessary -/

theorem head_cons (o : ω) (l : List ω) : head R (o :: l) (R.group o) = some o := by
  obtain ⟨t, ht⟩ := kept_cons R o l
  unfold head
  rw [ht]
  simp

theorem champion_cons {o : ω} (hs : R.strong o = true) (l : List ω) :
    champion R (o :: l) (R.group o) = some o := by
  obtain ⟨t, ht⟩ := kept_cons R o l
  unfold champion
  rw [ht]
  simp [hs]

theorem groups_of_same (h : ∀ rows', rows.Perm rows' → Same R rows rows') :
    ∀ o ∈ rows, ∀ o' ∈ rows, R.ident o = R.ident o' → R.group o = R.group o' := by
  intro o ho o' ho' he
  obtain ⟨l, hl⟩ := exists_front ho
  obtain ⟨l', hl'⟩ := exists_front ho'
  obtain ⟨t, ht⟩ := kept_cons R o l
  obtain ⟨t', ht'⟩ := kept_cons R o' l'
  have hmem := ((h _ hl).members (R.group o) (R.ident o)).mpr ⟨o, by simp [ht], rfl, rfl⟩
  obtain ⟨x, hx, hg, hi⟩ := ((h _ hl').members (R.group o) (R.ident o)).mp hmem
  obtain rfl : x = o' := kept_unique hx (by simp [ht']) (hi.trans he)
  exact hg.symm

theorem parts_of_same (h : ∀ rows', rows.Perm rows' → Same R rows rows') :
    ∀ o ∈ rows, ∀ o' ∈ rows, R.group o = R.group o' → R.parts o = R.parts o' := by
  intro o ho o' ho' he
  obtain ⟨l, hl⟩ := exists_front ho
  obtain ⟨l', hl'⟩ := exists_front ho'
  have hhead := ((h _ hl).groups (R.group o) (R.parts o)).mpr (by rw [head_cons]; rfl)
  have hhead' := ((h _ hl').groups (R.group o) (R.parts o)).mp hhead
  rw [he, head_cons] at hhead'
  exact (Option.some.inj hhead').symm

theorem elected_of_possible {o : ω} (ho : o ∈ rows) (hs : R.strong o = true)
    (hpos : Possible R rows o) :
    ∃ rows', rows.Perm rows' ∧ Elected R rows' (R.group o) (R.result (R.parts o) o) := by
  classical
  obtain ⟨l, hl⟩ := exists_front ho
  let agrees : ω → Bool := fun x => decide (R.strong x = true → R.key x = R.key o)
  let front := o :: l.filter agrees
  let back := l.filter fun x => !agrees x
  have hperm : rows.Perm (front ++ back) :=
    hl.trans ((List.filter_append_perm agrees l).symm.cons o)
  have hfront : ∀ x ∈ front, R.strong x = true → R.key x = R.key o := by
    intro x hx
    rcases List.mem_cons.mp hx with rfl | hx
    · exact fun _ => rfl
    · exact of_decide_eq_true (List.mem_filter.mp hx).2
  have hkeys : ∀ x ∈ kept R (front ++ back), R.strong x = true → R.group x = R.group o →
      R.key x = R.key o := by
    intro x hx hsx hgx
    obtain ⟨y, hy, hye, hyk⟩ := hpos x (hperm.mem_iff.mpr (mem_of_kept hx)) hgx hsx
    have hyf : y ∈ front := by
      rcases List.mem_cons.mp (hl.subset hy) with rfl | hyl
      · exact List.mem_cons_self
      · exact List.mem_cons_of_mem _ (List.mem_filter.mpr ⟨hyl, decide_eq_true hyk⟩)
    exact hfront x (mem_of_kept (kept_front hx hyf hye)) hsx
  refine ⟨front ++ back, hperm, o, o, head_cons o _, champion_cons hs _, ?_, rfl⟩
  intro x hx hsx hgx y hy hsy hgy
  rw [hkeys x hx hsx hgx, hkeys y hy hsy hgy]

/-- The rows of a group that keep it from electing `t` when they come first. -/
def Spoils (R : Reading ω ι γ π κ τ) (rows : List ω) (t : τ) (g : γ) (Q : ω → Prop) : Prop :=
  (∃ a ∈ rows, R.group a = g ∧ R.strong a = true ∧ R.result (R.parts a) a ≠ t ∧ Q = fun x => x = a) ∨
    (∃ a ∈ rows, ∃ b ∈ rows, R.group a = g ∧ R.strong a = true ∧ R.group b = g ∧
      R.strong b = true ∧ R.ident a ≠ R.ident b ∧ R.key a ≠ R.key b ∧ Q = fun x => x = a ∨ x = b) ∨
    (∀ x ∈ rows, R.group x = g → R.strong x = true →
      ∃ y ∈ rows, R.ident y = R.ident x ∧ ¬ R.strong y = true) ∧ Q = fun x => ¬ R.strong x = true

theorem exists_spoils {t : τ} (h : ∀ x ∈ rows, R.strong x = true → ¬ Certain R rows x t) (g : γ) :
    ∃ Q, Spoils R rows t g Q := by
  by_cases hA : ∃ a ∈ rows, R.group a = g ∧ R.strong a = true ∧ R.result (R.parts a) a ≠ t
  · obtain ⟨a, ha, hg, hs, hne⟩ := hA
    exact ⟨_, .inl ⟨a, ha, hg, hs, hne, rfl⟩⟩
  by_cases hB : ∃ a ∈ rows, ∃ b ∈ rows, R.group a = g ∧ R.strong a = true ∧ R.group b = g ∧
      R.strong b = true ∧ R.ident a ≠ R.ident b ∧ R.key a ≠ R.key b
  · obtain ⟨a, ha, b, hb, hrest⟩ := hB
    obtain ⟨h1, h2, h3, h4, h5, h6⟩ := hrest
    exact ⟨_, .inr (.inl ⟨a, ha, b, hb, h1, h2, h3, h4, h5, h6, rfl⟩)⟩
  refine ⟨_, .inr (.inr ⟨fun x hx hg hs => ?_, rfl⟩)⟩
  by_contra hno
  refine h x hx hs ⟨fun y hy he => by_contra fun hw => hno ⟨y, hy, he, hw⟩, ?_⟩
  intro y hy hyg hys
  refine ⟨by_contra fun hne => hA ⟨y, hy, hyg.trans hg, hys, hne⟩, ?_⟩
  intro z hz hzg hzs hne
  exact by_contra fun hk => hB ⟨y, hy, z, hz, hyg.trans hg, hys, hzg.trans hg, hzs, hne, hk⟩

/-- The order that puts the spoiling rows of every group first elects `t` nowhere. -/
theorem exists_unelected {t : τ} (h : ∀ x ∈ rows, R.strong x = true → ¬ Certain R rows x t)
    (hgroups : ∀ o ∈ rows, ∀ o' ∈ rows, R.ident o = R.ident o' → R.group o = R.group o')
    (hparts : ∀ o ∈ rows, ∀ o' ∈ rows, R.group o = R.group o' → R.parts o = R.parts o') :
    ∃ rows', rows.Perm rows' ∧ ¬ ∃ g, Elected R rows' g t := by
  classical
  choose Q hQ using exists_spoils h
  let pick : ω → Bool := fun x => decide (Q (R.group x) x)
  have hperm : rows.Perm (rows.filter pick ++ rows.filter fun x => !pick x) :=
    (List.filter_append_perm pick rows).symm
  have hfront : ∀ {x}, x ∈ rows.filter pick ↔ x ∈ rows ∧ Q (R.group x) x := by
    intro x
    simp [pick]
  -- the row kept for an identity with a row in front is in front, and spoils the same group
  have hrep : ∀ {a}, a ∈ rows → Q (R.group a) a →
      ∃ y ∈ kept R (rows.filter pick), R.ident y = R.ident a ∧ R.group y = R.group a ∧
        Q (R.group a) y := by
    intro a ha hqa
    obtain ⟨y, hy, he⟩ : ∃ y ∈ kept R (rows.filter pick), R.ident y = R.ident a :=
      exists_kept (hfront.mpr ⟨ha, hqa⟩)
    obtain ⟨hyr, hqy⟩ := hfront.mp (mem_of_kept hy)
    have hg := hgroups y hyr a ha he
    exact ⟨y, hy, he, hg, hg ▸ hqy⟩
  have hpre : kept R (rows.filter pick) <+:
      kept R (rows.filter pick ++ rows.filter fun x => !pick x) := firsts_extends ..
  refine ⟨_, hperm, ?_⟩
  rintro ⟨g, hd, c, hh, hc, hkeys, ht⟩
  obtain ⟨hhk, hhg⟩ := head_mem hh
  obtain ⟨hck, hcs, rfl⟩ := champion_mem hc
  have hcr : c ∈ rows := hperm.mem_iff.mpr (mem_of_kept hck)
  rw [hparts hd (hperm.mem_iff.mpr (mem_of_kept hhk)) c hcr hhg] at ht
  rcases hQ (R.group c) with ⟨a, ha, hga, hsa, hne, hq⟩ |
    ⟨a, ha, b, hb, hga, hsa, hgb, hsb, hid, hkey, hq⟩ | ⟨hweak, hq⟩
  · -- the first strong row of the group is `a`
    obtain ⟨y, hy, -, hgy, hqy⟩ := hrep ha (by rw [hga, hq])
    rw [hga, hq] at hqy
    obtain rfl : y = a := hqy
    have hchamp : champion R (rows.filter pick) (R.group c) = some c := by
      obtain ⟨z, hz⟩ := exists_champion hy hsa
      rw [hga] at hz
      obtain ⟨tail, htail⟩ := hpre
      have hfirst := hc
      unfold champion at hfirst hz
      rw [← htail, List.find?_append, hz, Option.some_or] at hfirst
      rw [champion, hz]
      exact hfirst
    obtain ⟨hcf, -, -⟩ := champion_mem hchamp
    have hqc := (hfront.mp (mem_of_kept hcf)).2
    rw [hq] at hqc
    exact hne (by rw [← hqc]; exact ht.symm)
  · obtain ⟨y, hy, hye, -, hqy⟩ := hrep ha (by rw [hga, hq]; exact .inl rfl)
    obtain ⟨z, hz, hze, -, hqz⟩ := hrep hb (by rw [hgb, hq]; exact .inr rfl)
    rw [hga, hq] at hqy
    rw [hgb, hq] at hqz
    obtain rfl : y = a := hqy.resolve_right fun hyb => hid (by rw [← hye, hyb])
    obtain rfl : z = b := hqz.resolve_left fun hza => hid (by rw [← hze, hza])
    exact hkey (hkeys y (hpre.subset hy) hsa hga z (hpre.subset hz) hsb hgb)
  · obtain ⟨y, hy, hye, hyw⟩ := hweak c hcr rfl hcs
    have hgy := hgroups y hy c hcr hye
    have hcf := kept_front hck (hfront.mpr ⟨hy, by rw [hgy, hq]; exact hyw⟩) hye
    have hqc := (hfront.mp (mem_of_kept hcf)).2
    rw [hq] at hqc
    exact hqc hcs

/-- **Only under `OrderFree`** does the order of the rows not matter. -/
theorem orderFree_of_same (h : ∀ rows', rows.Perm rows' → Same R rows rows') :
    OrderFree R rows := by
  have hgroups := groups_of_same h
  have hparts := parts_of_same h
  refine ⟨hgroups, hparts, fun o ho hs hpos => ?_⟩
  by_contra hno
  obtain ⟨rows₁, hp₁, hel⟩ := elected_of_possible ho hs hpos
  obtain ⟨rows₂, hp₂, hun⟩ := exists_unelected (fun x hx hsx hc => hno ⟨x, hx, hsx, hc⟩) hgroups
    hparts
  exact hun (((h _ hp₂).results _).mp (((h _ hp₁).results _).mpr ⟨_, hel⟩))

end CortexHarness.Merging
