import CortexHarness.Library.Latest

/-!
# Names that the first row settles

Rows carry a name and a key. Asking a name gives the key of the first row of that name, or a
fallback of the name when no row has it (`ask`).

Results:
* `ask_perm`: a name whose rows agree in their key is answered the same in every order of the rows;
* **`asked_perm_iff`**: the answers to a list of questions are the same bag in every order of the
  rows exactly when the rows of every name asked agree in their key;
* `exists_perm_filterMap`: an order of what a partial function keeps comes from an order of the
  list.
-/

namespace CortexHarness.Table

variable {α ν κ : Type} [DecidableEq ν]

section Ask

variable (name : α → ν) (key : α → κ) (fallback : ν → κ)

/-- The key of the first row of a name. -/
def ask (rows : List α) (n : ν) : κ := (lookup name n rows).elim (fallback n) key

/-- The rows of the name have one key. -/
def Agree (rows : List α) (n : ν) : Prop :=
  ∀ r ∈ rows, ∀ r' ∈ rows, name r = n → name r' = n → key r = key r'

end Ask

variable {name : α → ν} {key : α → κ} {fallback : ν → κ} {rows rows' : List α} {n : ν}

omit [DecidableEq ν] in
theorem Agree.perm (h : Agree name key rows n) (hperm : rows'.Perm rows) :
    Agree name key rows' n :=
  fun r hr r' hr' => h r (hperm.mem_iff.mp hr) r' (hperm.mem_iff.mp hr')

theorem ask_of_mem (h : Agree name key rows n) {r : α} (hr : r ∈ rows) (hn : name r = n) :
    ask name key fallback rows n = key r := by
  unfold ask
  cases hl : lookup name n rows with
  | none => exact absurd hn (lookup_eq_none.mp hl r hr)
  | some r' => exact h r' (lookup_mem hl) r hr (lookup_key hl) hn

theorem ask_of_not_mem (h : ∀ r ∈ rows, name r ≠ n) :
    ask name key fallback rows n = fallback n := by
  rw [ask, lookup_eq_none.mpr h]
  rfl

theorem ask_cases (rows : List α) (n : ν) :
    (∃ r ∈ rows, name r = n ∧ ask name key fallback rows n = key r) ∨
      (∀ r ∈ rows, name r ≠ n) ∧ ask name key fallback rows n = fallback n := by
  cases hl : lookup name n rows with
  | none =>
    have hnone := lookup_eq_none.mp hl
    exact Or.inr ⟨hnone, ask_of_not_mem hnone⟩
  | some r =>
    refine Or.inl ⟨r, lookup_mem hl, lookup_key hl, ?_⟩
    rw [ask, hl]
    rfl

/-- **A name whose rows agree is answered the same in every order of the rows.** -/
theorem ask_perm (h : Agree name key rows n) (hperm : rows'.Perm rows) :
    ask name key fallback rows' n = ask name key fallback rows n := by
  rcases @ask_cases α ν κ _ name key fallback rows n with ⟨r, hr, hn, he⟩ | ⟨hnone, he⟩
  · rw [he, ask_of_mem (h.perm hperm) (hperm.mem_iff.mpr hr) hn]
  · rw [he, ask_of_not_mem fun r hr => hnone r (hperm.mem_iff.mp hr)]

theorem ask_cons (r : α) :
    ask name key fallback (r :: rows) n =
      if name r = n then key r else ask name key fallback rows n := by
  unfold ask lookup
  rw [List.find?_cons]
  by_cases h : name r = n <;> simp [h]

/-- **The answers are the same bag in every order of the rows exactly when the rows of every name
asked agree.** -/
theorem asked_perm_iff [DecidableEq κ] {asked : List ν} :
    (∀ rows', rows'.Perm rows →
        (asked.map (ask name key fallback rows')).Perm (asked.map (ask name key fallback rows))) ↔
      ∀ n ∈ asked, Agree name key rows n := by
  constructor
  · intro h n hn r hr r' hr' hrn hrn'
    by_contra hne
    -- the two rows that differ come first, in either order
    obtain ⟨rest, hrest⟩ : ∃ rest, (r :: r' :: rest).Perm rows := by
      obtain ⟨pre, post, rfl⟩ := List.append_of_mem hr
      have hmid : (r :: (pre ++ post)).Perm (pre ++ r :: post) := List.perm_middle.symm
      have hmem : r' ∈ pre ++ post := by
        rcases List.mem_cons.mp (hmid.mem_iff.mpr hr') with he | hmem
        · exact absurd (congrArg key he.symm) hne
        · exact hmem
      obtain ⟨pre', post', he⟩ := List.append_of_mem hmem
      rw [he] at hmid
      exact ⟨pre' ++ post', (List.Perm.cons r List.perm_middle.symm).trans hmid⟩
    have hrest' : (r' :: r :: rest).Perm rows := (List.Perm.swap r r' rest).trans hrest
    have hcount := ((h _ hrest').trans (h _ hrest).symm).countP_eq fun k => decide (k = key r)
    rw [List.countP_map, List.countP_map] at hcount
    have hall := all_of_countP_eq (t := asked) (p := (fun k => decide (k = key r)) ∘
      ask name key fallback (r :: r' :: rest)) (q := (fun k => decide (k = key r)) ∘
      ask name key fallback (r' :: r :: rest)) ?_ hcount.symm n hn ?_
    · rw [Function.comp_apply, ask_cons, if_pos hrn'] at hall
      exact hne (of_decide_eq_true hall).symm
    · intro m hm
      simp only [Function.comp_apply, ask_cons, hrn, hrn', decide_eq_true_eq] at hm ⊢
      by_cases hnm : n = m
      · rw [if_pos hnm]
      · rwa [if_neg hnm, if_neg hnm] at hm ⊢
    · rw [Function.comp_apply, ask_cons, if_pos hrn]
      exact decide_eq_true rfl
  · intro h rows' hperm
    have he : asked.map (ask name key fallback rows') = asked.map (ask name key fallback rows) :=
      List.map_congr_left fun n hn => ask_perm (h n hn) hperm
    rw [he]

/-- An order of what a partial function keeps comes from an order of the list. -/
theorem exists_perm_filterMap {β : Type} {f : α → Option β} {bs bs' : List β} (h : bs'.Perm bs) :
    ∀ as : List α, as.filterMap f = bs → ∃ as' : List α, as'.Perm as ∧ as'.filterMap f = bs' := by
  -- what keeps a first value is a list of dropped ones, the one of that value, and the rest
  have hcons : ∀ {as : List α} {b : β} {bs : List β}, as.filterMap f = b :: bs →
      ∃ a rest, (a :: rest).Perm as ∧ f a = some b ∧ rest.filterMap f = bs := by
    intro as b bs he
    obtain ⟨pre, a, post, rfl, hpre, ha, hpost⟩ := List.filterMap_eq_cons_iff.mp he
    refine ⟨a, pre ++ post, List.perm_middle.symm, ha, ?_⟩
    rw [List.filterMap_append, List.filterMap_eq_nil_iff.mpr hpre, hpost, List.nil_append]
  induction h with
  | nil => exact fun as he => ⟨as, List.Perm.refl as, he⟩
  | cons b _ ih =>
    intro as he
    obtain ⟨a, rest, hperm, ha, hrest⟩ := hcons he
    obtain ⟨rest', hperm', hrest'⟩ := ih rest hrest
    exact ⟨a :: rest', (hperm'.cons a).trans hperm, by rw [List.filterMap_cons_some ha, hrest']⟩
  | swap b b' bs =>
    intro as he
    obtain ⟨a, rest, hperm, ha, hrest⟩ := hcons he
    obtain ⟨a', rest', hperm', ha', hrest'⟩ := hcons hrest
    refine ⟨a' :: a :: rest', ?_, ?_⟩
    · exact (List.Perm.swap a a' rest').trans ((hperm'.cons a).trans hperm)
    · rw [List.filterMap_cons_some ha', List.filterMap_cons_some ha, hrest']
  | trans _ _ ih ih' =>
    intro as he
    obtain ⟨as', hperm, he'⟩ := ih' as he
    obtain ⟨as'', hperm', he''⟩ := ih as' he'
    exact ⟨as'', hperm'.trans hperm, he''⟩

end CortexHarness.Table
