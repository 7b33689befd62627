import CortexHarness.Library.Json
import CortexHarness.Library.Table

/-!
# Dicts of JSON values

A Python dict with text keys is its member list in insertion order.

* `field` is `row.get(key)`, with `None` for a missing key, and `either` is `a or b`;
* `put` is `row[key] = value` and `setDefault` is `row.setdefault(key, value)`;
* `dumpsAscii` is `json.dumps(value, ensure_ascii=True, separators=(",", ":"), sort_keys=True)`.

Results: `field_put` and `field_setDefault` say what an assignment does to every field; `Agrees`
collects assignments to some of the fields; `dumpsAscii_ne` tells two printed objects apart by their
first members.
-/

namespace CortexHarness

open Table

/-- A dict with text keys. -/
abbrev Row := List (String × Json)

namespace Json

/-- `row.get(key)`. -/
def field (row : Row) (key : String) : Json := (find? row key).getD .null

/-- `a or b`. -/
def either (a b : Json) : Json := if a.truthy then a else b

/-- `value is None`. -/
def isNull : Json → Bool
  | .null => true
  | _ => false

/-- `value == text`. -/
def isText (value : Json) (text : String) : Bool :=
  match value with
  | .str s => s == text
  | _ => false

/-- `row[key] = value`. -/
def put (row : Row) (key : String) (value : Json) : Row := assign Prod.fst (key, value) row

/-- `row.setdefault(key, value)`. -/
def setDefault (row : Row) (key : String) (value : Json) : Row :=
  if (find? row key).isSome then row else row ++ [(key, value)]

/-- The escape of one character under `ensure_ascii=True`: a pair of surrogates beyond the basic
plane. -/
def escapeAscii (c : Char) : List Char :=
  let hex (n : Nat) : List Char :=
    ['\\', 'u', hexDigit (n / 4096), hexDigit (n / 256 % 16), hexDigit (n / 16 % 16),
      hexDigit (n % 16)]
  if c.toNat < 127 then [c]
  else if c.toNat < 0x10000 then hex c.toNat
  else hex (0xd800 + (c.toNat - 0x10000) / 1024) ++ hex (0xdc00 + (c.toNat - 0x10000) % 1024)

/-- `json.dumps` with `ensure_ascii=True`. -/
def dumpsAscii (value : Json) : String :=
  String.ofList (value.dumps.toList.flatMap escapeAscii)

theorem find?_eq_lookup (row : Row) (key : String) :
    find? row key = (lookup Prod.fst key row).map Prod.snd := by
  unfold find? lookup
  congr 2

theorem find?_put (row : Row) (key : String) (value : Json) (k : String) :
    find? (put row key value) k = if k = key then some value else find? row k := by
  unfold put
  rw [find?_eq_lookup, find?_eq_lookup, lookup_assign]
  by_cases h : k = key
  · rw [if_pos h, if_pos h.symm]
    rfl
  · rw [if_neg h, if_neg fun he => h he.symm]

theorem find?_setDefault (row : Row) (key : String) (value : Json) (k : String) :
    find? (setDefault row key value) k =
      (find? row k).or (if k = key then some value else none) := by
  unfold setDefault
  cases hf : find? row key with
  | some v =>
    by_cases h : k = key
    · subst h
      simp [hf]
    · simp [h]
  | none =>
    simp only [Option.isSome_none, Bool.false_eq_true, if_false]
    rw [find?_eq_lookup, lookup_append, lookup_singleton, find?_eq_lookup]
    by_cases h : k = key
    · subst h
      cases lookup Prod.fst k row <;> simp
    · rw [if_neg fun he => h he.symm, if_neg h]
      cases lookup Prod.fst k row <;> rfl

theorem field_put (row : Row) (key : String) (value : Json) (k : String) :
    field (put row key value) k = if k = key then value else field row k := by
  unfold field
  rw [find?_put]
  split <;> rfl

theorem field_setDefault (row : Row) (key : String) (value : Json) (k : String) :
    field (setDefault row key value) k =
      if k = key ∧ find? row key = none then value else field row k := by
  unfold field
  rw [find?_setDefault]
  by_cases hk : k = key
  · subst hk
    cases find? row k <;> simp
  · simp [hk]

theorem find?_foldl_put (value : String → Json) (ks : List String) (row : Row) (k : String) :
    find? (ks.foldl (fun row key => put row key (value key)) row) k =
      if k ∈ ks then some (value k) else find? row k := by
  induction ks generalizing row with
  | nil => simp
  | cons key ks ih =>
    rw [List.foldl_cons, ih, find?_put]
    by_cases hk : k = key
    · subst hk
      simp
    · simp [hk]

/-- Assignments that write each field's own value. -/
theorem field_foldl_put_self (f : String → Json → Json) {ks : List String} {row : Row}
    (h : ∀ key ∈ ks, f key (field row key) = field row key) (k : String) :
    field (ks.foldl (fun row key => put row key (f key (field row key))) row) k = field row k := by
  induction ks generalizing row with
  | nil => rfl
  | cons key ks ih =>
    have hput : ∀ k', field (put row key (f key (field row key))) k' = field row k' := by
      intro k'
      rw [field_put]
      split
      · next hk => rw [hk, h key List.mem_cons_self]
      · rfl
    rw [List.foldl_cons, ih, hput]
    intro key' hkey'
    rw [hput]
    exact h key' (List.mem_cons_of_mem _ hkey')

/-- Padding with `None` changes no field. -/
theorem field_foldl_setDefault_null (ks : List String) (row : Row) (k : String) :
    field (ks.foldl (fun row key => setDefault row key .null) row) k = field row k := by
  induction ks generalizing row with
  | nil => rfl
  | cons key ks ih =>
    rw [List.foldl_cons, ih, field_setDefault]
    split
    · next h =>
      rw [h.1, field, h.2]
      rfl
    · rfl

theorem field_map (value : String → Json) (ks : List String) (k : String) :
    field (ks.map fun key => (key, value key)) k = if k ∈ ks then value k else .null := by
  induction ks with
  | nil => rfl
  | cons key ks ih =>
    unfold field find? at ih ⊢
    rw [List.map_cons, List.find?_cons]
    by_cases hk : key = k
    · subst hk
      simp
    · rw [show (key == k) = false from beq_eq_false_iff_ne.mpr hk]
      simpa [Ne.symm hk] using ih

/-- A key that no member has. -/
theorem field_of_notMem {row : Row} {k : String} (h : k ∉ row.map Prod.fst) :
    field row k = .null := by
  unfold field find?
  rw [List.find?_eq_none.mpr]
  · rfl
  · intro m hm hkey
    exact h (List.mem_map.mpr ⟨m, hm, beq_iff_eq.mp hkey⟩)

theorem find?_foldl_setDefault (f : String → Json → Json) (members row : Row) (k : String) :
    find? (members.foldl (fun row m => setDefault row m.1 (f m.1 m.2)) row) k =
      (find? row k).or ((find? members k).map (f k)) := by
  induction members generalizing row with
  | nil => simp [find?]
  | cons m members ih =>
    rw [List.foldl_cons, ih, find?_setDefault, Option.or_assoc]
    congr 1
    by_cases hk : k = m.1
    · subst hk
      simp [find?]
    · rw [if_neg hk, Option.none_or]
      simp [find?, Ne.symm hk]

theorem find?_filter (p : String → Bool) (row : Row) (k : String) :
    find? (row.filter fun m => p m.1) k = if p k then find? row k else none := by
  unfold find?
  rw [List.find?_filter]
  by_cases hp : p k = true
  · rw [if_pos hp]
    congr 2
    funext m
    by_cases hm : m.1 = k
    · simp [hm, hp]
    · simp [hm]
  · rw [if_neg hp, Option.map_eq_none_iff, List.find?_eq_none]
    intro m _ hm
    simp only [decide_eq_true_eq, beq_iff_eq] at hm
    exact hp (hm.2 ▸ hm.1)

/-- The rows differ at most in the fields `keys`. -/
def Agrees (keys : List String) (row row' : Row) : Prop :=
  ∀ k, k ∉ keys → field row' k = field row k

variable {keys keys' : List String} {row row' row'' : Row}

theorem Agrees.refl : Agrees keys row row := fun _ _ => rfl

theorem Agrees.trans (h : Agrees keys row row') (h' : Agrees keys row' row'') :
    Agrees keys row row'' := fun k hk => (h' k hk).trans (h k hk)

theorem Agrees.mono (h : Agrees keys row row') (hk : keys ⊆ keys') : Agrees keys' row row' :=
  fun k hn => h k fun hin => hn (hk hin)

theorem agrees_put {key : String} (hk : key ∈ keys) (value : Json) :
    Agrees keys row (put row key value) := by
  intro k hn
  have hne : k ≠ key := fun he => hn (he ▸ hk)
  rw [field_put, if_neg hne]

theorem agrees_setDefault {key : String} (hk : key ∈ keys) (value : Json) :
    Agrees keys row (setDefault row key value) := by
  intro k hn
  have hne : k ≠ key := fun he => hn (he ▸ hk)
  rw [field_setDefault, if_neg fun h => hne h.1]

/-! ## Printed texts -/

/-- The text of the first `n` members of an object, as `dumpsAscii` prints it. -/
def printed (n : Nat) (members : Row) : List Char :=
  ("\x7b" ++ ",".intercalate (((sortMembers (dumpsMembers members)).take n).map fun m =>
    quote m.1 ++ ":" ++ m.2)).toList.flatMap escapeAscii

theorem intercalate_take (s : String) (items : List String) (n : Nat) :
    ∃ tail, s.intercalate items = s.intercalate (items.take n) ++ tail := by
  by_cases hl : items.take n = []
  · rw [hl]
    exact ⟨s.intercalate items, by simp⟩
  · by_cases hr : items.drop n = []
    · rw [List.take_of_length_le (by simpa using hr)]
      exact ⟨"", by simp⟩
    · have h := String.intercalate_append_of_ne_nil (s := s) hl hr
      rw [List.take_append_drop, String.append_assoc] at h
      exact ⟨_, h⟩

theorem printed_starts (n : Nat) (members : Row) :
    printed n members <+: (dumpsAscii (.obj members)).toList := by
  obtain ⟨tail, ht⟩ := intercalate_take "," ((sortMembers (dumpsMembers members)).map fun m =>
    quote m.1 ++ ":" ++ m.2) n
  refine ⟨(tail ++ "\x7d").toList.flatMap escapeAscii, ?_⟩
  unfold dumpsAscii printed
  rw [String.toList_ofList, dumps, ht, ← List.flatMap_append, ← String.toList_append, List.map_take]
  simp only [String.append_assoc]

theorem zip_of_prefixes {α : Type} {l l' t : List α} (h : l <+: t) (h' : l' <+: t) :
    ∀ p ∈ l.zip l', p.1 = p.2 := by
  induction t generalizing l l' with
  | nil =>
    rw [List.prefix_nil.mp h]
    simp
  | cons a t ih =>
    match l, l' with
    | [], _ => simp
    | _ :: _, [] => simp
    | x :: l, y :: l' =>
      obtain ⟨hx, hl⟩ := List.cons_prefix_cons.mp h
      obtain ⟨hy, hl'⟩ := List.cons_prefix_cons.mp h'
      intro p hp
      rcases List.mem_cons.mp hp with rfl | hp
      · exact hx.trans hy.symm
      · exact ih hl hl' p hp

/-- Objects whose first members are printed differently. -/
theorem dumpsAscii_ne {n : Nat} {members members' : Row}
    (h : ((printed n members).zip (printed n members')).any (fun p => p.1 != p.2) = true) :
    dumpsAscii (.obj members) ≠ dumpsAscii (.obj members') := by
  intro he
  obtain ⟨p, hp, hne⟩ := List.any_eq_true.mp h
  have hpre := printed_starts n members'
  rw [← he] at hpre
  exact absurd (zip_of_prefixes (printed_starts n members) hpre p hp) (by simpa using hne)

end Json

end CortexHarness
