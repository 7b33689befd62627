import CortexHarness.Library.Text
import CortexHarness.Link.Rebuild

/-!
# Joins of file hashes

The graph names a document by its flattened path, and `_doc_sha_for` looks the id up among the paths
of the baseline first: a file that is itself spelled like the flattened path of another answers for
it. After that first table nothing is guessed: the flattened path of a file is in the second one,
with the hash of the file or marked ambiguous.

* `spelled` lists the spellings of the baseline paths with their hashes, in the order of the index;
* `ownerSha` is the hash of the last file with a spelling.

Results:
* `docShaFor_flatten`: what the lookup of a flattened path is, by what the first table holds;
* **`sha_joins_sound_iff`**: a join is sound exactly when no such file answers, and a code path
  resolves to its hash exactly when the last folder with the same key lists it so.
-/

namespace CortexHarness.Link

open Table

variable {P : Platform} {docShas : Texts} {table : List (String × Option String)}
  {key k rel sha sha' : String}

/-- What Unicode normalization keeps: separators and blanks are neither composed nor decomposed. -/
structure KeepsSeparators (P : Platform) : Prop where
  nfc : ∀ rel, flattenDocRel (P.nfc (posixPath rel)) = P.nfc (flattenDocRel rel)
  nfd : ∀ rel, flattenDocRel (P.nfd (posixPath rel)) = P.nfd (flattenDocRel rel)

/-- The spellings of the baseline paths, with the hashes. -/
def spelled (P : Platform) (docShas : Texts) : Texts :=
  docShas.flatMap fun m => (spellings P (posixPath m.1)).map fun s => (s, m.2)

/-- The hash of the last file with this spelling. -/
def ownerSha (P : Platform) (docShas : Texts) (spelling : String) : Option String :=
  (lookup Prod.fst spelling (spelled P docShas).reverse).map Prod.snd

/-! ## Flattened paths -/

theorem toList_posixPath (value : String) : (posixPath value).toList =
    (stripChars value.toList).map fun c => if c = '\\' then '/' else c := by
  rw [posixPath, String.toList_ofList, toList_strip]

theorem posixPath_eq_self {value : String} (hstrip : stripChars value.toList = value.toList)
    (hslash : '\\' ∉ value.toList) : posixPath value = value := by
  apply String.toList_inj.mp
  rw [toList_posixPath, hstrip]
  conv => rhs; rw [← List.map_id value.toList]
  exact List.map_congr_left fun c hc => if_neg fun (h : c = '\\') => hslash (h ▸ hc)

theorem stripChars_posixPath (value : String) :
    stripChars (posixPath value).toList = (posixPath value).toList := by
  have hspace : ∀ c, isSpace (if c = '\\' then '/' else c) = isSpace c := by
    intro c
    split
    · next h =>
      rw [h]
      decide
    · rfl
  rw [toList_posixPath, stripChars_map hspace, stripChars_stripChars]

theorem not_mem_posixPath (value : String) : '\\' ∉ (posixPath value).toList := by
  rw [toList_posixPath]
  intro h
  obtain ⟨c, -, hc⟩ := List.mem_map.mp h
  split at hc
  · cases hc
  · next hne => exact hne hc

theorem flattenDocRel_posixPath (rel : String) :
    flattenDocRel (posixPath rel) = flattenDocRel rel := by
  rw [flattenDocRel, posixPath_posixPath, flattenDocRel]

theorem posixPath_flattenDocRel (rel : String) : posixPath (flattenDocRel rel) =
    flattenDocRel rel := by
  apply posixPath_eq_self
  · rw [flattenDocRel, String.toList_ofList]
    refine stripChars_flatMap (fun c hc => ?_) (stripChars_posixPath rel)
    split
    · exact ⟨List.cons_ne_nil _ _, forall_mem_of_all (by decide)⟩
    · exact ⟨List.cons_ne_nil _ _, fun d hd => by rwa [List.mem_singleton.mp hd]⟩
  · rw [flattenDocRel, String.toList_ofList]
    intro h
    obtain ⟨c, hc, h⟩ := List.mem_flatMap.mp h
    split at h
    · revert h
      decide
    · rw [← List.mem_singleton.mp h] at hc
      exact not_mem_posixPath rel hc

/-! ## The tables -/

theorem buildDocShaIndex_eq (P : Platform) (docShas : Texts) : buildDocShaIndex P docShas =
    (spelled P docShas).foldl (fun index e => indexSpelling e.2 index e.1) {} := by
  rw [buildDocShaIndex, spelled, List.foldl_flatMap]
  refine List.foldl_ext _ _ _ fun index m _ => ?_
  rw [List.foldl_map]

theorem indexSpelling_direct (sha : String) (index : DocShaIndex) (path : String) :
    (indexSpelling sha index path).direct = assign Prod.fst (path, sha) index.direct := by
  unfold indexSpelling
  generalize splitSuffix (pathName path) = parts
  rfl

theorem indexSpelling_flattened (sha : String) (index : DocShaIndex) (path : String) :
    (indexSpelling sha index path).flattened =
      recordUnambiguousSha index.flattened (flattenDocRel path) sha := by
  unfold indexSpelling
  generalize splitSuffix (pathName path) = parts
  rfl

theorem direct_foldl (entries : Texts) (index : DocShaIndex) :
    (entries.foldl (fun index e => indexSpelling e.2 index e.1) index).direct =
      entries.foldl (fun t e => assign Prod.fst e t) index.direct := by
  induction entries generalizing index with
  | nil => rfl
  | cons e entries ih => rw [List.foldl_cons, ih, indexSpelling_direct, List.foldl_cons]

theorem flattened_foldl (entries : Texts) (index : DocShaIndex) :
    (entries.foldl (fun index e => indexSpelling e.2 index e.1) index).flattened =
      entries.foldl (fun t e => recordUnambiguousSha t (flattenDocRel e.1) e.2)
        index.flattened := by
  induction entries generalizing index with
  | nil => rfl
  | cons e entries ih => rw [List.foldl_cons, ih, indexSpelling_flattened, List.foldl_cons]

/-- The first table has the last file of every spelling. -/
theorem lookup_latest_reverse (entries : Texts) (k : String) :
    lookup Prod.fst k (latest Prod.fst entries) = lookup Prod.fst k entries.reverse := by
  induction entries using List.reverseRecOn with
  | nil => rfl
  | append_singleton entries e ih =>
    rw [latest_snoc, lookup_assign, List.reverse_append, List.reverse_singleton, lookup_append,
      lookup_singleton, ih]
    split <;> rfl

theorem lookup_direct (P : Platform) (docShas : Texts) (k : String) :
    (lookup Prod.fst k (buildDocShaIndex P docShas).direct).map Prod.snd =
      ownerSha P docShas k := by
  rw [buildDocShaIndex_eq, direct_foldl]
  exact congrArg _ (lookup_latest_reverse (spelled P docShas) k)

/-- The key has this hash, or is ambiguous. -/
def HasSha (table : List (String × Option String)) (key sha : String) : Prop :=
  lookup Prod.fst key table = some (key, some sha) ∨ lookup Prod.fst key table = some (key, none)

theorem lookup_record (table : List (String × Option String)) (key sha k : String) :
    lookup Prod.fst k (recordUnambiguousSha table key sha) =
      if key = k then
        match lookup Prod.fst k table with
        | some (_, existing) =>
          if existing = some sha then some (k, some sha) else some (k, none)
        | none => some (k, some sha)
      else lookup Prod.fst k table := by
  by_cases hk : key = k
  · subst hk
    rw [if_pos rfl, recordUnambiguousSha]
    cases hlookup : lookup Prod.fst key table with
    | none =>
      simp only [lookup_append, hlookup, lookup_singleton, if_true, Option.none_or]
    | some entry =>
      obtain ⟨key', existing⟩ := entry
      obtain rfl : key' = key := lookup_key hlookup
      by_cases he : existing = some sha
      · simp only [he, if_true, hlookup]
      · simp only [if_neg he, lookup_assign, if_true]
  · rw [if_neg hk, recordUnambiguousSha]
    cases hlookup : lookup Prod.fst key table with
    | none => simp only [lookup_append, lookup_singleton, if_neg hk, Option.or_none]
    | some entry =>
      obtain ⟨key', existing⟩ := entry
      by_cases he : existing = some sha
      · simp only [if_pos he]
      · simp only [if_neg he, lookup_assign, if_neg hk]

theorem hasSha_record (table : List (String × Option String)) (key sha : String) :
    HasSha (recordUnambiguousSha table key sha) key sha := by
  unfold HasSha
  rw [lookup_record, if_pos rfl]
  split
  · split
    · exact Or.inl rfl
    · exact Or.inr rfl
  · exact Or.inl rfl

/-- A hash is kept, or its key becomes ambiguous for good. -/
theorem HasSha.record (h : HasSha table k sha) (key sha' : String) :
    HasSha (recordUnambiguousSha table key sha') k sha := by
  unfold HasSha at h ⊢
  rw [lookup_record]
  by_cases hk : key = k
  · rw [if_pos hk]
    rcases h with h | h
    · rw [h]
      by_cases he : sha = sha'
      · exact Or.inl (by simp [he])
      · exact Or.inr (by simp [he])
    · rw [h]
      exact Or.inr (by simp)
  · rwa [if_neg hk]

theorem hasSha_flattened {e : String × String} (he : e ∈ spelled P docShas) :
    HasSha (buildDocShaIndex P docShas).flattened (flattenDocRel e.1) e.2 := by
  rw [buildDocShaIndex_eq, flattened_foldl]
  generalize spelled P docShas = entries at he
  generalize ({} : DocShaIndex).flattened = table
  have hkeep : ∀ (entries : Texts) {table : List (String × Option String)},
      HasSha table (flattenDocRel e.1) e.2 → HasSha (entries.foldl (fun t e =>
        recordUnambiguousSha t (flattenDocRel e.1) e.2) table) (flattenDocRel e.1) e.2 := by
    intro entries
    induction entries with
    | nil => exact fun h => h
    | cons x entries ih => exact fun h => ih (h.record _ _)
  induction entries generalizing table with
  | nil => cases he
  | cons x entries ih =>
    rcases List.mem_cons.mp he with rfl | he
    · exact hkeep entries (hasSha_record _ _ _)
    · exact ih he _

/-! ## The lookup of a flattened path -/

theorem mem_spellings {path s : String} :
    s ∈ spellings P path ↔ s = path ∨ s = P.nfc path ∨ s = P.nfd path := by
  simp [spellings]

theorem spellings_head (path : String) : ∃ rest, spellings P path = path :: rest :=
  ⟨_, List.eraseDups_cons⟩

/-- Every spelling of the id is in the second table, with the hash of the file or ambiguous. -/
theorem hasSha_spelling (hP : KeepsSeparators P) (hmem : (rel, sha) ∈ docShas) {v : String}
    (hv : v ∈ spellings P (flattenDocRel rel)) :
    HasSha (buildDocShaIndex P docShas).flattened v sha := by
  have hspelled : ∀ s ∈ spellings P (posixPath rel), (s, sha) ∈ spelled P docShas :=
    fun s hs => List.mem_flatMap.mpr ⟨(rel, sha), hmem, List.mem_map.mpr ⟨s, hs, rfl⟩⟩
  rcases mem_spellings.mp hv with rfl | rfl | rfl
  · have := hasSha_flattened (hspelled _ (mem_spellings.mpr (Or.inl rfl)))
    rwa [flattenDocRel_posixPath] at this
  · have := hasSha_flattened (hspelled _ (mem_spellings.mpr (Or.inr (Or.inl rfl))))
    rwa [hP.nfc] at this
  · have := hasSha_flattened (hspelled _ (mem_spellings.mpr (Or.inr (Or.inr rfl))))
    rwa [hP.nfd] at this

theorem findSome?_alike {α β : Type} {f : α → Option β} {b : β} {l : List α}
    (h : ∀ a ∈ l, f a = some b ∨ f a = none) : l.findSome? f = some b ∨
      ∀ a ∈ l, f a = none := by
  induction l with
  | nil => exact Or.inr fun a ha => absurd ha List.not_mem_nil
  | cons a l ih =>
    obtain ⟨ha, hl⟩ := List.forall_mem_cons.mp h
    rw [List.findSome?_cons]
    rcases ha with ha | ha
    · exact Or.inl (by rw [ha])
    · rw [ha]
      rcases ih hl with hfound | hnone
      · exact Or.inl hfound
      · exact Or.inr (List.forall_mem_cons.mpr ⟨ha, hnone⟩)

theorem ownerSha_ne_empty (hsha : ∀ m ∈ docShas, m.2 ≠ "") (h : ownerSha P docShas k = some sha) :
    sha ≠ "" := by
  obtain ⟨e, he, rfl⟩ := Option.map_eq_some_iff.mp h
  obtain ⟨m, hm, he⟩ := List.mem_flatMap.mp (List.mem_reverse.mp (lookup_mem he))
  obtain ⟨s, -, rfl⟩ := List.mem_map.mp he
  exact hsha m hm

/-- The first table answers with the hash of the last owner. -/
theorem shaAt_direct (hsha : ∀ m ∈ docShas, m.2 ≠ "") (k : String) :
    shaAt ((buildDocShaIndex P docShas).direct.map fun m => (m.1, some m.2)) k =
      ownerSha P docShas k := by
  have hmap : ∀ t : Texts, (lookup Prod.fst k (t.map fun m => (m.1, some m.2))).bind Prod.snd =
      (lookup Prod.fst k t).map Prod.snd := by
    intro t
    induction t with
    | nil => rfl
    | cons m t ih =>
      rw [List.map_cons]
      unfold lookup at ih ⊢
      by_cases hk : m.1 = k
      · rw [List.find?_cons_of_pos (by simpa using hk), List.find?_cons_of_pos (by simpa using hk)]
        rfl
      · rw [List.find?_cons_of_neg (by simpa using hk), List.find?_cons_of_neg (by simpa using hk)]
        exact ih
  rw [shaAt, hmap, lookup_direct]
  cases h : ownerSha P docShas k with
  | none => rfl
  | some sha => exact Option.filter_some_pos (by simpa using ownerSha_ne_empty hsha h)

theorem HasSha.shaAt (h : HasSha table key sha) (hne : sha ≠ "") :
    shaAt table key = some sha ∨ shaAt table key = none := by
  unfold Link.shaAt
  rcases h with h | h
  · left
    rw [h]
    exact Option.filter_some_pos (by simpa using hne)
  · right
    rw [h]
    rfl

/-- **The lookup of a flattened path**: what the first table says about its spellings, or else the
hash of the file or nothing. -/
theorem docShaFor_flatten (hP : KeepsSeparators P) (hsha : ∀ m ∈ docShas, m.2 ≠ "")
    (hmem : (rel, sha) ∈ docShas) (hid : flattenDocRel rel ≠ "") :
    docShaFor P (buildDocShaIndex P docShas) (flattenDocRel rel) =
        (spellings P (flattenDocRel rel)).findSome? (ownerSha P docShas) ∨
      (spellings P (flattenDocRel rel)).findSome? (ownerSha P docShas) = none ∧
        docShaFor P (buildDocShaIndex P docShas) (flattenDocRel rel) = some sha := by
  have hne : sha ≠ "" := hsha _ hmem
  have hspelling := fun v (hv : v ∈ spellings P (flattenDocRel rel)) =>
    (hasSha_spelling hP hmem hv).shaAt hne
  unfold docShaFor
  dsimp only
  rw [posixPath_flattenDocRel, if_neg hid, funext (shaAt_direct hsha)]
  cases hfirst : (spellings P (flattenDocRel rel)).findSome? (ownerSha P docShas) with
  | some sha' => exact Or.inl rfl
  | none =>
    dsimp only
    rcases findSome?_alike hspelling with hfound | hnone
    · rw [hfound]
      exact Or.inr ⟨rfl, rfl⟩
    · left
      obtain ⟨rest, hrest⟩ := spellings_head (P := P) (flattenDocRel rel)
      have hhead : flattenDocRel rel ∈ spellings P (flattenDocRel rel) :=
        mem_spellings.mpr (Or.inl rfl)
      -- The id is in the second table, and it does not answer: it is ambiguous.
      have hambiguous : lookup Prod.fst (flattenDocRel rel)
          (buildDocShaIndex P docShas).flattened = some (flattenDocRel rel, none) := by
        rcases hasSha_spelling hP hmem hhead with h | h
        · have := hnone _ hhead
          rw [shaAt, h] at this
          simp [hne] at this
        · exact h
      rw [List.findSome?_eq_none_iff.mpr hnone, hrest, noExtSha, if_pos hambiguous]

/-! ## Code paths -/

/-- The last configured folder with the key. -/
def lastFolder (P : Platform) (folders : List (String × Texts)) (repo : String) : Option Texts :=
  (folders.reverse.find? fun m => normalizeRepoKey P m.1 == normalizeRepoKey P repo).map Prod.snd

theorem lookup_folders {folders : List (String × Texts)} (flat : Texts) {repo : String}
    (hkey : normalizeRepoKey P repo ≠ "") :
    (lookup Prod.fst (normalizeRepoKey P repo) (CodeShaIndex.of P folders flat).folders).map
      Prod.snd = lastFolder P folders repo := by
  unfold CodeShaIndex.of lastFolder
  dsimp only
  induction folders using List.reverseRecOn with
  | nil => rfl
  | append_singleton folders m ih =>
    rw [List.filter_append, List.foldl_append, List.reverse_append, List.reverse_singleton,
      List.singleton_append]
    by_cases hm : normalizeRepoKey P m.1 = normalizeRepoKey P repo
    · rw [List.find?_cons_of_pos (by simpa using hm), List.filter_cons_of_pos (by
        simpa [hm] using hkey), List.filter_nil, List.foldl_cons, List.foldl_nil, lookup_assign,
        if_pos hm]
      rfl
    · rw [List.find?_cons_of_neg (by simpa using hm), ← ih]
      by_cases hblank : normalizeRepoKey P m.1 = ""
      · rw [List.filter_cons_of_neg (by simp [hblank])]
        rfl
      · rw [List.filter_cons_of_pos (by simpa using hblank), List.filter_nil, List.foldl_cons,
          List.foldl_nil, lookup_assign, if_neg hm]

theorem resolve_eq {folders : List (String × Texts)} {flat folder : Texts} {repo path : String}
    (hkey : normalizeRepoKey P repo ≠ "") (hpath : posixPath path ≠ "")
    (hfolder : lastFolder P folders repo = some folder) :
    ((CodeShaIndex.of P folders flat).resolve P repo path).1 =
      (lookup Prod.fst (posixPath path) folder).map Prod.snd := by
  obtain ⟨⟨key, found⟩, hlookup, rfl⟩ :=
    Option.map_eq_some_iff.mp ((lookup_folders flat hkey).trans hfolder)
  unfold CodeShaIndex.resolve
  dsimp only
  rw [if_neg hpath, if_neg hkey, hlookup]
  dsimp only
  cases lookup Prod.fst (posixPath path) found <;> rfl

theorem joined_iff (answer : Option String) (sha : String) :
    (answer = some sha ∨ answer = none) ↔ ∀ found, answer = some found → found = sha := by
  cases answer with
  | none => exact iff_of_true (Or.inr rfl) fun found h => nomatch h
  | some other =>
    constructor
    · rintro (h | h) found hfound
      · rw [← Option.some.inj hfound, Option.some.inj h]
      · cases h
    · exact fun h => Or.inl (congrArg some (h other rfl))

/-- **The joins of file hashes are sound exactly when no other file owns the flattened path**, and
no other folder the key of a folder. -/
theorem sha_joins_sound_iff (P : Platform) (hP : KeepsSeparators P) (docShas : Texts)
    (hsha : ∀ m ∈ docShas, m.2 ≠ "") (folders : List (String × Texts)) (flat : Texts) :
    (∀ m ∈ docShas,
      ((docShaFor P (buildDocShaIndex P docShas) (flattenDocRel m.1) = some m.2 ∨
          docShaFor P (buildDocShaIndex P docShas) (flattenDocRel m.1) = none) ↔
        (flattenDocRel m.1 ≠ "" → ∀ sha, (spellings P (flattenDocRel m.1)).findSome?
          (ownerSha P docShas) = some sha → sha = m.2))) ∧
    ∀ f ∈ folders, normalizeRepoKey P f.1 ≠ "" → ∀ e ∈ f.2,
      (((CodeShaIndex.of P folders flat).resolve P f.1 e.1).1 = some e.2 ↔
        posixPath e.1 ≠ "" ∧ ∃ last, lastFolder P folders f.1 = some last ∧
          (lookup Prod.fst (posixPath e.1) last).map Prod.snd = some e.2) := by
  constructor
  · rintro ⟨rel, sha⟩ hmem
    dsimp only
    by_cases hid : flattenDocRel rel = ""
    · have hnone : docShaFor P (buildDocShaIndex P docShas) (flattenDocRel rel) = none := by
        unfold docShaFor
        dsimp only
        rw [posixPath_flattenDocRel, if_pos hid]
      exact iff_of_true (Or.inr hnone) fun hne => absurd hid hne
    · simp only [hid, ne_eq, not_false_eq_true, forall_const]
      rcases docShaFor_flatten hP hsha hmem hid with heq | ⟨hnone, heq⟩
      · rw [heq]
        exact joined_iff _ sha
      · rw [heq, hnone]
        exact iff_of_true (Or.inl rfl) fun found h => nomatch h
  · intro f hf hkey e _
    have hsome : (folders.reverse.find? fun m =>
        normalizeRepoKey P m.1 == normalizeRepoKey P f.1).isSome = true :=
      List.find?_isSome.mpr ⟨f, List.mem_reverse.mpr hf, by simp⟩
    obtain ⟨g, hg⟩ := Option.isSome_iff_exists.mp hsome
    have hlast : lastFolder P folders f.1 = some g.2 := by
      rw [lastFolder, hg]
      rfl
    by_cases hpath : posixPath e.1 = ""
    · have hmissing : ((CodeShaIndex.of P folders flat).resolve P f.1 e.1).1 = none := by
        unfold CodeShaIndex.resolve
        dsimp only
        rw [if_pos hpath]
      rw [hmissing]
      simp [hpath]
    · rw [resolve_eq hkey hpath hlast]
      simp [hpath, hlast]

/-! ## Runs -/

theorem samplePlatform_keepsSeparators : KeepsSeparators samplePlatform where
  nfc rel := flattenDocRel_posixPath rel
  nfd rel := flattenDocRel_posixPath rel

/-- A file in a folder, and another one. -/
def sampleShas (other : String) : Texts := [("a/b.md", "1"), (other, "2")]

/-- Nothing else is spelled like the flattened path. -/
theorem sha_joins_sample :
    docShaFor samplePlatform (buildDocShaIndex samplePlatform (sampleShas "c.md"))
        (flattenDocRel "a/b.md") = some "1" ∨
      docShaFor samplePlatform (buildDocShaIndex samplePlatform (sampleShas "c.md"))
        (flattenDocRel "a/b.md") = none := by
  refine ((sha_joins_sound_iff samplePlatform samplePlatform_keepsSeparators (sampleShas "c.md")
    (by decide) [] []).1 ("a/b.md", "1") List.mem_cons_self).mpr fun _ sha h => ?_
  have hnone : (spellings samplePlatform (flattenDocRel "a/b.md")).findSome?
      (ownerSha samplePlatform (sampleShas "c.md")) = none := by decide +kernel
  rw [hnone] at h
  cases h

/-- A file with the name of the flattened path answers for the path, and of two folders that differ
in case the later one answers for both. -/
theorem other_file_answers :
    ¬ (docShaFor samplePlatform (buildDocShaIndex samplePlatform (sampleShas "a__b.md"))
          (flattenDocRel "a/b.md") = some "1" ∨
        docShaFor samplePlatform (buildDocShaIndex samplePlatform (sampleShas "a__b.md"))
          (flattenDocRel "a/b.md") = none) ∧
      ¬ ((CodeShaIndex.of samplePlatform [("/src/A", [("x.py", "1")]), ("/src/a", [("x.py", "2")])]
          []).resolve samplePlatform "/src/A" "x.py").1 = some "1" := by
  decide +kernel

end CortexHarness.Link
