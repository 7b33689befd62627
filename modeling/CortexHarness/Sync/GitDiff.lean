import Mathlib.Data.Finset.Insert
import Mathlib.Data.List.DropRight
import Mathlib.Tactic.Common

/-!
# Decoding a Git diff

Model of `common/git_diff.py:74-133, 245-258`: the tokens of `git diff --name-status -z` as entries,
what is left of an entry beneath the scan root, and the paths to scan and to delete.

* A text is the list of its characters; `surrogateescape` decodes every byte that is no UTF-8 on its
  own, so the separators of the bytes are those of the text.
* A tree maps paths to blobs. `Describes` says which lists of records are a name-status description
  of two trees: every record is true, and every path that differs has one. It leaves open whether a
  path that is new to the second tree is an addition, the end of a rename or a copy.

Results:
* `parse_describe`: the tokens of a description are read back record by record;
* `diff_decodes`: the deleted paths are those of the first tree that the second one misses, and the
  changed paths those of the second one that are new or differ, beneath the scan root.
-/

namespace CortexHarness.Sync.GitDiff

abbrev Text := List Char

/-! ## Entries -/

/-- `DiffEntry` -/
structure DiffEntry where
  status : Char
  oldPath : Option Text
  newPath : Option Text
  source : Text
  repositoryScope : Text
  deriving DecidableEq

/-- `_to_posix` -/
def toPosix (path : Text) : Text := path.map fun c => if c = '\\' then '/' else c

/-- `raw_status[:1].upper()` -/
def statusOf (rawStatus : Text) : Option Char := rawStatus.head?.map Char.toUpper

variable (source repositoryScope : Text)

/-- The branch on a status that has two paths. -/
def pairEntry (rawStatus firstPath secondPath : Text) : DiffEntry :=
  if statusOf rawStatus = some 'R' then
    ⟨'R', some (toPosix firstPath), some (toPosix secondPath), source, repositoryScope⟩
  else ⟨'A', none, some (toPosix secondPath), source, repositoryScope⟩

/-- The branches on a status that has one path; other statuses are skipped. -/
def singleEntry (rawStatus firstPath : Text) : List DiffEntry :=
  if statusOf rawStatus = some 'D' then
    [⟨'D', some (toPosix firstPath), none, source, repositoryScope⟩]
  else if statusOf rawStatus = some 'T' then
    [⟨'M', none, some (toPosix firstPath), source, repositoryScope⟩]
  else if statusOf rawStatus = some 'A' then
    [⟨'A', none, some (toPosix firstPath), source, repositoryScope⟩]
  else if statusOf rawStatus = some 'M' then
    [⟨'M', none, some (toPosix firstPath), source, repositoryScope⟩]
  else []

/-- `status in {"R", "C"}` -/
def isPair (rawStatus : Text) : Bool :=
  statusOf rawStatus == some 'R' || statusOf rawStatus == some 'C'

/-- The loop over the tokens. A first token with a tab holds its path too. -/
def parseTokens : List Text → List DiffEntry
  | [] => []
  | token :: tokens =>
    if '\t' ∈ token then
      let rawStatus := token.takeWhile (· != '\t')
      let firstPath := (token.dropWhile (· != '\t')).tail
      if isPair rawStatus then
        match tokens with
        | [] => []
        | secondPath :: tokens =>
          pairEntry source repositoryScope rawStatus firstPath secondPath :: parseTokens tokens
      else singleEntry source repositoryScope rawStatus firstPath ++ parseTokens tokens
    else
      match tokens with
      | [] => []
      | firstPath :: tokens =>
        if isPair token then
          match tokens with
          | [] => []
          | secondPath :: tokens =>
            pairEntry source repositoryScope token firstPath secondPath :: parseTokens tokens
        else singleEntry source repositoryScope token firstPath ++ parseTokens tokens

/-- `text.split("\0")` without an empty last token. -/
def tokensOf (data : Text) : List Text :=
  let tokens := data.splitOn '\x00'
  if tokens.getLast? = some [] then tokens.dropLast else tokens

/-- `_parse_name_status_z` -/
def parseNameStatusZ (data : Text) : List DiffEntry :=
  parseTokens source repositoryScope (tokensOf data)

/-! ## The scan root -/

/-- `prefix` -/
def scanPrefix (pathspec : Text) : Text :=
  if pathspec = ['.'] then [] else pathspec.rdropWhile (· == '/') ++ ['/']

/-- `mapped` -/
def mapped (pathspec : Text) (path : Option Text) : Option Text :=
  path.bind fun path =>
    let normalized := toPosix path
    if (scanPrefix pathspec).isPrefixOf normalized then
      some (normalized.drop (scanPrefix pathspec).length)
    else none

/-- `_map_into_scan_root` -/
def mapIntoScanRoot (pathspec : Text) (entry : DiffEntry) : Option DiffEntry :=
  let oldPath := mapped pathspec entry.oldPath
  let newPath := mapped pathspec entry.newPath
  if entry.status = 'R' then
    if oldPath.isSome && newPath.isSome then
      some { entry with status := 'R', oldPath, newPath }
    else if oldPath.isSome then some { entry with status := 'D', oldPath, newPath := none }
    else if newPath.isSome then some { entry with status := 'A', oldPath := none, newPath }
    else none
  else if entry.status = 'D' && oldPath.isSome then some { entry with oldPath, newPath := none }
  else if (entry.status = 'A' || entry.status = 'M') && newPath.isSome then
    some { entry with oldPath := none, newPath }
  else none

/-- The entries of `_collect_diff`. -/
def diffEntries (pathspec data : Text) : List DiffEntry :=
  (parseNameStatusZ source repositoryScope data).filterMap (mapIntoScanRoot pathspec)

/-- `set.add(path)` where the path is there and not empty. -/
def addPath (paths : Finset Text) (path : Option Text) : Finset Text :=
  match path with
  | none | some [] => paths
  | some path => insert path paths

/-- `collect_changed_and_deleted` -/
def collectChangedAndDeleted (entries : List DiffEntry) : Finset Text × Finset Text :=
  entries.foldl (fun sets entry =>
    if entry.status = 'A' ∨ entry.status = 'M' then (addPath sets.1 entry.newPath, sets.2)
    else if entry.status = 'D' then (sets.1, addPath sets.2 entry.oldPath)
    else if entry.status = 'R' then
      (addPath sets.1 entry.newPath, addPath sets.2 entry.oldPath)
    else sets) (∅, ∅)

/-! ## Descriptions of two trees -/

/-- A digit of a score. -/
def digit (d : Fin 10) : Char := Nat.digitChar d

/-- One record of `--name-status`; a score is the digits behind the letter. -/
inductive Record where
  | added (path : Text)
  | modified (path : Text)
  | typeChanged (path : Text)
  | deleted (path : Text)
  | renamed (score : List (Fin 10)) (old new : Text)
  | copied (score : List (Fin 10)) (source target : Text)

namespace Record

/-- The tokens of a record. -/
def tokens : Record → List Text
  | added path => [['A'], path]
  | modified path => [['M'], path]
  | typeChanged path => [['T'], path]
  | deleted path => [['D'], path]
  | renamed score old new => [('R' :: score.map digit), old, new]
  | copied score source target => [('C' :: score.map digit), source, target]

/-- The paths behind the status. -/
def texts : Record → List Text
  | added path | modified path | typeChanged path | deleted path => [path]
  | renamed _ old new | copied _ old new => [old, new]

/-- The paths a record speaks about. -/
def paths : Record → List Text
  | added path | modified path | typeChanged path | deleted path => [path]
  | renamed _ old new => [old, new]
  | copied _ _ target => [target]

variable {β : Type} (before after : Text → Option β)

/-- The record is true of the two trees. -/
def Holds : Record → Prop
  | added path => before path = none ∧ after path ≠ none
  | modified path | typeChanged path =>
    before path ≠ none ∧ after path ≠ none ∧ before path ≠ after path
  | deleted path => before path ≠ none ∧ after path = none
  | renamed _ old new =>
    before old ≠ none ∧ after old = none ∧ after new ≠ none ∧ before new ≠ after new
  | copied _ source target =>
    before source ≠ none ∧ after target ≠ none ∧ before target ≠ after target

end Record

/-- `--name-status -z`: every token is followed by a NUL. -/
def describe (records : List Record) : Text :=
  records.flatMap fun r => r.tokens.flatMap fun token => token ++ ['\x00']

/-- The path has no NUL and no backslash. -/
def Plain (path : Text) : Prop := '\x00' ∉ path ∧ '\\' ∉ path

/-- The records are a description of what differs between two trees. -/
structure Describes {β : Type} (before after : Text → Option β) (records : List Record) : Prop where
  holds : ∀ r ∈ records, r.Holds before after
  complete : ∀ path, before path ≠ after path → ∃ r ∈ records, path ∈ r.paths
  plain : ∀ path, before path ≠ none ∨ after path ≠ none → Plain path

/-- The path `rel` lies beneath the scan root, as `path` in the repository. -/
def Beneath (pathspec rel path : Text) : Prop :=
  rel ≠ [] ∧ path = if pathspec = ['.'] then rel else pathspec.rdropWhile (· == '/') ++ '/' :: rel

/-! ## Reading a description back -/

namespace Record

/-- The entry of a record. -/
def entry (source repositoryScope : Text) : Record → DiffEntry
  | added path | copied _ _ path => ⟨'A', none, some path, source, repositoryScope⟩
  | modified path | typeChanged path => ⟨'M', none, some path, source, repositoryScope⟩
  | deleted path => ⟨'D', some path, none, source, repositoryScope⟩
  | renamed _ old new => ⟨'R', some old, some new, source, repositoryScope⟩

end Record

section Reading

variable {source repositoryScope} {records : List Record}

theorem toPosix_plain {path : Text} (h : Plain path) : toPosix path = path := by
  unfold toPosix
  rw [List.map_congr_left (g := id), List.map_id]
  intro c hc
  have hne : c ≠ '\\' := fun he => h.2 (he ▸ hc)
  simp [hne]

theorem not_mem_score {c : Char} (hc : ∀ d, digit d ≠ c) (score : List (Fin 10)) :
    c ∉ score.map digit := by
  intro h
  obtain ⟨d, -, hd⟩ := List.mem_map.mp h
  exact hc d hd

theorem tokensOf_terminated {tokens : List Text} (h : ∀ token ∈ tokens, '\x00' ∉ token) :
    tokensOf (tokens.flatMap fun token => token ++ ['\x00']) = tokens := by
  have hsplit : (tokens.flatMap fun token => token ++ ['\x00']).splitOn '\x00' = tokens ++ [[]] := by
    induction tokens with
    | nil => rfl
    | cons token tokens ih =>
      obtain ⟨hhead, htail⟩ := List.forall_mem_cons.mp h
      rw [List.flatMap_cons, List.append_assoc, List.singleton_append,
        List.splitOn_append_cons_self_of_not_mem hhead, ih htail, List.cons_append]
  unfold tokensOf
  rw [hsplit]
  simp

theorem describe_eq (records : List Record) :
    describe records = (records.flatMap Record.tokens).flatMap fun token => token ++ ['\x00'] := by
  rw [List.flatMap_assoc]
  rfl

theorem tokens_terminated {r : Record} (h : ∀ path ∈ r.texts, Plain path) :
    ∀ token ∈ r.tokens, '\x00' ∉ token := by
  intro token htoken
  cases r with
  | added path | modified path | typeChanged path | deleted path =>
    rcases List.mem_cons.mp htoken with rfl | hpath
    · decide
    · exact (h token hpath).1
  | renamed score old new | copied score old new =>
    rcases List.mem_cons.mp htoken with rfl | hpath
    · exact List.not_mem_cons_of_ne_of_not_mem (by decide)
        (not_mem_score (by decide) score)
    · exact (h token hpath).1

theorem parseTokens_single {token firstPath : Text} {rest : List Text} (htab : '\t' ∉ token)
    (hpair : isPair token = false) :
    parseTokens source repositoryScope (token :: firstPath :: rest) =
      singleEntry source repositoryScope token firstPath ++
        parseTokens source repositoryScope rest := by
  rw [parseTokens.eq_def]
  simp [htab, hpair]

theorem parseTokens_pair {token firstPath secondPath : Text} {rest : List Text}
    (htab : '\t' ∉ token) (hpair : isPair token = true) :
    parseTokens source repositoryScope (token :: firstPath :: secondPath :: rest) =
      pairEntry source repositoryScope token firstPath secondPath ::
        parseTokens source repositoryScope rest := by
  rw [parseTokens.eq_def]
  simp [htab, hpair]

/-- **The loop reads one record, and goes on behind it.** -/
theorem parseTokens_record {r : Record} (h : ∀ path ∈ r.texts, Plain path) (rest : List Text) :
    parseTokens source repositoryScope (r.tokens ++ rest) =
      r.entry source repositoryScope :: parseTokens source repositoryScope rest := by
  have hpath {path : Text} (hp : path ∈ r.texts) : toPosix path = path := toPosix_plain (h path hp)
  have hscored (c : Char) (hc : '\t' ≠ c) (score : List (Fin 10)) :
      '\t' ∉ c :: score.map digit :=
    List.not_mem_cons_of_ne_of_not_mem hc (not_mem_score (by decide) score)
  cases r with
  | added path | modified path | typeChanged path | deleted path =>
    have hp := hpath (List.mem_singleton_self path)
    refine (parseTokens_single (by decide) (by decide)).trans ?_
    simp [singleEntry, statusOf, Record.entry, hp]
  | renamed score old new =>
    have hold := hpath (List.mem_cons_self (a := old))
    have hnew := hpath (List.mem_cons_of_mem old (List.mem_singleton_self new))
    refine (parseTokens_pair (hscored 'R' (by decide) score) (by simp [isPair, statusOf])).trans ?_
    simp [pairEntry, statusOf, Record.entry, hold, hnew]
  | copied score old new =>
    have hnew := hpath (List.mem_cons_of_mem old (List.mem_singleton_self new))
    refine (parseTokens_pair (hscored 'C' (by decide) score) (by simp [isPair, statusOf])).trans ?_
    simp [pairEntry, statusOf, Record.entry, hnew]

/-- **A description is read back record by record.** -/
theorem parse_describe (h : ∀ r ∈ records, ∀ path ∈ r.texts, Plain path) :
    parseNameStatusZ source repositoryScope (describe records) =
      records.map (Record.entry source repositoryScope) := by
  have hterminated : ∀ token ∈ records.flatMap Record.tokens, '\x00' ∉ token := by
    intro token htoken
    obtain ⟨r, hr, htoken⟩ := List.mem_flatMap.mp htoken
    exact tokens_terminated (h r hr) token htoken
  unfold parseNameStatusZ
  rw [describe_eq, tokensOf_terminated hterminated]
  clear hterminated
  induction records with
  | nil => rfl
  | cons r records ih =>
    obtain ⟨hhead, htail⟩ := List.forall_mem_cons.mp h
    rw [List.flatMap_cons, parseTokens_record hhead, ih htail, List.map_cons]

end Reading

/-! ## The sets -/

section Sets

variable {entries : List DiffEntry} {rel path pathspec : Text}

/-- The path an entry puts on the list to scan. -/
def DiffEntry.scanned (entry : DiffEntry) : Option Text :=
  if entry.status = 'A' ∨ entry.status = 'M' ∨ entry.status = 'R' then entry.newPath else none

/-- The path an entry puts on the list to delete. -/
def DiffEntry.gone (entry : DiffEntry) : Option Text :=
  if entry.status = 'D' ∨ entry.status = 'R' then entry.oldPath else none

theorem mem_addPath {paths : Finset Text} {added : Option Text} :
    path ∈ addPath paths added ↔ path ∈ paths ∨ path ≠ [] ∧ added = some path := by
  match added with
  | none => simp [addPath]
  | some [] =>
    simp only [addPath, Option.some.injEq]
    exact (or_iff_left fun h => h.1 h.2.symm).symm
  | some (c :: cs) =>
    simp only [addPath, Finset.mem_insert, Option.some.injEq]
    constructor
    · rintro (rfl | h)
      · exact .inr ⟨List.cons_ne_nil c cs, rfl⟩
      · exact .inl h
    · rintro (h | ⟨-, rfl⟩)
      · exact .inr h
      · exact .inl rfl

theorem collect_step {sets : Finset Text × Finset Text} {entry : DiffEntry} :
    (if entry.status = 'A' ∨ entry.status = 'M' then (addPath sets.1 entry.newPath, sets.2)
      else if entry.status = 'D' then (sets.1, addPath sets.2 entry.oldPath)
      else if entry.status = 'R' then
        (addPath sets.1 entry.newPath, addPath sets.2 entry.oldPath)
      else sets) = (addPath sets.1 entry.scanned, addPath sets.2 entry.gone) := by
  unfold DiffEntry.scanned DiffEntry.gone
  by_cases hadded : entry.status = 'A' ∨ entry.status = 'M'
  · rcases hadded with h | h <;> simp [h, addPath]
  · by_cases hdeleted : entry.status = 'D'
    · simp [hdeleted, addPath]
    · by_cases hrenamed : entry.status = 'R'
      · simp [hrenamed]
      · rw [not_or] at hadded
        simp [hadded, hdeleted, hrenamed, addPath]

theorem mem_collect :
    (path ∈ (collectChangedAndDeleted entries).1 ↔
      path ≠ [] ∧ ∃ entry ∈ entries, entry.scanned = some path) ∧
    (path ∈ (collectChangedAndDeleted entries).2 ↔
      path ≠ [] ∧ ∃ entry ∈ entries, entry.gone = some path) := by
  unfold collectChangedAndDeleted
  simp only [collect_step]
  have hfold (sets : Finset Text × Finset Text) :
      let result := entries.foldl (fun sets entry =>
        (addPath sets.1 entry.scanned, addPath sets.2 entry.gone)) sets
      (path ∈ result.1 ↔
        path ∈ sets.1 ∨ path ≠ [] ∧ ∃ entry ∈ entries, entry.scanned = some path) ∧
      (path ∈ result.2 ↔
        path ∈ sets.2 ∨ path ≠ [] ∧ ∃ entry ∈ entries, entry.gone = some path) := by
    induction entries generalizing sets with
    | nil => simp
    | cons entry entries ih =>
      obtain ⟨hchanged, hdeleted⟩ := ih (addPath sets.1 entry.scanned, addPath sets.2 entry.gone)
      rw [mem_addPath] at hchanged hdeleted
      refine ⟨hchanged.trans ?_, hdeleted.trans ?_⟩
      · rw [List.exists_mem_cons_iff, and_or_left, or_assoc]
      · rw [List.exists_mem_cons_iff, and_or_left, or_assoc]
  simpa using hfold (∅, ∅)

/-! ## The scan root -/

theorem beneath_iff : Beneath pathspec rel path ↔ rel ≠ [] ∧ path = scanPrefix pathspec ++ rel := by
  unfold Beneath scanPrefix
  split <;> simp

theorem mapped_none : mapped pathspec none = none := rfl

theorem mapped_eq (h : Plain path) :
    mapped pathspec (some path) = some rel ↔ path = scanPrefix pathspec ++ rel := by
  unfold mapped
  rw [Option.bind_some]
  dsimp only
  rw [toPosix_plain h]
  constructor
  · intro hmapped
    split at hmapped
    · next hpre =>
      obtain ⟨rest, rfl⟩ := List.isPrefixOf_iff_prefix.mp hpre
      rw [List.drop_left, Option.some.injEq] at hmapped
      rw [hmapped]
    · cases hmapped
  · rintro rfl
    rw [if_pos (List.isPrefixOf_iff_prefix.mpr (List.prefix_append ..)), List.drop_left]

theorem mapIntoScanRoot_sets (entry : DiffEntry) :
    (mapIntoScanRoot pathspec entry).bind DiffEntry.scanned = mapped pathspec entry.scanned ∧
      (mapIntoScanRoot pathspec entry).bind DiffEntry.gone = mapped pathspec entry.gone := by
  unfold mapIntoScanRoot
  by_cases hrenamed : entry.status = 'R'
  · -- A rename may leave the scan root, enter it, or stay.
    simp only [hrenamed, if_true]
    cases hold : mapped pathspec entry.oldPath <;> cases hnew : mapped pathspec entry.newPath <;>
      simp [DiffEntry.scanned, DiffEntry.gone, hrenamed, hold, hnew]
  · by_cases hdeleted : entry.status = 'D'
    · cases hold : mapped pathspec entry.oldPath <;>
        simp [DiffEntry.scanned, DiffEntry.gone, hdeleted, hold, mapped_none]
    · by_cases hadded : entry.status = 'A' ∨ entry.status = 'M'
      · cases hnew : mapped pathspec entry.newPath <;>
          rcases hadded with h | h <;>
          simp [DiffEntry.scanned, DiffEntry.gone, h, hnew, mapped_none]
      · rw [not_or] at hadded
        simp [DiffEntry.scanned, DiffEntry.gone, hrenamed, hdeleted, hadded, mapped_none]

end Sets

/-! ## The law -/

section Law

variable {β : Type} {before after : Text → Option β} {records : List Record} {path : Text}

namespace Record

/-- The paths a record leaves in the second tree. -/
def arrivals : Record → List Text
  | added path | modified path | typeChanged path | renamed _ _ path | copied _ _ path => [path]
  | deleted _ => []

/-- The paths a record takes from the first tree. -/
def departures : Record → List Text
  | deleted path | renamed _ path _ => [path]
  | _ => []

theorem arrivals_subset (r : Record) : r.arrivals ⊆ r.texts := by
  cases r <;> simp [arrivals, texts]

theorem departures_subset (r : Record) : r.departures ⊆ r.texts := by
  cases r <;> simp [departures, texts]

variable {source repositoryScope : Text}

theorem scanned_entry {r : Record} :
    (r.entry source repositoryScope).scanned = some path ↔ path ∈ r.arrivals := by
  cases r <;> simp [entry, DiffEntry.scanned, arrivals, eq_comm]

theorem gone_entry {r : Record} :
    (r.entry source repositoryScope).gone = some path ↔ path ∈ r.departures := by
  cases r <;> simp [entry, DiffEntry.gone, departures, eq_comm]

theorem mem_paths {r : Record} : path ∈ r.paths ↔ path ∈ r.arrivals ∨ path ∈ r.departures := by
  cases r <;> simp [paths, arrivals, departures, or_comm]

theorem Holds.arrival {r : Record} (h : r.Holds before after) (hpath : path ∈ r.arrivals) :
    after path ≠ none ∧ before path ≠ after path := by
  cases r with
  | added p =>
    obtain rfl := List.mem_singleton.mp hpath
    exact ⟨h.2, fun he => h.2 (he ▸ h.1)⟩
  | modified p | typeChanged p =>
    obtain rfl := List.mem_singleton.mp hpath
    exact h.2
  | deleted p => cases hpath
  | renamed _ old new =>
    obtain rfl := List.mem_singleton.mp hpath
    exact h.2.2
  | copied _ source target =>
    obtain rfl := List.mem_singleton.mp hpath
    exact h.2

theorem Holds.departure {r : Record} (h : r.Holds before after) (hpath : path ∈ r.departures) :
    before path ≠ none ∧ after path = none := by
  cases r with
  | deleted p =>
    obtain rfl := List.mem_singleton.mp hpath
    exact h
  | renamed _ old new =>
    obtain rfl := List.mem_singleton.mp hpath
    exact ⟨h.1, h.2.1⟩
  | added p | modified p | typeChanged p | copied _ source target => cases hpath

theorem Holds.texts {r : Record} (h : r.Holds before after) (hpath : path ∈ r.texts) :
    before path ≠ none ∨ after path ≠ none := by
  cases r with
  | added p =>
    obtain rfl := List.mem_singleton.mp hpath
    exact .inr h.2
  | modified p | typeChanged p | deleted p =>
    obtain rfl := List.mem_singleton.mp hpath
    exact .inl h.1
  | renamed _ old new =>
    rcases List.mem_cons.mp hpath with rfl | hnew
    · exact .inl h.1
    · obtain rfl := List.mem_singleton.mp hnew
      exact .inr h.2.2.1
  | copied _ source target =>
    rcases List.mem_cons.mp hpath with rfl | hnew
    · exact .inl h.1
    · obtain rfl := List.mem_singleton.mp hnew
      exact .inr h.2.1

end Record

theorem Describes.arrivals (h : Describes before after records) :
    (∃ r ∈ records, path ∈ r.arrivals) ↔ after path ≠ none ∧ before path ≠ after path := by
  constructor
  · rintro ⟨r, hr, hpath⟩
    exact (h.holds r hr).arrival hpath
  · rintro ⟨hafter, hdiffers⟩
    obtain ⟨r, hr, hpath⟩ := h.complete path hdiffers
    refine ⟨r, hr, (Record.mem_paths.mp hpath).resolve_right fun hgone => ?_⟩
    exact hafter ((h.holds r hr).departure hgone).2

theorem Describes.departures (h : Describes before after records) :
    (∃ r ∈ records, path ∈ r.departures) ↔ before path ≠ none ∧ after path = none := by
  constructor
  · rintro ⟨r, hr, hpath⟩
    exact (h.holds r hr).departure hpath
  · rintro ⟨hbefore, hafter⟩
    obtain ⟨r, hr, hpath⟩ := h.complete path fun he => hbefore (he.trans hafter)
    refine ⟨r, hr, (Record.mem_paths.mp hpath).resolve_left fun harrives => ?_⟩
    exact ((h.holds r hr).arrival harrives).1 hafter

theorem Describes.texts (h : Describes before after records) :
    ∀ r ∈ records, ∀ path ∈ r.texts, Plain path :=
  fun r hr path hpath => h.plain path ((h.holds r hr).texts hpath)

/-- **A description is decoded exactly.** -/
theorem diff_decodes (h : Describes before after records) (source repositoryScope pathspec : Text) :
    let sets :=
      collectChangedAndDeleted (diffEntries source repositoryScope pathspec (describe records))
    (∀ rel, rel ∈ sets.2 ↔
      ∃ path, Beneath pathspec rel path ∧ before path ≠ none ∧ after path = none) ∧
    (∀ rel, rel ∈ sets.1 ↔
      ∃ path, Beneath pathspec rel path ∧ after path ≠ none ∧ before path ≠ after path) := by
  intro sets
  have hentries (project : DiffEntry → Option Text) (paths : Record → List Text) (rel : Text)
      (hproject : ∀ entry, (mapIntoScanRoot pathspec entry).bind project =
        mapped pathspec (project entry))
      (hpaths : ∀ r path, project (Record.entry source repositoryScope r) = some path ↔
        path ∈ paths r)
      (hplain : ∀ r ∈ records, ∀ path ∈ paths r, Plain path) :
      (∃ entry ∈ diffEntries source repositoryScope pathspec (describe records),
        project entry = some rel) ↔
      ∃ path, path = scanPrefix pathspec ++ rel ∧ ∃ r ∈ records, path ∈ paths r := by
    unfold diffEntries
    rw [parse_describe h.texts]
    constructor
    · rintro ⟨entry, hentry, hrel⟩
      obtain ⟨e, he, hmapped⟩ := List.mem_filterMap.mp hentry
      obtain ⟨r, hr, rfl⟩ := List.mem_map.mp he
      have hmap : mapped pathspec (project (r.entry source repositoryScope)) = some rel := by
        rw [← hproject, hmapped, Option.bind_some, hrel]
      obtain ⟨path, hpath, -⟩ := Option.bind_eq_some_iff.mp hmap
      have hmem := (hpaths r path).mp hpath
      rw [hpath, mapped_eq (hplain r hr path hmem)] at hmap
      exact ⟨path, hmap, r, hr, hmem⟩
    · rintro ⟨path, hpath, r, hr, hmem⟩
      have hmap := (mapped_eq (hplain r hr path hmem)).mpr hpath
      rw [← (hpaths r path).mpr hmem, ← hproject] at hmap
      obtain ⟨entry, hentry, hrel⟩ := Option.bind_eq_some_iff.mp hmap
      exact ⟨entry, List.mem_filterMap.mpr ⟨_, List.mem_map_of_mem hr, hentry⟩, hrel⟩
  have hplain (paths : Record → List Text) (hsub : ∀ r, paths r ⊆ r.texts) :
      ∀ r ∈ records, ∀ path ∈ paths r, Plain path :=
    fun r hr path hpath => h.texts r hr path (hsub r hpath)
  refine ⟨fun rel => ?_, fun rel => ?_⟩
  · rw [mem_collect.2, hentries DiffEntry.gone Record.departures rel
      (fun entry => (mapIntoScanRoot_sets entry).2) (fun _ _ => Record.gone_entry)
      (hplain _ Record.departures_subset), ← exists_and_left]
    exact exists_congr fun path => by rw [beneath_iff, h.departures, and_assoc]
  · rw [mem_collect.1, hentries DiffEntry.scanned Record.arrivals rel
      (fun entry => (mapIntoScanRoot_sets entry).1) (fun _ _ => Record.scanned_entry)
      (hplain _ Record.arrivals_subset), ← exists_and_left]
    exact exists_congr fun path => by rw [beneath_iff, h.arrivals, and_assoc]

/-- A file that leaves the scan root, one that enters it, and one with a tab in its name. -/
def sampleRecords : List Record :=
  [.renamed [1, 0, 0] ['s', '/', 'a'] ['b'], .copied [8, 7] ['c'] ['s', '/', 'c'],
    .modified ['s', '/', '\t']]

def sampleBefore (path : Text) : Option Nat :=
  if path = ['s', '/', 'a'] then some 0 else if path = ['c'] then some 1
  else if path = ['s', '/', '\t'] then some 2 else none

def sampleAfter (path : Text) : Option Nat :=
  if path = ['b'] then some 0 else if path = ['c'] then some 1
  else if path = ['s', '/', 'c'] then some 1 else if path = ['s', '/', '\t'] then some 3 else none

theorem sampleRecords_describes : Describes sampleBefore sampleAfter sampleRecords where
  holds := by
    intro r hr
    simp only [sampleRecords, List.mem_cons, List.not_mem_nil, or_false] at hr
    rcases hr with rfl | rfl | rfl <;> simp only [Record.Holds] <;> decide
  complete := by
    intro path hdiffers
    by_contra hnone
    simp only [sampleRecords, List.mem_cons, List.not_mem_nil, or_false, exists_eq_or_imp,
      exists_eq_left, Record.paths, not_or] at hnone
    obtain ⟨⟨ha, hb⟩, hc, hd⟩ := hnone
    apply hdiffers
    unfold sampleBefore sampleAfter
    rw [if_neg ha, if_neg hb, if_neg hc, if_neg hd, if_neg hd]
  plain := by
    intro path hpath
    unfold sampleBefore sampleAfter at hpath
    split_ifs at hpath
    all_goals first
      | (subst path; unfold Plain; decide)
      | exact absurd hpath (by decide)

theorem diff_decodes_sample :
    let sets := collectChangedAndDeleted (diffEntries [] [] ['s'] (describe sampleRecords))
    (∀ rel, rel ∈ sets.2 ↔ ∃ path, Beneath ['s'] rel path ∧
      sampleBefore path ≠ none ∧ sampleAfter path = none) ∧
    (∀ rel, rel ∈ sets.1 ↔ ∃ path, Beneath ['s'] rel path ∧
      sampleAfter path ≠ none ∧ sampleBefore path ≠ sampleAfter path) :=
  diff_decodes sampleRecords_describes [] [] ['s']

end Law

end CortexHarness.Sync.GitDiff
