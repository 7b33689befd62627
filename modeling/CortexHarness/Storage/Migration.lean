import Mathlib.Data.List.Nodup
import Mathlib.Data.List.Perm.Basic
import Mathlib.Logic.Function.Basic
import Mathlib.Algebra.BigOperators.Group.List.Basic
import Mathlib.Algebra.GroupWithZero.Nat

/-!
# Migration of a legacy store

Model of `migrate_legacy_layout` (`migration.py:26-166`): one store is copied to its new place, the
copy is compared with the source by one digest over the names and contents of the files, and a marker
next to the target records the digest of the source. A target with content is accepted when the
marker records the digest of the source, or when its own digest is the same.

* `Node` is what stands at a path; a `Tree` has its files with distinct, non-empty relative names
  and the folders below, empty ones included. Names are bytes; `encodable` says which are UTF-8.
* `Cut` is where an attempt is killed, or stopped by an error of the system: before anything is
  written, in the middle of the copy (`Leaves`), or between the verification and the last byte of
  the marker. The lock files keep other cooperating processes away.
* Opening the copy to list its collections is a read (`inventory`), as the comment over the leases
  says.

Results:
* `partial_copy_rejected`: a copy that was cut is never as long as the source, so its digest is
  another one;
* `safe_of_absent`: where nothing stands and no marker records the digest, no run accepts a wrong
  target;
* **`migration_sound_iff`**: whatever attempts are made, each target reported holds the files of the
  source, exactly when the target is `Safe`.
-/

namespace CortexHarness.Storage.Migration

/-! ## Files -/

abbrev Bytes := List UInt8

/-- A file with its path below the root, `relative_to(path).as_posix()`. -/
structure File where
  name : Bytes
  content : Bytes
  deriving DecidableEq

structure Tree where
  files : List File
  folders : List Bytes
  distinct : (files.map File.name).Nodup
  named : ∀ f ∈ files, f.name ≠ []

/-- What stands at a path. -/
inductive Node where
  | absent
  | file (content : Bytes)
  | dir (tree : Tree)

/-- The files at a path; the root itself has no name. -/
def Node.files : Node → List File
  | .absent => []
  | .file content => [⟨[], content⟩]
  | .dir tree => tree.files

/-- The same relative paths with the same contents. -/
def SameFiles (a b : Node) : Prop := ∀ f, f ∈ a.files ↔ f ∈ b.files

/-- What lies outside. -/
structure Platform where
  /-- `hashlib.sha256(data).hexdigest()` -/
  sha256 : Bytes → String
  /-- `name.encode()` does not raise -/
  encodable : Bytes → Bool
  /-- `_reopen_inventory`; `none` is an exception -/
  inventory : Node → Option (List String)

variable (P : Platform)

/-- `sorted(...)` of paths, part by part. -/
def Tree.sorted (t : Tree) : List File :=
  t.files.mergeSort fun a b => decide (a.name.splitOn 47 ≤ b.name.splitOn 47)

/-- The bytes that `_tree_digest` feeds to the hash; `none` is a name that cannot be encoded. -/
def stream : Node → Option Bytes
  | .absent => some []
  | .file content => some content
  | .dir t =>
    if t.files.all fun f => P.encodable f.name then
      some (t.sorted.flatMap fun f => f.name ++ f.content)
    else none

/-- `_tree_digest` -/
def treeDigest (node : Node) : Option String := (stream P node).map P.sha256

/-- `_has_content` -/
def hasContent : Node → Bool
  | .absent => false
  | .file _ => true
  | .dir t => !t.files.isEmpty || !t.folders.isEmpty

/-! ## One store -/

/-- A legacy store and its new place. -/
structure Store where
  source : Node
  target : Node
  /-- `source_sha256` of the marker; `none` if there is no readable marker -/
  marker : Option String
  /-- the name of the source, for a copy into a directory -/
  base : Bytes
  based : base ≠ []

inductive Action where
  | wouldCopy
  | copied
  | verifiedNoop
  deriving DecidableEq

/-- `MigrationItem`, with what stands at its two paths. -/
structure Item where
  source : Node
  target : Node
  action : Action
  digest : String
  inventory : List String

/-- How an attempt at one store ends. -/
inductive Outcome where
  | skipped
  | stopped
  | reported (item : Item)

/-- The tree of one file. -/
def single (name content : Bytes) (h : name ≠ []) : Tree where
  files := [⟨name, content⟩]
  folders := []
  distinct := List.nodup_singleton _
  named f hf := by rwa [List.mem_singleton.mp hf]

/-- `shutil.copytree(source, target, dirs_exist_ok=False)` or `shutil.copy2(source, target)`, where
the target has no content; `none` is `FileExistsError`. -/
def copyOf (s : Store) : Option Node :=
  match s.source, s.target with
  | .dir t, .absent => some (.dir t)
  | .file content, .dir _ => some (.dir (single s.base content s.based))
  | .file content, _ => some (.file content)
  | _, _ => none

/-- Where an attempt is cut. -/
inductive Cut where
  | early
  | copying (left : Node)
  | verified (marker : Option String)

/-- `marker is None or marker.get("source_sha256") != source_digest`, and the digests compared. -/
def accepts (s : Store) (digest : String) : Bool :=
  s.marker = some digest || treeDigest P s.target = some digest

/-- What is done where the target has content: it is accepted, or the attempt fails. -/
def verifyTarget (dryRun : Bool) (s : Store) (digest : String) : Outcome :=
  if accepts P s digest then
    match if dryRun then some [] else P.inventory s.target with
    | none => .stopped
    | some inventory => .reported ⟨s.source, s.target, .verifiedNoop, digest, inventory⟩
  else .stopped

/-- What is done after the copy: the digests are compared, the store is opened, and the marker is
written. -/
def verifyCopy (cut : Option Cut) (s : Store) (target : Node) (digest : String) :
    Store × Outcome :=
  if treeDigest P target ≠ some digest then ({ s with target }, .stopped)
  else
    match cut with
    | some (.verified marker) => ({ s with target, marker }, .stopped)
    | _ =>
      match P.inventory target with
      | none => ({ s with target }, .stopped)
      | some inventory =>
        ({ s with target, marker := some digest },
          .reported ⟨s.source, target, .copied, digest, inventory⟩)

/-- The copy into an empty place. -/
def copyStore (cut : Option Cut) (s : Store) (digest : String) : Store × Outcome :=
  match cut with
  | some (.copying left) => ({ s with target := left }, .stopped)
  | _ =>
    match copyOf s with
    | none => (s, .stopped)
    | some target => verifyCopy P cut s target digest

/-- `source.exists()` -/
def Node.exists : Node → Bool
  | .absent => false
  | _ => true

def Cut.isEarly : Cut → Bool
  | .early => true
  | _ => false

/-- The body of the loop of `migrate_legacy_layout`. -/
def migrateStore (dryRun : Bool) (cut : Option Cut) (s : Store) : Store × Outcome :=
  if !s.source.exists then (s, .skipped)
  else if cut.any Cut.isEarly then (s, .stopped)
  else
    match treeDigest P s.source with
    | none => (s, .stopped)
    | some digest =>
      if hasContent s.target then (s, verifyTarget P dryRun s digest)
      else if dryRun then (s, .reported ⟨s.source, s.target, .wouldCopy, digest, []⟩)
      else copyStore P cut s digest

/-- The stores one after the other, each with where its attempt is cut; the report is lost when one
of them stops. -/
def migrateLegacyLayout (dryRun : Bool) : List (Store × Option Cut) →
    List Store × Option (List Item)
  | [] => ([], some [])
  | (s, cut) :: rest =>
    match migrateStore P dryRun cut s with
    | (s, .stopped) => (s :: rest.map Prod.fst, none)
    | (s, .skipped) =>
      let (stores, report) := migrateLegacyLayout dryRun rest
      (s :: stores, report)
    | (s, .reported item) =>
      let (stores, report) := migrateLegacyLayout dryRun rest
      (s :: stores, report.map (item :: ·))

/-! ## Cut copies -/

/-- Files that are copied one after the other, the last one perhaps not to its end. -/
def PartialFiles (files left : List File) : Prop :=
  ∃ order, List.Perm order files ∧ ∃ n, left = order.take n ∨
    ∃ f rest k, order.drop n = f :: rest ∧
      left = order.take n ++ [{ f with content := f.content.take k }]

/-- What an attempt that was cut may leave at the target. -/
inductive Leaves (s : Store) : Node → Prop where
  | untouched : Leaves s s.target
  | tree {t left : Tree} : s.source = .dir t → s.target = .absent →
      PartialFiles t.files left.files → left.folders ⊆ t.folders → Leaves s (.dir left)
  | file {content : Bytes} (k : Nat) : s.source = .file content → s.target = .absent →
      Leaves s (.file (content.take k))
  | inside {content : Bytes} {t : Tree} (k : Nat) : s.source = .file content → s.target = .dir t →
      Leaves s (.dir (single s.base (content.take k) s.based))

/-- The cut can happen in this state. -/
def Cut.Possible (s : Store) : Cut → Prop
  | .early => True
  | .copying left => Leaves s left
  | .verified marker => marker = s.marker ∨ marker = none ∨ marker = treeDigest P s.source

/-! ## Runs -/

/-- One attempt. -/
structure Attempt where
  dryRun : Bool
  cut : Option Cut

def Attempt.next (a : Attempt) (s : Store) : Store := (migrateStore P a.dryRun a.cut s).1

/-- What the attempt reports. -/
def Attempt.item? (a : Attempt) (s : Store) : Option Item :=
  match (migrateStore P a.dryRun a.cut s).2 with
  | .reported item => some item
  | _ => none

/-- Every cut of the run can happen where it does. -/
def Possible (s : Store) : List Attempt → Prop
  | [] => True
  | a :: attempts => (∀ c, a.cut = some c → c.Possible P s) ∧ Possible (a.next P s) attempts

/-- What stands where after a run. -/
def after (s : Store) (attempts : List Attempt) : Store :=
  attempts.foldl (fun s a => a.next P s) s

/-- What the run reports. -/
def items (s : Store) : List Attempt → List Item
  | [] => []
  | a :: attempts => (a.item? P s).toList ++ items (a.next P s) attempts

/-- A target that is reported as copied or verified has the files of the source. -/
def Item.Sound (item : Item) : Prop :=
  item.action ≠ .wouldCopy → SameFiles item.source item.target

/-- `target` has the files of the source if the marker records the source, or if the names and
contents of its files are the same bytes. -/
def Told (s : Store) (target : Node) : Prop :=
  s.marker = treeDigest P s.source ∨ stream P target = stream P s.source →
    SameFiles s.source target

/-- Wherever a file stands at the target, or would after a cut copy, it is the right one. -/
def Safe (s : Store) : Prop :=
  s.source.exists = false ∨ stream P s.source = none ∨
    if hasContent s.target then Told P s s.target
    else ∀ left, Leaves s left → hasContent left = true → Told P s left

/-! ## The length of a stream -/

variable {P} {s : Store} {t left : Tree} {files : List File} {target : Node} {digest : String}

/-- How many bytes the files bring to the stream. -/
def weight (files : List File) : Nat := (files.map fun f => f.name.length + f.content.length).sum

theorem weight_append (a b : List File) : weight (a ++ b) = weight a + weight b := by
  rw [weight, List.map_append, List.sum_append]
  rfl

theorem weight_perm {a b : List File} (h : List.Perm a b) : weight a = weight b :=
  (h.map _).sum_eq

theorem weight_eq_zero (hnamed : ∀ f ∈ files, f.name ≠ []) (h : weight files = 0) : files = [] := by
  cases files with
  | nil => rfl
  | cons f files =>
    have hlen := List.length_pos_of_ne_nil (hnamed f List.mem_cons_self)
    rw [weight, List.map_cons, List.sum_cons] at h
    omega

theorem length_stream {bytes : Bytes} (h : stream P (.dir t) = some bytes) :
    bytes.length = weight t.files := by
  obtain ⟨-, hbytes⟩ := Option.ite_none_right_eq_some.mp h
  rw [← Option.some.inj hbytes, List.length_flatMap,
    weight_perm (List.mergeSort_perm t.files fun a b =>
      decide (a.name.splitOn 47 ≤ b.name.splitOn 47)).symm]
  simp only [weight, List.length_append, Tree.sorted]

/-- A copy that is as long as the source is complete. -/
theorem PartialFiles.complete {left : List File} (h : PartialFiles files left)
    (hnamed : ∀ f ∈ files, f.name ≠ []) (hweight : weight left = weight files) :
    ∀ f, f ∈ files ↔ f ∈ left := by
  obtain ⟨order, hperm, n, hleft⟩ := h
  have hnamed : ∀ f ∈ order, f.name ≠ [] := fun f hf => hnamed f (hperm.mem_iff.mp hf)
  have hsplit : weight order = weight (order.take n) + weight (order.drop n) := by
    rw [← weight_append, List.take_append_drop]
  rw [← weight_perm hperm] at hweight
  have heq : left = order := by
    rcases hleft with rfl | ⟨f, rest, k, hdrop, rfl⟩
    · have hnil : order.drop n = [] :=
        weight_eq_zero (fun f hf => hnamed f (List.mem_of_mem_drop hf)) (by omega)
      rw [← List.take_append_drop n order, hnil, List.append_nil, List.take_take, Nat.min_self]
    · rw [weight_append] at hweight
      have hrest : weight (order.drop n) = f.name.length + f.content.length + weight rest := by
        rw [hdrop, weight, List.map_cons, List.sum_cons]
        rfl
      have htorn : weight [{ f with content := f.content.take k }] =
          f.name.length + min k f.content.length := by
        simp [weight]
      have hnil : rest = [] := weight_eq_zero (fun g hg => hnamed g (List.mem_of_mem_drop
        (hdrop ▸ List.mem_cons_of_mem f hg))) (by omega)
      have hwhole : f.content.take k = f.content := List.take_of_length_le (by omega)
      rw [hwhole, ← hnil, ← hdrop, List.take_append_drop]
  intro f
  rw [heq, hperm.mem_iff]

/-! ## Copies -/

theorem SameFiles.refl (a : Node) : SameFiles a a := fun _ => Iff.rfl

theorem stream_of_digest (hsha : Function.Injective P.sha256) {a b : Node} {digest : String}
    (ha : treeDigest P a = some digest) (hb : treeDigest P b = some digest) :
    ∃ bytes, stream P a = some bytes ∧ stream P b = some bytes := by
  obtain ⟨bytes, hbytes, rfl⟩ := Option.map_eq_some_iff.mp ha
  obtain ⟨bytes', hbytes', hsame⟩ := Option.map_eq_some_iff.mp hb
  exact ⟨bytes, hbytes, hbytes'.trans (congrArg some (hsha hsame))⟩

/-- **A copy that was cut is not verified**, where nothing stood before. -/
theorem partial_copy_rejected (hsha : Function.Injective P.sha256) (habsent : s.target = .absent)
    (hleft : Leaves s target) (hcontent : hasContent target = true)
    (hsource : treeDigest P s.source = some digest) (htarget : treeDigest P target = some digest) :
    SameFiles s.source target := by
  obtain ⟨bytes, hbytes, hbytes'⟩ := stream_of_digest hsha hsource htarget
  cases hleft with
  | untouched =>
    rw [habsent] at hcontent
    cases hcontent
  | tree hs _ hpart _ =>
    rw [hs] at hbytes ⊢
    exact hpart.complete (Tree.named _) ((length_stream hbytes').symm.trans (length_stream hbytes))
  | file k hs _ =>
    rw [hs] at hbytes ⊢
    rw [show (List.take k _) = _ from Option.some.inj (hbytes'.trans hbytes.symm)]
    exact SameFiles.refl _
  | inside k _ ht =>
    rw [habsent] at ht
    cases ht

theorem copyOf_same (hsha : Function.Injective P.sha256) (hcopy : copyOf s = some target)
    (hsource : treeDigest P s.source = some digest) (htarget : treeDigest P target = some digest) :
    SameFiles s.source target := by
  obtain ⟨bytes, hbytes, hbytes'⟩ := stream_of_digest hsha hsource htarget
  unfold copyOf at hcopy
  split at hcopy
  · next t hs ht =>
    rw [hs, ← Option.some.inj hcopy]
    exact SameFiles.refl _
  · next content t hs ht =>
    -- Inside a directory the name of the file makes the stream longer.
    rw [← Option.some.inj hcopy] at hbytes'
    rw [hs] at hbytes
    have hlen := length_stream hbytes'
    have hbase := List.length_pos_of_ne_nil s.based
    have hweight : weight (single s.base content s.based).files =
        s.base.length + content.length := by
      simp [single, weight]
    have hcontent : content = bytes := Option.some.inj hbytes
    rw [hweight, ← hcontent] at hlen
    omega
  · next content hs _ =>
    rw [hs, ← Option.some.inj hcopy]
    exact SameFiles.refl _
  · cases hcopy

/-- **Where nothing stands and no marker records the digest, the target is safe.** -/
theorem safe_of_absent (hsha : Function.Injective P.sha256) (habsent : s.target = .absent)
    (hmarker : s.marker ≠ treeDigest P s.source) : Safe P s := by
  cases hbytes : stream P s.source with
  | none => exact Or.inr (Or.inl hbytes)
  | some bytes =>
    refine Or.inr (Or.inr ?_)
    rw [habsent, if_neg (by simp [hasContent])]
    intro target hleft hcontent haccepts
    have hstream := haccepts.resolve_left hmarker
    have hsource : treeDigest P s.source = some (P.sha256 bytes) := by rw [treeDigest, hbytes]; rfl
    have htarget : treeDigest P target = some (P.sha256 bytes) := by
      rw [treeDigest, hstream, hbytes]
      rfl
    exact partial_copy_rejected hsha habsent hleft hcontent hsource htarget

theorem accepts_iff (hsha : Function.Injective P.sha256)
    (hdigest : treeDigest P s.source = some digest) : accepts P s digest = true ↔
      s.marker = treeDigest P s.source ∨ stream P s.target = stream P s.source := by
  rw [accepts, Bool.or_eq_true, decide_eq_true_iff, decide_eq_true_iff, hdigest]
  refine or_congr_right ⟨fun htarget => ?_, fun hstream => ?_⟩
  · obtain ⟨bytes, hsource, htarget⟩ := stream_of_digest hsha hdigest htarget
    rw [hsource, htarget]
  · rw [← hdigest, treeDigest, treeDigest, hstream]

theorem stream_ne_none (hdigest : treeDigest P s.source = some digest) :
    stream P s.source ≠ none := by
  intro hnone
  rw [treeDigest, hnone] at hdigest
  cases hdigest

theorem Safe.told (hsafe : Safe P s) (hexists : s.source.exists = true)
    (hdigest : treeDigest P s.source = some digest) :
    if hasContent s.target then Told P s s.target
    else ∀ left, Leaves s left → hasContent left = true → Told P s left := by
  rcases hsafe with hgone | hnone | htold
  · rw [hgone] at hexists
    cases hexists
  · exact absurd hnone (stream_ne_none hdigest)
  · exact htold

/-! ## One attempt -/

/-- What an attempt at `s` may come to. -/
inductive Does (P : Platform) (s : Store) : Store → Outcome → Prop where
  | nothing {outcome : Outcome} : (∀ item, outcome ≠ .reported item) → Does P s s outcome
  | planned {item : Item} : item.source = s.source → item.action = .wouldCopy →
      Does P s s (.reported item)
  | accepted {digest : String} {item : Item} : s.source.exists = true →
      treeDigest P s.source = some digest → hasContent s.target = true →
      accepts P s digest = true → item.source = s.source → item.target = s.target →
      Does P s s (.reported item)
  | left {target : Node} : s.source.exists = true → hasContent s.target = false →
      Leaves s target → Does P s { s with target } .stopped
  | verified {target : Node} {digest : String} {marker : Option String} {outcome : Outcome} :
      hasContent s.target = false → copyOf s = some target →
      treeDigest P s.source = some digest → treeDigest P target = some digest →
      (∀ item, outcome = .reported item → item.source = s.source ∧ item.target = target) →
      Does P s { s with target, marker } outcome

theorem leaves_of_copyOf (hempty : hasContent s.target = false) (h : copyOf s = some target) :
    Leaves s target := by
  unfold copyOf at h
  split at h
  · next t hs ht =>
    rw [← Option.some.inj h]
    exact .tree hs ht ⟨t.files, List.Perm.refl _, t.files.length, Or.inl (by simp)⟩ (by simp)
  · next content t hs ht =>
    rw [← Option.some.inj h]
    have hleaves := Leaves.inside (s := s) content.length hs ht
    rwa [List.take_length] at hleaves
  · next content hs hdir =>
    rw [← Option.some.inj h]
    cases ht : s.target with
    | absent =>
      have hleaves := Leaves.file (s := s) content.length hs ht
      rwa [List.take_length] at hleaves
    | file _ =>
      rw [ht] at hempty
      cases hempty
    | dir t => exact absurd ht (hdir t)
  · cases h

theorem does_verifyTarget (dryRun : Bool) (hexists : s.source.exists = true)
    (hdigest : treeDigest P s.source = some digest) (hcontent : hasContent s.target = true) :
    Does P s s (verifyTarget P dryRun s digest) := by
  unfold verifyTarget
  split
  · next haccepts =>
    split
    · exact .nothing fun _ h => by cases h
    · exact .accepted hexists hdigest hcontent haccepts rfl rfl
  · exact .nothing fun _ h => by cases h

theorem does_verifyCopy (cut : Option Cut) (hexists : s.source.exists = true)
    (hempty : hasContent s.target = false) (hcopy : copyOf s = some target)
    (hdigest : treeDigest P s.source = some digest) :
    Does P s (verifyCopy P cut s target digest).1 (verifyCopy P cut s target digest).2 := by
  unfold verifyCopy
  split
  · exact .left hexists hempty (leaves_of_copyOf hempty hcopy)
  · next hsame =>
    have hverified {marker : Option String} {outcome : Outcome}
        (h : ∀ item, outcome = .reported item → item.source = s.source ∧ item.target = target) :
        Does P s { s with target, marker } outcome :=
      .verified hempty hcopy hdigest (not_not.mp hsame) h
    split
    · exact hverified fun _ h => by cases h
    · split
      · exact hverified fun _ h => by cases h
      · refine hverified fun item h => ?_
        cases h
        exact ⟨rfl, rfl⟩

theorem does_copyStore {cut : Option Cut} (hcut : ∀ c, cut = some c → c.Possible P s)
    (hexists : s.source.exists = true) (hempty : hasContent s.target = false)
    (hdigest : treeDigest P s.source = some digest) :
    Does P s (copyStore P cut s digest).1 (copyStore P cut s digest).2 := by
  unfold copyStore
  split
  · next target => exact .left hexists hempty (hcut (.copying target) rfl)
  · split
    · exact .nothing fun _ h => by cases h
    · next target hcopy => exact does_verifyCopy cut hexists hempty hcopy hdigest

/-- **What one attempt can do.** -/
theorem does_migrateStore (dryRun : Bool) {cut : Option Cut}
    (hcut : ∀ c, cut = some c → c.Possible P s) :
    Does P s (migrateStore P dryRun cut s).1 (migrateStore P dryRun cut s).2 := by
  unfold migrateStore
  split
  · exact .nothing fun _ h => by cases h
  · next hexists =>
    have hexists : s.source.exists = true := by simpa using hexists
    split
    · exact .nothing fun _ h => by cases h
    · split
      · exact .nothing fun _ h => by cases h
      · next digest hdigest =>
        split
        · next hcontent => exact does_verifyTarget dryRun hexists hdigest hcontent
        · next hempty =>
          split
          · exact .planned rfl rfl
          · exact does_copyStore hcut hexists (Bool.not_eq_true _ ▸ hempty) hdigest

theorem Does.source {s' : Store} {outcome : Outcome} (h : Does P s s' outcome) :
    s'.source = s.source := by
  cases h <;> rfl

theorem Does.item_source {s' : Store} {item : Item} (h : Does P s s' (.reported item)) :
    item.source = s.source := by
  cases h with
  | nothing h => exact absurd rfl (h item)
  | planned h _ => exact h
  | accepted _ _ _ _ h _ => exact h
  | verified _ _ _ _ h => exact (h item rfl).1

theorem Does.item_sound (hsha : Function.Injective P.sha256) (hsafe : Safe P s) {s' : Store}
    {item : Item} (h : Does P s s' (.reported item)) : item.Sound := by
  intro hcopied
  cases h with
  | nothing h => exact absurd rfl (h item)
  | planned _ h => exact absurd h hcopied
  | accepted hexists hdigest hcontent haccepts hsource htarget =>
    rw [hsource, htarget]
    have htold := hsafe.told hexists hdigest
    rw [if_pos hcontent] at htold
    exact htold ((accepts_iff hsha hdigest).mp haccepts)
  | verified _ hcopy hdigest htarget h =>
    rw [(h item rfl).1, (h item rfl).2]
    exact copyOf_same hsha hcopy hdigest htarget

/-! ## Runs -/

/-- What a second cut leaves, the first one could have left. -/
theorem Leaves.again (hleft : Leaves s target) (hempty : hasContent target = false)
    {target' : Node} (h : Leaves { s with target } target') : Leaves s target' := by
  cases h with
  | untouched => exact hleft
  | tree hs ht hpart hfolders =>
    refine .tree hs ?_ hpart hfolders
    cases hleft with
    | untouched => exact ht
    | tree => cases ht
    | file => cases ht
    | inside => cases ht
  | file k hs ht =>
    refine .file k hs ?_
    cases hleft with
    | untouched => exact ht
    | tree => cases ht
    | file => cases ht
    | inside => cases ht
  | inside k hs ht =>
    cases hleft with
    | untouched => exact .inside k hs ht
    | tree hs' =>
      rw [hs'] at hs
      cases hs
    | file => cases ht
    | inside => cases hempty

theorem leaves_copy (hcopy : copyOf s = some target) (hempty : hasContent target = false)
    {marker : Option String} {left : Node} (h : Leaves { s with target, marker } left) :
    left = target := by
  unfold copyOf at hcopy
  split at hcopy
  · next t hs _ =>
    cases Option.some.inj hcopy
    cases h with
    | untouched => rfl
    | tree _ ht => cases ht
    | file _ _ ht => cases ht
    | inside _ hs' _ =>
      rw [hs] at hs'
      cases hs'
  · cases Option.some.inj hcopy
    cases hempty
  · cases Option.some.inj hcopy
    cases hempty
  · cases hcopy

/-- **A safe target stays safe.** -/
theorem Does.safe (hsha : Function.Injective P.sha256) (hsafe : Safe P s) {s' : Store}
    {outcome : Outcome} (h : Does P s s' outcome) : Safe P s' := by
  cases h with
  | nothing _ => exact hsafe
  | planned _ _ => exact hsafe
  | accepted _ _ _ _ _ _ => exact hsafe
  | left hexists hempty hleft =>
    rcases hsafe with hgone | hnone | htold
    · exact Or.inl hgone
    · exact Or.inr (Or.inl hnone)
    · refine Or.inr (Or.inr ?_)
      rw [if_neg (by rw [hempty]; exact Bool.false_ne_true)] at htold
      split
      · next hcontent => exact htold _ hleft hcontent
      · next hnone =>
        exact fun left h => htold left (hleft.again (Bool.not_eq_true _ ▸ hnone) h)
  | verified hempty hcopy hdigest htarget _ =>
    have hsame := copyOf_same hsha hcopy hdigest htarget
    refine Or.inr (Or.inr ?_)
    split
    · exact fun _ => hsame
    · next hnone =>
      intro left h _ _
      rw [leaves_copy hcopy (Bool.not_eq_true _ ▸ hnone) h]
      exact hsame

theorem Attempt.does {a : Attempt} (h : ∀ c, a.cut = some c → c.Possible P s) :
    Does P s (a.next P s) (migrateStore P a.dryRun a.cut s).2 :=
  does_migrateStore a.dryRun h

theorem Attempt.reported {a : Attempt} {item : Item} (h : a.item? P s = some item) :
    (migrateStore P a.dryRun a.cut s).2 = .reported item := by
  unfold Attempt.item? at h
  split at h
  · next heq => rw [heq, Option.some.inj h]
  · cases h

theorem run_sound (hsha : Function.Injective P.sha256) (attempts : List Attempt) (s : Store)
    (hsafe : Safe P s) (hpossible : Possible P s attempts) :
    (after P s attempts).source = s.source ∧
      ∀ item ∈ items P s attempts, item.source = s.source ∧ item.Sound := by
  induction attempts generalizing s with
  | nil => exact ⟨rfl, fun item h => by cases h⟩
  | cons a attempts ih =>
    have hdoes := Attempt.does hpossible.1
    obtain ⟨hsource, hitems⟩ := ih (a.next P s) (hdoes.safe hsha hsafe) hpossible.2
    refine ⟨hsource.trans hdoes.source, fun item hitem => ?_⟩
    rcases List.mem_append.mp hitem with h | h
    · rw [Attempt.reported (Option.mem_toList.mp h)] at hdoes
      exact ⟨hdoes.item_source, hdoes.item_sound hsha hsafe⟩
    · obtain ⟨hsame, hsound⟩ := hitems item h
      exact ⟨hsame.trans hdoes.source, hsound⟩

theorem dryRun_reports (hexists : s.source.exists = true)
    (hdigest : treeDigest P s.source = some digest) (hcontent : hasContent s.target = true)
    (haccepts : accepts P s digest = true) :
    ⟨s.source, s.target, .verifiedNoop, digest, []⟩ ∈ items P s [⟨true, none⟩] := by
  simp [items, Attempt.item?, migrateStore, verifyTarget, hexists, hdigest, hcontent, haccepts]

theorem cut_leaves (hexists : s.source.exists = true)
    (hdigest : treeDigest P s.source = some digest) (hempty : hasContent s.target = false)
    (target : Node) :
    (⟨false, some (.copying target)⟩ : Attempt).next P s = { s with target } := by
  simp [Attempt.next, migrateStore, copyStore, Cut.isEarly, hexists, hdigest, hempty]

/-- **The migration is sound for safe targets only**: whatever is attempted and wherever it is cut,
the source stays as it is and each target reported as copied or verified has its files. -/
theorem migration_sound_iff (P : Platform) (hsha : Function.Injective P.sha256) (s : Store) :
    (∀ attempts, Possible P s attempts → (after P s attempts).source = s.source ∧
      ∀ item ∈ items P s attempts, item.source = s.source ∧ item.Sound) ↔ Safe P s := by
  refine ⟨fun h => ?_, fun hsafe attempts => run_sound hsha attempts s hsafe⟩
  cases hexists : s.source.exists with
  | false => exact Or.inl hexists
  | true =>
    refine Or.inr (or_iff_not_imp_left.mpr fun hsome => ?_)
    obtain ⟨bytes, hbytes⟩ := Option.ne_none_iff_exists'.mp hsome
    have hdigest : treeDigest P s.source = some (P.sha256 bytes) := by
      rw [treeDigest, hbytes]
      rfl
    split
    · next hcontent =>
      intro htold
      have haccepts := (accepts_iff hsha hdigest).mpr htold
      have hpossible : Possible P s [⟨true, none⟩] := ⟨(fun _ hc => nomatch hc), trivial⟩
      have hitem := dryRun_reports hexists hdigest hcontent haccepts
      exact ((h _ hpossible).2 _ hitem).2 (by simp)
    · next hnone =>
      intro left hleft hcontent htold
      have haccepts := (accepts_iff (s := { s with target := left }) hsha hdigest).mpr htold
      have hnext := cut_leaves hexists hdigest (Bool.not_eq_true _ ▸ hnone) left
      have hpossible : Possible P s [⟨false, some (.copying left)⟩, ⟨true, none⟩] := by
        refine ⟨fun c hc => ?_, (fun _ hc => nomatch hc), trivial⟩
        cases hc
        exact hleft
      have hitem := dryRun_reports (s := { s with target := left }) hexists hdigest hcontent haccepts
      rw [← hnext] at hitem
      have hsame := ((h _ hpossible).2 _ (List.mem_append_right _ hitem)).2 (by simp)
      rwa [hnext] at hsame

/-- A hash that gives `abc` its digest, and every other string of bytes one that no digest is. -/
def sampleSha256 (bytes : Bytes) : String :=
  if bytes = [97, 98, 99] then "ba7816bf8f01cfea414140de5dae2223b00361a396177a9cb410ff61f20015ad"
  else String.ofList ('-' :: bytes.map fun byte => Char.ofNat byte.toNat)

theorem sampleSha256_injective : Function.Injective sampleSha256 := by
  have hbyte : Function.Injective fun byte : UInt8 => Char.ofNat byte.toNat := by
    intro a b h
    have hval (c : UInt8) : (Char.ofNat c.toNat).toNat = c.toNat := by
      have hvalid : c.toNat.isValidChar := Or.inl (by have := c.toNat_lt; omega)
      rw [Char.ofNat, dif_pos hvalid]
      rfl
    have hnat := congrArg Char.toNat h
    simp only [hval] at hnat
    exact UInt8.toNat_inj.mp hnat
  have hne (bytes : Bytes) : String.ofList ('-' :: bytes.map fun byte => Char.ofNat byte.toNat) ≠
      "ba7816bf8f01cfea414140de5dae2223b00361a396177a9cb410ff61f20015ad" := by
    intro h
    have hhead := congrArg (fun s => s.toList.head?) h
    simp at hhead
  intro a b h
  unfold sampleSha256 at h
  split at h <;> split at h
  · next ha hb => rw [ha, hb]
  · exact absurd h.symm (hne b)
  · exact absurd h (hne a)
  · have hlist := String.ofList_injective h
    exact List.map_injective_iff.mpr hbyte (List.cons.inj hlist).2

/-- A store of one file, and what stands at its new place. -/
def sampleStore (target : Node) : Store where
  source := .dir (single [97] [98, 99] (by decide))
  target := target
  marker := none
  base := [99]
  based := by decide

def samplePlatform : Platform where
  sha256 := sampleSha256
  encodable _ := true
  inventory _ := some []

theorem migration_sound_sample :
    (after samplePlatform (sampleStore .absent) [⟨true, none⟩, ⟨false, none⟩]).source =
        (sampleStore .absent).source ∧
      ∀ item ∈ items samplePlatform (sampleStore .absent) [⟨true, none⟩, ⟨false, none⟩],
        item.source = (sampleStore .absent).source ∧ item.Sound :=
  (migration_sound_iff samplePlatform sampleSha256_injective (sampleStore .absent)).mpr
    (safe_of_absent sampleSha256_injective rfl nofun) _ ⟨nofun, nofun, trivial⟩

/-- **The file `a` with `bc` and the file `ab` with `c` are one stream**, so a target that holds the
other one is reported as verified. -/
theorem divergent_target_accepted : ∃ item ∈ items samplePlatform
    (sampleStore (.dir (single [97, 98] [99] (by decide)))) [⟨true, none⟩],
    item.action = .verifiedNoop ∧ ¬ SameFiles item.source item.target := by
  have hdigest : treeDigest samplePlatform (sampleStore (.dir (single [97, 98] [99]
      (by decide)))).source = some (sampleSha256 [97, 98, 99]) := by
    simp [treeDigest, stream, sampleStore, single, Tree.sorted, samplePlatform]
  have haccepts : accepts samplePlatform (sampleStore (.dir (single [97, 98] [99] (by decide))))
      (sampleSha256 [97, 98, 99]) = true := by
    simp [accepts, treeDigest, stream, sampleStore, single, Tree.sorted, samplePlatform]
  refine ⟨_, dryRun_reports rfl hdigest rfl haccepts, rfl, fun hsame => ?_⟩
  have hmem := (hsame ⟨[97], [98, 99]⟩).mp List.mem_cons_self
  simp [sampleStore, single, Node.files] at hmem

end CortexHarness.Storage.Migration
