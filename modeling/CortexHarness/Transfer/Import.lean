import CortexHarness.Transfer.Bundle

/-!
# All or nothing

An import replaces lane after lane. One that is refused at a later lane leaves the earlier ones
replaced, and two lanes that are backed up under one name in one second share, or lose, a backup.

* `OwnNames`: no backup that is to be made has the name of another one;
* `ImportSound` is what an import promises;
* `ImportCovered` is the condition: every lane can be replaced under its own name, or the import is
  refused before it has changed anything.

Results:
* `replaced_lanes` and `replaced_backups`: what the loop leaves;
* **`import_sound_iff`**: an import keeps its promise exactly under the condition;
* **`same_second_backup_lost`**: both database files are backed up in the same second.
-/

namespace CortexHarness.Transfer

variable (sha256 : Bytes → String) (layout : Layout) (resolved : Except TransferError Layout)
  (stamp : Lane → String) (overwrite : Bool) (source : Source) (archive : Archive) (role : Role)
  (dest : Destination)

/-- The lanes that the archive has for the role. -/
def plan : List Lane := (lanePlan role).filter fun lane => (archive.stored lane).isSome

/-- The backups of these lanes have names of their own. -/
structure OwnNames (lanes : List Lane) : Prop where
  fresh : ∀ lane ∈ lanes, hasData (dest.lanes lane) = true →
    backupName layout stamp lane ∉ dest.backups
  distinct : ∀ lane ∈ lanes, ∀ other ∈ lanes, hasData (dest.lanes lane) = true →
    hasData (dest.lanes other) = true →
      backupName layout stamp lane = backupName layout stamp other → lane = other

/-- **An import is all or nothing and loses no backup.** -/
structure ImportSound : Prop where
  raised : (importProject stamp overwrite resolved archive role dest).error ≠ none →
    (importProject stamp overwrite resolved archive role dest).dest.lanes = dest.lanes
  returned : (importProject stamp overwrite resolved archive role dest).error = none →
    ∀ lane ∈ plan archive role,
      (importProject stamp overwrite resolved archive role dest).dest.lanes lane =
        archive.stored lane ∧
      ∀ content, archive.stored lane = some (.file content) →
        archive.manifest.sha256 lane.owner = some (sha256 content)
  backups : ∀ layout, resolved = .ok layout →
    OwnNames layout stamp dest (importProject stamp overwrite resolved archive role dest).restored ∧
      ∀ lane ∈ (importProject stamp overwrite resolved archive role dest).restored, ∀ old,
        dest.lanes lane = some old → hasData (some old) = true →
          (importProject stamp overwrite resolved archive role dest).dest.backups.lookup
            (backupName layout stamp lane) = some old
  kept : ∀ name node, dest.backups.lookup name = some node →
    (importProject stamp overwrite resolved archive role dest).dest.backups.lookup name = some node

/-! ## The condition -/

/-- What holds data may be overwritten, and no database file is an empty directory. -/
def Restorable (lanes : List Lane) : Prop :=
  ∀ lane ∈ lanes, (hasData (dest.lanes lane) = true → overwrite = true) ∧
    ¬ (lane.store = .falkordb ∧ dest.lanes lane = some (.dir ∅))

/-- The backups once these lanes are backed up under their own names. -/
def backedUp (lanes : List Lane) : Backups :=
  lanes.foldl (fun backups lane =>
    match dest.lanes lane with
    | none => backups
    | some old =>
      if hasData (some old) then backups.insert (backupName layout stamp lane) old else backups)
    dest.backups

/-- Every database file of the archive was hashed as it was copied. -/
def HashedAsCopied : Prop :=
  ∀ lane ∈ plan archive role, ∀ content, archive.stored lane = some (.file content) →
    sha256 (source.hashed lane.owner) = sha256 content

/-- Every lane can be replaced under its own backup name, or the lanes before the first that cannot
hold what the archive has for them already. -/
def ImportCovered : Prop :=
  ∀ layout, resolved = .ok layout →
    (OwnNames layout stamp dest (plan archive role) ∧
      Restorable overwrite dest (plan archive role) ∧
      HashedAsCopied sha256 source archive role) ∨
    ∃ before lane after, plan archive role = before ++ lane :: after ∧
      OwnNames layout stamp dest before ∧ Restorable overwrite dest before ∧
      (∀ l ∈ before, archive.stored l = dest.lanes l) ∧
      Blocked layout stamp overwrite { dest with backups := backedUp layout stamp dest before } lane

variable {sha256 layout resolved stamp overwrite source archive role dest} {lanes : List Lane}
  {lane : Lane} {dest' : Destination} {projectId : String} {exportRole : Role}

/-! ## Backups under their own names -/

theorem OwnNames.subset {lanes' : List Lane} (h : OwnNames layout stamp dest lanes)
    (hsub : lanes' ⊆ lanes) : OwnNames layout stamp dest lanes' :=
  ⟨fun l hl => h.fresh l (hsub hl), fun l hl l' hl' => h.distinct l (hsub hl) l' (hsub hl')⟩

theorem backedUp_append (before : List Lane) (lane : Lane) :
    backedUp layout stamp dest (before ++ [lane]) =
      match dest.lanes lane with
      | none => backedUp layout stamp dest before
      | some old =>
        if hasData (some old) then
          (backedUp layout stamp dest before).insert (backupName layout stamp lane) old
        else backedUp layout stamp dest before := by
  unfold backedUp
  rw [List.foldl_append]
  rfl

theorem lookup_backedUp_other {name : String} (h : ∀ lane ∈ lanes,
    hasData (dest.lanes lane) = true → backupName layout stamp lane ≠ name) :
    (backedUp layout stamp dest lanes).lookup name = dest.backups.lookup name := by
  induction lanes using List.reverseRecOn with
  | nil => rfl
  | append_singleton lanes lane ih =>
    have hold := ih fun l hl => h l (List.mem_append_left _ hl)
    rw [backedUp_append]
    split
    · exact hold
    · rename_i old hlane
      split
      · rename_i hdata
        have hne := h lane (List.mem_append_right _ (List.mem_singleton_self _)) (hlane ▸ hdata)
        rw [Finmap.lookup_insert_of_ne _ hne.symm, hold]
      · exact hold

theorem lookup_backedUp (hown : OwnNames layout stamp dest lanes) (hlane : lane ∈ lanes)
    {old : Node} (hold : dest.lanes lane = some old) (hdata : hasData (some old) = true) :
    (backedUp layout stamp dest lanes).lookup (backupName layout stamp lane) = some old := by
  induction lanes using List.reverseRecOn with
  | nil => cases hlane
  | append_singleton lanes last ih =>
    by_cases hlast : last = lane
    · subst hlast
      rw [backedUp_append, hold]
      dsimp only
      rw [if_pos hdata, Finmap.lookup_insert]
    · have hin : lane ∈ lanes := by
        rcases List.mem_append.mp hlane with h | h
        · exact h
        · exact absurd (List.mem_singleton.mp h).symm hlast
      have hbefore := ih (hown.subset fun l hl => List.mem_append_left _ hl) hin
      rw [backedUp_append]
      split
      · exact hbefore
      · rename_i old' hlane'
        split
        · rename_i hdata'
          have hne : backupName layout stamp lane ≠ backupName layout stamp last := fun heq =>
            hlast (hown.distinct lane hlane last
              (List.mem_append_right _ (List.mem_singleton_self _)) (hold ▸ hdata)
              (hlane' ▸ hdata') heq).symm
          rw [Finmap.lookup_insert_of_ne _ hne, hbefore]
        · exact hbefore

theorem own_fresh {before : List Lane} (hown : OwnNames layout stamp dest (before ++ [lane]))
    (hnew : lane ∉ before) (hdata : hasData (dest.lanes lane) = true) :
    backupName layout stamp lane ∉ backedUp layout stamp dest before := by
  have hlast : lane ∈ before ++ [lane] := List.mem_append_right _ (List.mem_singleton_self _)
  have hother : ∀ l ∈ before, hasData (dest.lanes l) = true →
      backupName layout stamp l ≠ backupName layout stamp lane := by
    intro l hl hdata' heq
    exact hnew (hown.distinct l (List.mem_append_left _ hl) lane hlast hdata' hdata heq ▸ hl)
  rw [← Finmap.lookup_eq_none, lookup_backedUp_other hother, Finmap.lookup_eq_none]
  exact hown.fresh lane hlast hdata

/-! ## What the loop leaves -/

/-- What holds once these lanes are replaced. -/
structure Replaced (layout : Layout) (stamp : Lane → String) (overwrite : Bool) (archive : Archive)
    (dest : Destination) (lanes : List Lane) (dest' : Destination) : Prop where
  contents : ∀ lane, dest'.lanes lane = if lane ∈ lanes then archive.stored lane else dest.lanes lane
  restorable : Restorable overwrite dest lanes
  backups : OwnNames layout stamp dest lanes → dest'.backups = backedUp layout stamp dest lanes

theorem replaced_of_foldlM (hnodup : lanes.Nodup)
    (h : lanes.foldlM (replace layout stamp overwrite archive) dest = some dest') :
    Replaced layout stamp overwrite archive dest lanes dest' := by
  refine @Stopping.foldlM_invariant _ _ _ (Replaced layout stamp overwrite archive dest) dest
    ⟨by simp, by simp [Restorable], fun _ => rfl⟩ lanes ?_ dest' h
  intro before lane after t t' hlanes hbefore hstep
  have hnew : lane ∉ before := by
    intro hin
    rw [hlanes] at hnodup
    exact (List.nodup_append.mp hnodup).2.2 lane hin lane List.mem_cons_self rfl
  have hat : t.lanes lane = dest.lanes lane := by rw [hbefore.contents, if_neg hnew]
  obtain ⟨node, hstored, hstep⟩ := Option.bind_eq_some_iff.mp hstep
  cases hrestore : restoreLane layout stamp overwrite t lane node with
  | error e =>
    rw [hrestore] at hstep
    cases hstep
  | ok u =>
    rw [hrestore] at hstep
    cases hstep
    obtain ⟨hfree, hupdate, hbackups⟩ := restoreLane_ok hrestore
    refine ⟨fun l => ?_, fun l hl => ?_, fun hown => ?_⟩
    · rw [hupdate]
      by_cases hl : l = lane
      · subst hl
        simp [hstored]
      · simp [hbefore.contents, hl]
    · rcases List.mem_append.mp hl with hl | hl
      · exact hbefore.restorable l hl
      · rw [List.mem_singleton.mp hl]
        refine ⟨fun hdata => ?_, fun hempty => hfree (Or.inr ⟨hempty.1, hat ▸ hempty.2⟩)⟩
        rcases hbackups with ⟨hnone, -⟩ | ⟨-, -, -, hallowed, -⟩
        · rw [hat, hdata] at hnone
          cases hnone
        · exact hallowed
    · have hold := hbefore.backups (hown.subset fun l hl => List.mem_append_left _ hl)
      rw [backedUp_append]
      rcases hbackups with ⟨hnone, hsame⟩ | ⟨old, hlane, hdata, -, hmove⟩
      · rw [hat] at hnone
        rw [hsame, hold]
        split
        · rfl
        · rename_i old hlane
          rw [hlane] at hnone
          simp [hnone]
      · rw [hat] at hlane
        have hfresh : backupName layout stamp lane ∉ t.backups := by
          rw [hold]
          exact own_fresh hown hnew (hlane ▸ hdata)
        rw [move_fresh hfresh] at hmove
        rw [hlane]
        dsimp only
        rw [if_pos hdata, ← hold]
        exact (Except.ok.inj hmove).symm

theorem exists_foldlM (hnodup : lanes.Nodup) (hown : OwnNames layout stamp dest lanes)
    (hrestorable : Restorable overwrite dest lanes)
    (hstored : ∀ lane ∈ lanes, (archive.stored lane).isSome = true) :
    ∃ dest', lanes.foldlM (replace layout stamp overwrite archive) dest = some dest' := by
  induction lanes using List.reverseRecOn with
  | nil => exact ⟨dest, rfl⟩
  | append_singleton before lane ih =>
    have hlast : lane ∈ before ++ [lane] := List.mem_append_right _ (List.mem_singleton_self _)
    have hnew : lane ∉ before := fun hin =>
      (List.nodup_append.mp hnodup).2.2 lane hin lane List.mem_cons_self rfl
    have hdown := (List.nodup_append.mp hnodup).1
    obtain ⟨t, ht⟩ := ih hdown (hown.subset fun l hl => List.mem_append_left _ hl)
      (fun l hl => hrestorable l (List.mem_append_left _ hl))
      (fun l hl => hstored l (List.mem_append_left _ hl))
    have hbefore := replaced_of_foldlM hdown ht
    have hat : t.lanes lane = dest.lanes lane := by rw [hbefore.contents, if_neg hnew]
    have hbackups := hbefore.backups (hown.subset fun l hl => List.mem_append_left _ hl)
    obtain ⟨hallowed, hfile⟩ := hrestorable lane hlast
    -- Its backup has a name of its own, so that nothing blocks the lane.
    have hfree : ¬ Blocked layout stamp overwrite t lane := by
      rintro (⟨old, hold, hdata, hfalse | ⟨e, he⟩⟩ | ⟨hstore, hempty⟩)
      · rw [hallowed (by rw [← hat, hold, hdata])] at hfalse
        cases hfalse
      · have hfresh : backupName layout stamp lane ∉ t.backups := by
          rw [hbackups]
          exact own_fresh hown hnew (by rw [← hat, hold, hdata])
        rw [move_fresh hfresh] at he
        cases he
      · exact hfile ⟨hstore, hat ▸ hempty⟩
    obtain ⟨node, hnode⟩ := Option.isSome_iff_exists.mp (hstored lane hlast)
    obtain ⟨dest', hdest'⟩ := @restoreLane_of_not_blocked _ _ _ _ _ node hfree
    refine ⟨dest', ?_⟩
    rw [List.foldlM_append, ht]
    simp [replace, hnode, hdest', Except.toOption]

/-! ## The import -/

theorem plan_nodup : (plan archive role).Nodup := by
  refine List.Nodup.filter _ ?_
  cases role <;> decide

theorem stored_of_mem_plan (h : lane ∈ plan archive role) :
    (archive.stored lane).isSome = true := (List.mem_filter.mp h).2

theorem importProject_run (hschema : archive.manifest.schema = bundleSchema) (layout : Layout) :
    let r := importProject stamp overwrite (.ok layout) archive role dest
    ∃ rest, plan archive role = r.restored ++ rest ∧
      r.restored.foldlM (replace layout stamp overwrite archive) dest = some r.dest ∧
      (∀ lane after, rest = lane :: after → Blocked layout stamp overwrite r.dest lane) ∧
      (r.error = none ↔ rest = [] ∧ r.restored ≠ []) := by
  dsimp only
  obtain ⟨hdest, hplan, herror⟩ := @importLanes_run layout stamp overwrite archive dest
    (lanePlan role)
  obtain ⟨done, hdone, hfold, hstop⟩ := Stopping.run_iff.mp
    (Prod.mk.eta (p := Stopping.run (replace layout stamp overwrite archive) dest
      ((lanePlan role).filter fun lane => (archive.stored lane).isSome))).symm
  have hrestored : (importLanes layout stamp overwrite archive dest (lanePlan role)).2.1 = done :=
    List.append_cancel_right (hplan.symm.trans hdone)
  have hr : importProject stamp overwrite (.ok layout) archive role dest =
      ⟨(importLanes layout stamp overwrite archive dest (lanePlan role)).1, done,
        (importLanes layout stamp overwrite archive dest (lanePlan role)).2.2.or
          (if done = [] then some .noEntries else none)⟩ := by
    unfold importProject
    rw [if_neg (not_not.mpr hschema)]
    simp only [hrestored]
  rw [hr]
  refine ⟨_, hdone, by rw [hdest]; exact hfold, fun lane after hrest => ?_, ?_⟩
  · have hmem : lane ∈ plan archive role := by
      unfold plan
      rw [hdone, hrest]
      exact List.mem_append_right _ List.mem_cons_self
    obtain ⟨node, hnode⟩ := Option.isSome_iff_exists.mp (stored_of_mem_plan hmem)
    by_contra hfree
    obtain ⟨t, ht⟩ := @restoreLane_of_not_blocked _ _ _ _ _ node hfree
    have hrefused := hstop lane after hrest
    rw [← hdest] at hrefused
    simp [replace, hnode, ht, Except.toOption] at hrefused
  · dsimp only
    rw [Option.or_eq_none_iff, herror]
    refine and_congr_right fun _ => ?_
    by_cases hnone : done = [] <;> simp [hnone]

theorem replace_of_blocked (h : Blocked layout stamp overwrite dest lane) :
    replace layout stamp overwrite archive dest lane = none := by
  unfold replace
  cases archive.stored lane with
  | none => rfl
  | some node =>
    cases hrestore : restoreLane layout stamp overwrite dest lane node with
    | error e => simp [hrestore, Except.toOption]
    | ok t => exact absurd h (restoreLane_ok hrestore).1

theorem importProject_eq (hschema : archive.manifest.schema = bundleSchema)
    {before rest : List Lane} (hplan : plan archive role = before ++ rest) {t : Destination}
    (hfold : before.foldlM (replace layout stamp overwrite archive) dest = some t)
    (hstop : ∀ lane after, rest = lane :: after → Blocked layout stamp overwrite t lane) :
    (importProject stamp overwrite (.ok layout) archive role dest).restored = before ∧
      (importProject stamp overwrite (.ok layout) archive role dest).dest = t ∧
      ((importProject stamp overwrite (.ok layout) archive role dest).error = none ↔
        rest = [] ∧ before ≠ []) := by
  obtain ⟨rest', hplan', hfold', hstop', herror⟩ :=
    @importProject_run stamp overwrite archive role dest hschema layout
  have hrun := Stopping.run_iff.mpr ⟨before, hplan, hfold, fun lane after h =>
    replace_of_blocked (hstop lane after h)⟩
  have hrun' := Stopping.run_iff.mpr ⟨_, hplan', hfold', fun lane after h =>
    replace_of_blocked (hstop' lane after h)⟩
  obtain ⟨hdest, hrest⟩ := Prod.mk.inj (hrun'.symm.trans hrun)
  rw [hrest] at herror hplan'
  have hrestored := List.append_cancel_right (hplan'.symm.trans hplan)
  rw [hrestored] at herror
  exact ⟨hrestored, hdest, herror⟩

theorem kept_of_replaced (hown : OwnNames layout stamp dest lanes)
    (h : Replaced layout stamp overwrite archive dest lanes dest') :
    (∀ lane ∈ lanes, ∀ old, dest.lanes lane = some old → hasData (some old) = true →
      dest'.backups.lookup (backupName layout stamp lane) = some old) ∧
    ∀ name node, dest.backups.lookup name = some node →
      dest'.backups.lookup name = some node := by
  rw [h.backups hown]
  refine ⟨fun lane hlane old hold hdata => lookup_backedUp hown hlane hold hdata,
    fun name node hname => ?_⟩
  rw [lookup_backedUp_other, hname]
  intro lane hlane hdata heq
  refine hown.fresh lane hlane hdata ?_
  rw [heq]
  exact Finmap.mem_of_lookup_eq_some hname

theorem exported (h : exportProject sha256 source projectId exportRole = .ok archive) :
    archive.manifest.schema = bundleSchema ∧
      ∀ lane content, archive.stored lane = some (.file content) →
        archive.manifest.sha256 lane.owner = some (sha256 (source.hashed lane.owner)) := by
  unfold exportProject at h
  dsimp only at h
  split at h
  · cases h
  · split at h
    · cases h
    · cases h
      refine ⟨rfl, fun lane content hstored => ?_⟩
      unfold Archive.stored at hstored
      cases hstore : lane.store with
      | qdrant => simp [hstore] at hstored
      | falkordb =>
        simp only [hstore, Option.map_eq_some_iff, Option.bind_eq_some_iff] at hstored
        obtain ⟨_, ⟨node, hnode, -⟩, -⟩ := hstored
        simp [hnode]

/-- **An import of an exported archive is all or nothing and loses no backup exactly if every lane
can be replaced under a backup name of its own and every database file was hashed as it was copied,
or the lanes before the first that cannot be replaced hold the archived content already.** -/
theorem import_sound_iff (h : exportProject sha256 source projectId exportRole = .ok archive) :
    ImportSound sha256 resolved stamp overwrite archive role dest ↔
      ImportCovered sha256 resolved stamp overwrite source archive role dest := by
  obtain ⟨hschema, hhashes⟩ := exported h
  cases resolved with
  | error e =>
    have hr : importProject stamp overwrite (.error e) archive role dest = ⟨dest, [], some e⟩ := by
      unfold importProject
      rw [if_neg (not_not.mpr hschema)]
    refine iff_of_true ⟨?_, ?_, ?_, ?_⟩ (fun layout h => by cases h)
    · rw [hr]
      exact fun _ => rfl
    · rw [hr]
      exact fun h => by cases h
    · exact fun layout h => by cases h
    · rw [hr]
      exact fun name node h => h
  | ok layout =>
    constructor
    · intro hsound layout' hlayout
      cases hlayout
      obtain ⟨rest, hplan, hfold, hstop, herror⟩ :=
        @importProject_run stamp overwrite archive role dest hschema layout
      have hnodup := @plan_nodup archive role
      rw [hplan] at hnodup
      have hreplaced := replaced_of_foldlM (List.nodup_append.mp hnodup).1 hfold
      obtain ⟨hown, -⟩ := hsound.backups layout rfl
      cases rest with
      | nil =>
        rw [List.append_nil] at hplan
        refine Or.inl ⟨hplan ▸ hown, hplan ▸ hreplaced.restorable, ?_⟩
        intro lane hlane content hstored
        have hsome : (importProject stamp overwrite (.ok layout) archive role dest).error = none :=
          herror.mpr ⟨rfl, hplan ▸ List.ne_nil_of_mem hlane⟩
        have hsha := (hsound.returned hsome lane hlane).2 content hstored
        rw [hhashes lane content hstored] at hsha
        exact Option.some.inj hsha
      | cons lane after =>
        have hlanes := hsound.raised fun hnone => by simpa using (herror.mp hnone).1
        refine Or.inr ⟨_, lane, after, hplan, hown, hreplaced.restorable, fun l hl => ?_, ?_⟩
        · rw [← hlanes, hreplaced.contents, if_pos hl]
        · rw [← hreplaced.backups hown, ← hlanes]
          exact hstop lane after rfl
    · intro hcovered
      rcases hcovered layout rfl with ⟨hown, hrestorable, hhashed⟩ |
        ⟨before, lane, after, hplan, hown, hrestorable, hsame, hblocked⟩
      · obtain ⟨t, hfold⟩ := exists_foldlM plan_nodup hown hrestorable fun l hl =>
          stored_of_mem_plan hl
        have hreplaced := replaced_of_foldlM plan_nodup hfold
        obtain ⟨hrestored, hdest, herror⟩ := importProject_eq hschema
          (List.append_nil _).symm hfold fun lane after h => by cases h
        obtain ⟨hbackups, hkept⟩ := kept_of_replaced hown hreplaced
        refine ⟨fun hraised => ?_, fun _ l hl => ⟨?_, fun content hstored => ?_⟩, ?_, ?_⟩
        · -- Only an archive without lanes for the role raises, and nothing is replaced.
          have hnone : plan archive role = [] := by
            by_contra hsome
            exact hraised (herror.mpr ⟨rfl, hsome⟩)
          rw [hdest]
          funext l
          rw [hreplaced.contents, hnone, if_neg List.not_mem_nil]
        · rw [hdest, hreplaced.contents, if_pos hl]
        · rw [hhashes l content hstored, hhashed l hl content hstored]
        · intro layout' hlayout
          cases hlayout
          rw [hrestored, hdest]
          exact ⟨hown, hbackups⟩
        · rw [hdest]
          exact hkept
      · have hnodup := @plan_nodup archive role
        rw [hplan] at hnodup
        obtain ⟨t, hfold⟩ := exists_foldlM (List.nodup_append.mp hnodup).1 hown hrestorable
          fun l hl => stored_of_mem_plan (hplan ▸ List.mem_append_left _ hl)
        have hreplaced := replaced_of_foldlM (List.nodup_append.mp hnodup).1 hfold
        have hlanes : t.lanes = dest.lanes := by
          funext l
          rw [hreplaced.contents]
          split
          · rename_i hl
            exact hsame l hl
          · rfl
        have ht : t = { dest with backups := backedUp layout stamp dest before } := by
          rw [← hlanes, ← hreplaced.backups hown]
        obtain ⟨hrestored, hdest, herror⟩ := importProject_eq hschema hplan hfold (by
          rintro _ _ ⟨⟩
          rw [ht]
          exact hblocked)
        obtain ⟨hbackups, hkept⟩ := kept_of_replaced hown hreplaced
        refine ⟨fun _ => by rw [hdest, hlanes], fun hnone => ?_, ?_, ?_⟩
        · simpa using (herror.mp hnone).1
        · intro layout' hlayout
          cases hlayout
          rw [hrestored, hdest]
          exact ⟨hown, hbackups⟩
        · rw [hdest]
          exact hkept

/-! ## Two backups in one second -/

/-- Both database files, with this content. -/
def databaseFiles (code doc : Bytes) : Lanes := fun lane =>
  match lane.store, lane.owner with
  | .qdrant, _ => none
  | .falkordb, .code => some (.file code)
  | .falkordb, .doc => some (.file doc)

def sampleSource : Source where
  lanes := databaseFiles [1] [2]
  hashed
    | .code => [1]
    | .doc => [2]

def sampleSha256 (content : Bytes) : String := if content = [1] then "one" else "other"

/-- The export of the sample. -/
def sampleArchive : Archive where
  manifest := {
    schema := bundleSchema
    projectId := "demo"
    sha256 := fun owner => some (sampleSha256 (sampleSource.hashed owner)) }
  qdrant _ := none
  falkordb
    | .code => some [1]
    | .doc => some [2]

theorem sampleArchive_exported :
    exportProject sampleSha256 sampleSource "demo" .both = .ok sampleArchive := by
  unfold exportProject
  rw [if_neg (by decide), if_neg (by decide)]
  unfold sampleArchive
  congr 2
  · congr 1
    funext owner
    cases owner <;> rfl
  · funext owner
    cases owner <;> rfl
  · funext owner
    cases owner <;> rfl

/-- The default layout: both files are `data.rdb`. -/
def sampleLayout : Layout := fun lane =>
  match lane.store, lane.owner with
  | .qdrant, .code => "code"
  | .qdrant, .doc => "doc"
  | .falkordb, _ => "data.rdb"

/-- A destination with both database files. -/
def sampleDest : Destination := { lanes := databaseFiles [3] [4], backups := ∅ }

theorem sample_import :
    let run := importProject (fun _ => "20260101T000000Z") true (.ok sampleLayout) sampleArchive
      .both sampleDest
    run.restored = [⟨.code, .falkordb⟩, ⟨.doc, .falkordb⟩] ∧
      run.dest.backups.lookup "data.rdb.20260101T000000Z.bak" = some (.file [4]) := by
  decide +kernel

/-- **The second backup of one second overwrites the first.** -/
theorem same_second_backup_lost :
    ¬ ∀ (sha256 : Bytes → String) (resolved : Except TransferError Layout) (stamp : Lane → String)
      (overwrite : Bool) (source : Source) (projectId : String) (exportRole role : Role)
      (archive : Archive) (dest : Destination),
      exportProject sha256 source projectId exportRole = .ok archive →
        ImportSound sha256 resolved stamp overwrite archive role dest := by
  intro h
  have hsound := h sampleSha256 (.ok sampleLayout) (fun _ => "20260101T000000Z") true sampleSource
    "demo" .both .both sampleArchive sampleDest sampleArchive_exported
  obtain ⟨hrestored, hlast⟩ := sample_import
  have hfirst := (hsound.backups sampleLayout rfl).2 ⟨.code, .falkordb⟩ (by simp [hrestored])
    (.file [3]) rfl rfl
  have hname : backupName sampleLayout (fun _ => "20260101T000000Z") ⟨.code, .falkordb⟩ =
      "data.rdb.20260101T000000Z.bak" := by decide +kernel
  rw [hname, hlast] at hfirst
  simp at hfirst

/-- Backed up in different seconds, both are kept. -/
theorem different_seconds_kept :
    ImportSound sampleSha256 (.ok sampleLayout)
      (fun lane => if lane.owner = .code then "20260101T000000Z" else "20260101T000001Z") true
      sampleArchive .both sampleDest := by
  refine (import_sound_iff sampleArchive_exported).mpr fun layout hlayout => Or.inl ?_
  cases hlayout
  have hplan : plan sampleArchive .both = [⟨.code, .falkordb⟩, ⟨.doc, .falkordb⟩] := by decide
  refine ⟨⟨fun lane _ _ => Finmap.notMem_empty, ?_⟩, fun lane _ => ⟨fun _ => rfl, ?_⟩, ?_⟩
  · rw [hplan]
    decide +kernel
  · rintro ⟨-, hempty⟩
    obtain ⟨owner, store⟩ := lane
    cases owner <;> cases store <;> simp [sampleDest, databaseFiles] at hempty
  · intro lane _ content hstored
    obtain ⟨owner, store⟩ := lane
    cases owner <;> cases store <;> simp [Archive.stored, sampleArchive] at hstored <;>
      rw [← hstored] <;> rfl

end CortexHarness.Transfer
