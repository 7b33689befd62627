import CortexHarness.Evidence.Merge

/-!
# The sites of a merge

What the loop of `merge_call_evidence` leaves is a function of the observations it read: the first
one of every evidence identity is filed, under the site that its own fields name, and everything the
later stages read of it (`View`) is what it came with.

Results:
* `Filed.absorb`: the step, and `merge_filed`: the loop;
* `site_ids_kept_iff`: the sites of the result are those of all observations exactly when every
  observation that repeats an identity shares its site with one that does not;
* `collapsed_site_lost`: a second call at the same position is lost.
-/

namespace CortexHarness.Evidence

open Json Table Fallible

/-- What the later stages read of an observation. -/
structure View where
  evidenceId : String
  head : SiteHead
  strong : Bool
  callee : Json
  calleeUsr : Json

/-- The view of an entry of `identities`. -/
def Observation.view (o : Observation) : View :=
  ⟨o.evidenceId, o.head, strong o.row, callee o.row, field o.row "callee_usr"⟩

variable (rt : Runtime) (projectId : String)

/-- The evidence identity of an observation, if it has one. -/
def identityOf (raw : Row) : Option String := (evidenceIdentity rt raw).toOption

/-- The view of an observation, if its fields name a site. -/
def viewOf (raw : Row) : Option View :=
  match evidenceIdentity rt raw, observationSite rt raw with
  | .ok evidenceId, .ok (parts, siteId) =>
    some ⟨evidenceId, ⟨siteId, parts, projectOr rt projectId raw⟩, strong raw, callee raw,
      field raw "callee_usr"⟩
  | _, _ => none

variable {rt projectId} {raw n : Row}

theorem identityOf_eq {id : String} :
    identityOf rt raw = some id ↔ evidenceIdentity rt raw = .ok id := by
  unfold identityOf
  cases evidenceIdentity rt raw <;> simp [Except.toOption]

theorem viewOf_eq {evidenceId siteId : String} {parts : SiteParts}
    (hid : evidenceIdentity rt raw = .ok evidenceId)
    (hsite : observationSite rt raw = .ok (parts, siteId)) :
    viewOf rt projectId raw = some ⟨evidenceId, ⟨siteId, parts, projectOr rt projectId raw⟩,
      strong raw, callee raw, field raw "callee_usr"⟩ := by
  unfold viewOf
  rw [hid, hsite]

theorem viewOf_reads {v : View} (h : viewOf rt projectId raw = some v) :
    evidenceIdentity rt raw = .ok v.evidenceId ∧
      observationSite rt raw = .ok (v.head.parts, v.head.siteId) := by
  unfold viewOf at h
  split at h
  · rename_i hid hsite
    cases h
    exact ⟨hid, hsite⟩
  · cases h

/-! ## One observation -/

/-- What the checks of an observation let through. -/
theorem admitRow_reads (h : admitRow rt projectId raw = .ok n) :
    Classified n ∧ SameReading rt raw n ∧ projectOf n = projectOr rt projectId raw := by
  unfold admitRow at h
  obtain ⟨c, hc, h⟩ := bind_ok.mp h
  obtain ⟨-, -, h⟩ := bind_ok.mp h
  obtain ⟨-, -, h⟩ := bind_ok.mp h
  cases h
  have ha : Agrees annotations c
      (put c "project_id" (.str (projectOr rt projectId c))) := agrees_put (by decide) _
  have hcc := normalize_classifies hc
  refine ⟨classified_of_agrees hcc ha, (normalize_reading hc).trans (reading_of_agrees hcc ha), ?_⟩
  have hp : projectOr rt projectId c = projectOr rt projectId raw := by
    unfold projectOr rowProject
    rw [normalize_agrees hc "project_id" (by decide)]
  unfold projectOf
  rw [field_put, if_pos rfl, hp]
  rfl

theorem filed_reads (hc : Classified n) (id : String) :
    SameReading rt n (filed n id) ∧ projectOf (filed n id) = projectOf n := by
  have ha : Agrees annotations n (filed n id) :=
    (agrees_put (by decide) _).trans (agrees_setDefault (by decide) _)
  have hp : Agrees ["evidence_id", "observation_count"] n (filed n id) :=
    (agrees_put (by decide) _).trans (agrees_setDefault (by decide) _)
  refine ⟨reading_of_agrees hc ha, ?_⟩
  unfold projectOf
  rw [hp "project_id" (by decide)]

theorem repeated_reads {existing row : Row} (hc : Classified existing)
    (h : repeated rt existing n = .ok row) :
    Classified row ∧ SameReading rt existing row ∧
      field row "evidence_id" = field existing "evidence_id" := by
  unfold repeated at h
  obtain ⟨earlier, -, h⟩ := bind_ok.mp h
  obtain ⟨runs, -, h⟩ := bind_ok.mp h
  obtain ⟨count, -, h⟩ := bind_ok.mp h
  cases h
  have ha : Agrees annotations existing (put (put existing "_repeat_runs" (.arr runs))
      "observation_count" (.int (count + 1))) :=
    (agrees_put (by decide) _).trans (agrees_put (by decide) _)
  refine ⟨classified_of_agrees hc ha, reading_of_agrees hc ha, ?_⟩
  rw [field_put, if_neg (by decide), field_put, if_neg (by decide)]

/-- An entry is classified, and filed under the identity and the site its row names. -/
structure Entry (rt : Runtime) (o : Observation) : Prop where
  classified : Classified o.row
  parts : observationSiteParts rt o.row = .ok o.head.parts
  evidence : field o.row "evidence_id" = .str o.evidenceId

/-- What one round of the loop does. -/
theorem absorb_cases {m m' : Merge} (h : m.absorb rt projectId raw = .ok m')
    (hm : ∀ o ∈ m.identities, Entry rt o) :
    ∃ id, identityOf rt raw = some id ∧
      ((∃ o row, o ∈ m.identities ∧ o.evidenceId = id ∧
          ({ o with row } : Observation).view = o.view ∧ Entry rt { o with row } ∧
          m' = m.collapse id row) ∨
        (∃ o, (∀ x ∈ m.identities, x.evidenceId ≠ id) ∧ o.evidenceId = id ∧ Entry rt o ∧
          viewOf rt projectId raw = some o.view ∧ m' = m.file o)) := by
  unfold Merge.absorb at h
  obtain ⟨n, hn, h⟩ := bind_ok.mp h
  obtain ⟨hcn, hrn, hpn⟩ := admitRow_reads hn
  obtain ⟨id, hid, h⟩ := bind_ok.mp h
  rw [hrn.identity] at hid
  refine ⟨id, identityOf_eq.mpr hid, ?_⟩
  cases hl : lookup Observation.evidenceId id m.identities with
  | some o =>
    rw [hl] at h
    obtain ⟨row, hrow, h⟩ := bind_ok.mp h
    cases h
    have ho := lookup_mem hl
    obtain ⟨hc, hr, hev⟩ := repeated_reads (hm o ho).classified hrow
    refine .inl ⟨o, row, ho, lookup_key hl, ?_,
      ⟨hc, hr.parts.trans (hm o ho).parts, hev.trans (hm o ho).evidence⟩, rfl⟩
    unfold Observation.view
    rw [hr.strong, hr.callee, hr.calleeUsr]
  | none =>
    rw [hl] at h
    obtain ⟨parts, hparts, h⟩ := bind_ok.mp h
    obtain ⟨siteId, hsite, h⟩ := bind_ok.mp h
    cases h
    obtain ⟨hrf, hpf⟩ := filed_reads hcn id
    have hr : SameReading rt raw (filed n id) := hrn.trans hrf
    have hcf : Classified (filed n id) :=
      classified_of_agrees hcn ((agrees_put (by decide) _).trans (agrees_setDefault (by decide) _))
    refine .inr ⟨⟨id, ⟨siteId, parts, projectOf (filed n id)⟩, filed n id⟩, lookup_eq_none.mp hl, rfl,
      ⟨hcf, hparts, ?_⟩, ?_, rfl⟩
    · show field (filed n id) "evidence_id" = .str id
      rw [filed, field_setDefault, if_neg (by simp), field_put, if_pos rfl]
    rw [hr.parts] at hparts
    rw [hr.nodeId] at hsite
    have hos : observationSite rt raw = .ok (parts, siteId) :=
      bind_ok.mpr ⟨parts, hparts, bind_ok.mpr ⟨siteId, hsite, rfl⟩⟩
    rw [viewOf_eq hid hos]
    unfold Observation.view
    rw [hr.strong, hr.callee, hr.calleeUsr, hpf, hpn]

/-! ## The loop -/

variable (rt projectId) in
/-- What the loop holds after it has read `rows`. -/
structure Filed (rows : List Row) (m : Merge) : Prop where
  count : m.observationsIn = rows.length
  collapsed : m.duplicatesCollapsed + m.identities.length = rows.length
  identified : ∀ raw ∈ rows, (identityOf rt raw).isSome
  keyed : Keyed Observation.evidenceId m.identities
  entries : ∀ o ∈ m.identities, Entry rt o
  views : (firsts (identityOf rt) rows).map (viewOf rt projectId) =
    m.identities.map fun o => some o.view
  sites : m.sites = firsts SiteHead.siteId (m.identities.map Observation.head)

theorem filed_nil : Filed rt projectId [] {} := by
  refine ⟨rfl, rfl, ?_, List.nodup_nil, ?_, rfl, rfl⟩
  · intro raw h
    cases h
  · intro o h
    cases h

/-- The entries are those of the first observations. -/
theorem Filed.mem_views {rows : List Row} {m : Merge} (h : Filed rt projectId rows m) {v : View} :
    (∃ o ∈ m.identities, o.view = v) ↔
      ∃ raw ∈ firsts (identityOf rt) rows, viewOf rt projectId raw = some v := by
  have hmem : some v ∈ (firsts (identityOf rt) rows).map (viewOf rt projectId) ↔
      some v ∈ m.identities.map fun o => some o.view := by rw [h.views]
  simpa using hmem.symm

/-- An identity is among the entries when an observation with it was read. -/
theorem Filed.seen_iff {rows : List Row} {m : Merge} (h : Filed rt projectId rows m) {id : String} :
    (∃ o ∈ m.identities, o.evidenceId = id) ↔
      ∃ raw ∈ firsts (identityOf rt) rows, identityOf rt raw = some id := by
  constructor
  · rintro ⟨o, ho, rfl⟩
    obtain ⟨raw, hraw, hv⟩ := h.mem_views.mp ⟨o, ho, rfl⟩
    exact ⟨raw, hraw, identityOf_eq.mpr (viewOf_reads hv).1⟩
  · rintro ⟨raw, hraw, hid⟩
    have hmem : viewOf rt projectId raw ∈ m.identities.map fun o => some o.view := by
      rw [← h.views]
      exact List.mem_map_of_mem hraw
    obtain ⟨o, ho, hv⟩ := List.mem_map.mp hmem
    have hi := (viewOf_reads hv.symm).1
    rw [identityOf_eq.mp hid] at hi
    exact ⟨o, ho, (Except.ok.inj hi).symm⟩

/-- **One round of the loop** files the observation or finds its identity. -/
theorem Filed.absorb {rows : List Row} {m m' : Merge} (hf : Filed rt projectId rows m)
    (h : m.absorb rt projectId raw = .ok m') : Filed rt projectId (rows ++ [raw]) m' := by
  obtain ⟨id, hid, hcase⟩ := absorb_cases h hf.entries
  have hidentified : ∀ r ∈ rows ++ [raw], (identityOf rt r).isSome := by
    intro r hr
    rcases List.mem_append.mp hr with hr | hr
    · exact hf.identified r hr
    · rw [List.mem_singleton.mp hr, hid]
      rfl
  have hlen : (rows ++ [raw]).length = rows.length + 1 := by simp
  rcases hcase with ⟨o, row, ho, hoid, hview, hc, rfl⟩ | ⟨o, hnew, hoid, hc, hview, rfl⟩
  · -- a repeat: the entry of the identity is rewritten, with the view it has
    have hsame : ∀ x ∈ m.identities,
        (if decide (x.evidenceId = id) then { x with row } else x).view = x.view := by
      intro x hx
      by_cases he : x.evidenceId = id
      · obtain rfl : x = o := eq_of_keyed hf.keyed hx ho (he.trans hoid.symm)
        rw [if_pos (by simpa using he)]
        exact hview
      · rw [if_neg (by simpa using he)]
    refine ⟨?_, ?_, hidentified, ?_, ?_, ?_, ?_⟩
    · rw [hlen, ← hf.count]
      rfl
    · have hc := hf.collapsed
      simp only [Merge.collapse, updateWhere, List.length_map]
      omega
    · exact hf.keyed.updateWhere fun _ => rfl
    · intro x hx
      obtain ⟨y, hy, rfl⟩ := mem_updateWhere.mp hx
      by_cases he : y.evidenceId = id
      · obtain rfl : y = o := eq_of_keyed hf.keyed hy ho (he.trans hoid.symm)
        rw [if_pos (by simpa using he)]
        exact hc
      · rw [if_neg (by simpa using he)]
        exact hf.entries y hy
    · obtain ⟨raw', hraw', hid'⟩ := hf.seen_iff.mp ⟨o, ho, hoid⟩
      rw [firsts_snoc, keepFirst_old hraw' (hid'.trans hid.symm), hf.views, Merge.collapse,
        updateWhere, List.map_map]
      refine List.map_congr_left fun x hx => ?_
      exact congrArg some (hsame x hx).symm
    · show m.sites = _
      rw [hf.sites, Merge.collapse, updateWhere, List.map_map]
      congr 1
      refine List.map_congr_left fun x hx => ?_
      exact (congrArg View.head (hsame x hx)).symm
  · -- a new identity
    refine ⟨?_, ?_, hidentified, ?_, ?_, ?_, ?_⟩
    · rw [hlen, ← hf.count]
      rfl
    · have hc := hf.collapsed
      simp only [Merge.file, List.length_append, List.length_singleton]
      omega
    · exact hf.keyed.append_singleton fun x hx => by rw [hoid]; exact hnew x hx
    · intro x hx
      rcases List.mem_append.mp hx with hx | hx
      · exact hf.entries x hx
      · rwa [List.mem_singleton.mp hx]
    · have hno : ∀ r ∈ firsts (identityOf rt) rows, identityOf rt r ≠ identityOf rt raw := by
        intro r hr he
        obtain ⟨x, hx, hxid⟩ := hf.seen_iff.mpr ⟨r, hr, he.trans hid⟩
        exact hnew x hx hxid
      rw [firsts_snoc, keepFirst_new hno, List.map_append, hf.views, Merge.file, List.map_append]
      simp [hview]
    · show keepFirst SiteHead.siteId m.sites o.head = _
      rw [Merge.file, List.map_append, List.map_singleton, firsts_snoc, hf.sites]

/-- **The loop** leaves the first observation of every identity. -/
theorem merge_filed {observations configurations : List Row} {coverage : List Coverage}
    {r : EvidenceMergeResult}
    (h : mergeCallEvidence rt observations coverage configurations projectId = .ok r) :
    ∃ m, Filed rt projectId observations m ∧ r.callSites = m.callSites ∧
      strictCallRows rt m.callSites = .ok r.strictCallRows ∧
      r.observationsIn = m.observationsIn ∧ r.duplicatesCollapsed = m.duplicatesCollapsed := by
  unfold mergeCallEvidence at h
  obtain ⟨m, hm, h⟩ := bind_ok.mp h
  obtain ⟨strict, hs, h⟩ := bind_ok.mp h
  obtain ⟨seen, -, h⟩ := bind_ok.mp h
  obtain ⟨records, -, h⟩ := bind_ok.mp h
  cases h
  exact ⟨m, foldlM_invariant filed_nil (fun _ _ _ _ hf => hf.absorb) hm, rfl, hs, rfl, rfl⟩

theorem callSites_perm (m : Merge) : m.callSites.Perm (m.sites.map m.siteOf) :=
  List.perm_insertionSort _ _

theorem mem_callSites {m : Merge} {site : MergedCallSite} :
    site ∈ m.callSites ↔ ∃ head ∈ m.sites, m.siteOf head = site := by
  rw [(callSites_perm m).mem_iff, List.mem_map]

/-! ## What the merge accepts -/

variable (rt projectId) in
/-- An observation that passes the checks, names its site, and brings no provenance of its own. -/
structure Plain (raw : Row) : Prop where
  checked : ∃ n, admitRow rt projectId raw = .ok n
  identified : ∃ id, evidenceIdentity rt raw = .ok id
  sited : ∃ site, observationSite rt raw = .ok site
  runs : field raw "_repeat_runs" = .null
  count : field raw "observation_count" = .null
  hashable : (rt.key (callee raw)).isSome

/-- A row whose provenance the merge wrote. -/
structure Recorded (rt : Runtime) (row : Row) : Prop where
  classified : Classified row
  runs : field row "_repeat_runs" = .null ∨
    ∃ texts : List String, field row "_repeat_runs" = .arr (texts.map .str)
  count : field row "observation_count" = .null ∨ ∃ n, field row "observation_count" = .int n
  hashable : (rt.key (callee row)).isSome

variable (rt) in
theorem elements_texts {value : Json}
    (h : value = .null ∨ ∃ texts : List String, value = .arr (texts.map .str)) :
    ∃ texts : List String, elements rt value = .ok (texts.map .str) := by
  rcases h with rfl | ⟨texts, rfl⟩
  · exact ⟨[], rfl⟩
  · unfold elements
    split
    · refine ⟨texts, if_pos ?_⟩
      simp [Runtime.key]
    · exact ⟨[], rfl⟩

variable (rt) in
theorem sortedRuns_texts (texts : List String) :
    ∃ sorted : List String, sortedRuns rt (texts.map .str) = .ok (sorted.map .str) := by
  unfold sortedRuns
  refine ⟨_, if_pos ?_⟩
  rw [List.all_eq_true]
  intro run hrun
  obtain ⟨s, -, rfl⟩ := List.mem_map.mp (List.mem_of_mem_filter hrun)
  rfl

/-- The count of a recorded row can be raised. -/
theorem count_integer {value : Json} (h : value = .null ∨ ∃ n, value = .int n) :
    ∃ n, rt.integer (either value (.int 1)) = .ok n := by
  rcases h with rfl | ⟨n, rfl⟩
  · exact ⟨1, rfl⟩
  · unfold either
    split
    · exact ⟨n, rfl⟩
    · exact ⟨1, rfl⟩

theorem repeated_succeeds {existing : Row} (h : Recorded rt existing) (n : Row) :
    ∃ row, repeated rt existing n = .ok row ∧ Recorded rt row := by
  obtain ⟨texts, ht⟩ := elements_texts rt h.runs
  obtain ⟨sorted, hs⟩ := sortedRuns_texts rt (texts ++
    [rt.textOr (field existing "parse_run_id"), rt.textOr (field n "parse_run_id")])
  rw [List.map_append] at hs
  have hcount : field (put existing "_repeat_runs" (.arr (sorted.map .str))) "observation_count" =
      field existing "observation_count" := by
    rw [field_put, if_neg (by decide)]
  obtain ⟨c, hc⟩ : ∃ c, rt.integer (either (field existing "observation_count") (.int 1)) = .ok c :=
    count_integer h.count
  rw [← hcount] at hc
  have hrow : repeated rt existing n = .ok (put (put existing "_repeat_runs"
      (.arr (sorted.map .str))) "observation_count" (.int (c + 1))) :=
    bind_ok.mpr ⟨_, ht, bind_ok.mpr ⟨_, hs, bind_ok.mpr ⟨_, hc, rfl⟩⟩⟩
  refine ⟨_, hrow, ?_⟩
  obtain ⟨hcl, hr, -⟩ := repeated_reads h.classified hrow
  refine ⟨hcl, .inr ⟨sorted, ?_⟩, .inr ⟨c + 1, ?_⟩, ?_⟩
  · rw [field_put, if_neg (by decide), field_put, if_pos rfl]
  · rw [field_put, if_pos rfl]
  · rw [hr.callee]
    exact h.hashable

theorem admitRow_agrees (h : admitRow rt projectId raw = .ok n) :
    Agrees ("project_id" :: classification) raw n := by
  unfold admitRow at h
  obtain ⟨c, hc, h⟩ := bind_ok.mp h
  obtain ⟨-, -, h⟩ := bind_ok.mp h
  obtain ⟨-, -, h⟩ := bind_ok.mp h
  cases h
  exact ((normalize_agrees hc).mono (List.subset_cons_self _ _)).trans
    (agrees_put List.mem_cons_self _)

theorem filed_recorded (hp : Plain rt projectId raw) (hn : admitRow rt projectId raw = .ok n)
    (id : String) : Recorded rt (filed n id) := by
  obtain ⟨hc, hr, -⟩ := admitRow_reads hn
  have ha := admitRow_agrees hn
  have hf : Agrees ["evidence_id", "observation_count"] n (filed n id) :=
    (agrees_put (by decide) _).trans (agrees_setDefault (by decide) _)
  refine ⟨classified_of_agrees hc (hf.mono (by decide)), .inl ?_, ?_, ?_⟩
  · rw [hf "_repeat_runs" (by decide), ha "_repeat_runs" (by decide), hp.runs]
  · unfold filed
    rw [field_setDefault]
    split
    · exact .inr ⟨1, rfl⟩
    · rw [field_put, if_neg (by decide), ha "observation_count" (by decide), hp.count]
      exact .inl rfl
  · rw [((filed_reads hc id).1 : SameReading rt n (filed n id)).callee, hr.callee]
    exact hp.hashable

theorem absorb_succeeds {m : Merge} (hm : ∀ o ∈ m.identities, Recorded rt o.row)
    (hp : Plain rt projectId raw) :
    ∃ m', m.absorb rt projectId raw = .ok m' ∧ ∀ o ∈ m'.identities, Recorded rt o.row := by
  obtain ⟨n, hn⟩ := hp.checked
  obtain ⟨hc, hr, -⟩ := admitRow_reads hn
  obtain ⟨id, hid⟩ := hp.identified
  rw [← hr.identity] at hid
  cases hl : lookup Observation.evidenceId id m.identities with
  | some o =>
    obtain ⟨row, hrow, hrec⟩ := repeated_succeeds (hm o (lookup_mem hl)) n
    refine ⟨m.collapse id row, bind_ok.mpr ⟨n, hn, bind_ok.mpr ⟨id, hid, ?_⟩⟩, ?_⟩
    · rw [hl]
      exact bind_ok.mpr ⟨row, hrow, rfl⟩
    · intro x hx
      obtain ⟨y, hy, rfl⟩ := mem_updateWhere.mp hx
      split
      · exact hrec
      · exact hm y hy
  | none =>
    obtain ⟨⟨parts, siteId⟩, hsite⟩ := hp.sited
    obtain ⟨parts', hparts, hsite⟩ := bind_ok.mp hsite
    obtain ⟨siteId', hnode, hsite⟩ := bind_ok.mp hsite
    cases hsite
    have hrf : SameReading rt raw (filed n id) := hr.trans (filed_reads hc id).1
    rw [← hrf.parts] at hparts
    rw [← hrf.nodeId] at hnode
    refine ⟨m.file ⟨id, ⟨siteId, parts, projectOf (filed n id)⟩, filed n id⟩,
      bind_ok.mpr ⟨n, hn, bind_ok.mpr ⟨id, hid, ?_⟩⟩, ?_⟩
    · rw [hl]
      exact bind_ok.mpr ⟨parts, hparts, bind_ok.mpr ⟨siteId, hnode, rfl⟩⟩
    · intro x hx
      rcases List.mem_append.mp hx with hx | hx
      · exact hm x hx
      · rw [List.mem_singleton.mp hx]
        exact filed_recorded hp hn id

theorem acceptedObservation_succeeds {site : MergedCallSite}
    (h : ∀ row ∈ site.observations, (rt.key (callee row)).isSome) :
    ∃ accepted, site.acceptedObservation rt = .ok accepted := by
  have hno : ¬ ((site.observations.filter strong).any fun o => (rt.key (callee o)).isNone) = true := by
    rw [List.any_eq_true]
    rintro ⟨row, hrow, hnone⟩
    have hsome := h row (List.mem_of_mem_filter hrow)
    rw [Option.isNone_iff_eq_none.mp hnone] at hsome
    cases hsome
  unfold MergedCallSite.acceptedObservation
  rw [if_neg hno]
  split
  · exact ⟨none, rfl⟩
  · exact ⟨_, rfl⟩

theorem strictCallRows_succeeds {m : Merge} (hm : ∀ o ∈ m.identities, Recorded rt o.row) :
    ∃ rows, strictCallRows rt m.callSites = .ok rows := by
  obtain ⟨rows, hrows⟩ : ∃ rows, (m.callSites.mapM fun site => do
      let accepted ← site.acceptedObservation rt
      return accepted.map (strictCallRow rt site.head)) = .ok rows := by
    refine mapM_succeeds fun site hs => ?_
    obtain ⟨head, -, rfl⟩ := mem_callSites.mp hs
    have hkeys : ∀ row ∈ (m.siteOf head).observations, (rt.key (callee row)).isSome := by
      intro row hrow
      obtain ⟨o, ho, rfl⟩ := List.mem_map.mp hrow
      exact (hm o (List.mem_of_mem_filter ho)).hashable
    obtain ⟨accepted, ha⟩ := acceptedObservation_succeeds hkeys
    exact ⟨_, bind_ok.mpr ⟨accepted, ha, rfl⟩⟩
  exact ⟨_, bind_ok.mpr ⟨rows, hrows, rfl⟩⟩

/-- **Plain observations are accepted.** -/
theorem merge_succeeds {observations : List Row}
    (h : ∀ raw ∈ observations, Plain rt projectId raw) :
    ∃ r, mergeCallEvidence rt observations [] [] projectId = .ok r := by
  obtain ⟨m, hm, hrec⟩ : ∃ m, observations.foldlM (Merge.absorb rt projectId) {} = .ok m ∧
      ∀ o ∈ m.identities, Recorded rt o.row :=
    foldlM_succeeds (fun m hm raw hraw => absorb_succeeds hm (h raw hraw)) fun o ho => by cases ho
  obtain ⟨rows, hrows⟩ := strictCallRows_succeeds hrec
  exact ⟨_, bind_ok.mpr ⟨m, hm, bind_ok.mpr ⟨rows, hrows, rfl⟩⟩⟩

/-! ## No site is lost -/

variable (rt) in
/-- The `callsite_node_id` of an observation. -/
def nodeIdOf (raw : Row) : Except MergeError String := (observationSite rt raw).map Prod.snd

theorem nodeIdOf_view {v : View} (h : viewOf rt projectId raw = some v) :
    nodeIdOf rt raw = .ok v.head.siteId := by
  unfold nodeIdOf
  rw [(viewOf_reads h).2]
  rfl

/-- The sites of the result are those of the entries. -/
theorem Filed.site_ids {rows : List Row} {m : Merge} (h : Filed rt projectId rows m) {id : String} :
    (∃ site ∈ m.callSites, site.head.siteId = id) ↔
      ∃ raw ∈ firsts (identityOf rt) rows, nodeIdOf rt raw = .ok id := by
  have hheads : (∃ site ∈ m.callSites, site.head.siteId = id) ↔
      ∃ o ∈ m.identities, o.head.siteId = id := by
    constructor
    · rintro ⟨site, hs, rfl⟩
      obtain ⟨head, hh, rfl⟩ := mem_callSites.mp hs
      rw [h.sites] at hh
      obtain ⟨o, ho, rfl⟩ := List.mem_map.mp (mem_of_mem_firsts hh)
      exact ⟨o, ho, rfl⟩
    · rintro ⟨o, ho, rfl⟩
      obtain ⟨head, hh, he⟩ : ∃ head ∈ m.sites, head.siteId = o.head.siteId := by
        rw [h.sites]
        exact exists_firsts (List.mem_map_of_mem ho)
      exact ⟨m.siteOf head, mem_callSites.mpr ⟨head, hh, rfl⟩, he⟩
  rw [hheads]
  constructor
  · rintro ⟨o, ho, rfl⟩
    obtain ⟨raw, hraw, hv⟩ := h.mem_views.mp ⟨o, ho, rfl⟩
    exact ⟨raw, hraw, nodeIdOf_view hv⟩
  · rintro ⟨raw, hraw, hid⟩
    have hmem : viewOf rt projectId raw ∈ m.identities.map fun o => some o.view := by
      rw [← h.views]
      exact List.mem_map_of_mem hraw
    obtain ⟨o, ho, hv⟩ := List.mem_map.mp hmem
    rw [nodeIdOf_view hv.symm] at hid
    exact ⟨o, ho, Except.ok.inj hid⟩

theorem Filed.observations_sum {rows : List Row} {m : Merge} (h : Filed rt projectId rows m) :
    (m.callSites.map fun site => site.observations.length).sum = m.identities.length := by
  have hkeyed : (m.sites.map SiteHead.siteId).Nodup := by
    rw [h.sites]
    exact keyed_firsts _
  have hcover : ∀ o ∈ m.identities, o.head.siteId ∈ m.sites.map SiteHead.siteId := by
    intro o ho
    obtain ⟨head, hh, he⟩ : ∃ head ∈ m.sites, head.siteId = o.head.siteId := by
      rw [h.sites]
      exact exists_firsts (List.mem_map_of_mem ho)
    exact List.mem_map.mpr ⟨head, hh, he⟩
  have hsum := sum_countP_groups hkeyed hcover fun _ => true
  rw [((callSites_perm m).map _).sum_eq, List.map_map]
  simpa [Merge.siteOf, List.countP_eq_length_filter, Function.comp_def] using hsum

/-- **No call site is lost by the merge**, and every observation is accounted for. -/
structure NoSiteLost (rt : Runtime) (observations : List Row) (r : EvidenceMergeResult) : Prop where
  sites : ∀ id, (∃ site ∈ r.callSites, site.head.siteId = id) ↔
    ∃ raw ∈ observations, nodeIdOf rt raw = .ok id
  count : r.observationsIn =
    (r.callSites.map fun site => site.observations.length).sum + r.duplicatesCollapsed

/-- An observation that repeats an earlier identity shares its site with the first observation of
some identity. -/
def RepeatsShareSites (rt : Runtime) (observations : List Row) : Prop :=
  ∀ pre raw post, observations = pre ++ raw :: post →
    (∃ earlier ∈ pre, identityOf rt earlier = identityOf rt raw) →
    ∀ id, nodeIdOf rt raw = .ok id →
      ∃ first ∈ firsts (identityOf rt) observations, nodeIdOf rt first = .ok id

theorem noSiteLost_of_filed {observations : List Row} {m : Merge} {r : EvidenceMergeResult}
    (hf : Filed rt projectId observations m) (hs : r.callSites = m.callSites)
    (hi : r.observationsIn = m.observationsIn)
    (hd : r.duplicatesCollapsed = m.duplicatesCollapsed) :
    NoSiteLost rt observations r ↔ RepeatsShareSites rt observations := by
  constructor
  · rintro ⟨hsites, -⟩ pre raw post rfl - id hid
    rw [hs] at hsites
    exact hf.site_ids.mp ((hsites id).mpr ⟨raw, by simp, hid⟩)
  · intro h
    refine ⟨fun id => ?_, ?_⟩
    · rw [hs, hf.site_ids]
      constructor
      · rintro ⟨raw, hraw, hid⟩
        exact ⟨raw, mem_of_mem_firsts hraw, hid⟩
      · rintro ⟨raw, hraw, hid⟩
        obtain ⟨pre, post, rfl⟩ := List.append_of_mem hraw
        by_cases he : ∃ earlier ∈ pre, identityOf rt earlier = identityOf rt raw
        · exact h pre raw post rfl he id hid
        · exact ⟨raw, mem_firsts_of_new (fun x hx hxe => he ⟨x, hx, hxe⟩) post, hid⟩
    · have hc := hf.collapsed
      rw [hs, hi, hd, hf.observations_sum, hf.count]
      omega

/-- **No call site is lost exactly when** no observation with a site of its own repeats the identity
of an earlier one. -/
theorem site_ids_kept_iff {observations configurations : List Row} {coverage : List Coverage}
    {r : EvidenceMergeResult}
    (h : mergeCallEvidence rt observations coverage configurations projectId = .ok r) :
    NoSiteLost rt observations r ↔ RepeatsShareSites rt observations := by
  obtain ⟨m, hf, hs, -, hi, hd⟩ := merge_filed h
  exact noSiteLost_of_filed hf hs hi hd

/-- A runtime whose digests are injective. -/
def sampleRuntime : Runtime :=
  { sha256Hex := id, reprContainer := fun _ => "", casefold := id, parseInt := fun _ => .error ""
    uuid5 := id, repr := fun _ => "", floatInt := fun _ => none, sortMixed := .ok }

/-- The call number `ordinal` at one position of a file. -/
def sampleCall (ordinal : Int) : Row :=
  [("caller_id", .str "f1"), ("callee_id", .str "f2"), ("file_path", .str "a.c"), ("line", .int 3),
    ("column", .int 5), ("call_start_byte", .int 40), ("call_ordinal", .int ordinal)]

theorem sampleCall_plain (ordinal : Int) (h : ordinal = 0 ∨ ordinal = 1) :
    Plain sampleRuntime "" (sampleCall ordinal) := by
  rcases h with rfl | rfl
  · exact ⟨⟨_, rfl⟩, ⟨_, rfl⟩, ⟨_, rfl⟩, rfl, rfl, rfl⟩
  · exact ⟨⟨_, rfl⟩, ⟨_, rfl⟩, ⟨_, rfl⟩, rfl, rfl, rfl⟩

/-- An exact repeat of an observation loses nothing. -/
theorem site_ids_kept_sample :
    ∃ r, mergeCallEvidence sampleRuntime [sampleCall 0, sampleCall 0] [] [] "" = .ok r ∧
      NoSiteLost sampleRuntime [sampleCall 0, sampleCall 0] r := by
  have hall : ∀ raw ∈ [sampleCall 0, sampleCall 0], raw = sampleCall 0 := by simp
  obtain ⟨r, hr⟩ := merge_succeeds fun raw hraw => by
    rw [hall raw hraw]
    exact sampleCall_plain 0 (.inl rfl)
  refine ⟨r, hr, (site_ids_kept_iff hr).mpr ?_⟩
  intro pre raw post hsplit _ id hid
  have hraw : raw ∈ [sampleCall 0, sampleCall 0] := by simp [hsplit]
  obtain ⟨first, hfirst, -⟩ : ∃ x ∈ firsts (identityOf sampleRuntime) [sampleCall 0, sampleCall 0],
      identityOf sampleRuntime x = identityOf sampleRuntime raw := exists_firsts hraw
  refine ⟨first, hfirst, ?_⟩
  rw [hall first (mem_of_mem_firsts hfirst), ← hall raw hraw]
  exact hid

theorem sampleCall_nodeId :
    nodeIdOf sampleRuntime (sampleCall 0) ≠ nodeIdOf sampleRuntime (sampleCall 1) := by
  intro he
  exact dumpsAscii_ne (n := 5) (by decide +kernel) (Except.ok.inj he)

/-- Two calls with one evidence identity: the first is filed, under its own site. -/
theorem sampleCall_merge {a b : Int} (ha : a = 0 ∨ a = 1) (hb : b = 0 ∨ b = 1) :
    ∃ r, mergeCallEvidence sampleRuntime [sampleCall a, sampleCall b] [] [] "" = .ok r ∧
      ∀ id, (∃ site ∈ r.callSites, site.head.siteId = id) ↔
        nodeIdOf sampleRuntime (sampleCall a) = .ok id := by
  obtain ⟨r, hr⟩ : ∃ r, mergeCallEvidence sampleRuntime [sampleCall a, sampleCall b] [] [] "" =
      .ok r := by
    refine merge_succeeds fun raw hraw => ?_
    rcases List.mem_cons.mp hraw with rfl | hraw
    · exact sampleCall_plain a ha
    · rw [List.mem_singleton.mp hraw]
      exact sampleCall_plain b hb
  have hsame : identityOf sampleRuntime (sampleCall a) = identityOf sampleRuntime (sampleCall b) :=
    rfl
  have hfirsts : firsts (identityOf sampleRuntime) ([sampleCall a] ++ [sampleCall b]) =
      [sampleCall a] := by
    rw [firsts_snoc]
    exact keepFirst_old List.mem_cons_self hsame
  obtain ⟨m, hf, hs, -⟩ := merge_filed hr
  refine ⟨r, hr, fun id => ?_⟩
  rw [hs]
  refine hf.site_ids.trans ?_
  show (∃ raw ∈ firsts (identityOf sampleRuntime) ([sampleCall a] ++ [sampleCall b]), _) ↔ _
  rw [hfirsts]
  simp

/-- **A second call at the same position is lost**: its evidence identity is that of the first, which
names another site. -/
theorem collapsed_site_lost :
    ¬ ∀ (rt : Runtime) (observations configurations : List Row) (coverage : List Coverage)
      (projectId : String) (r : EvidenceMergeResult), Function.Injective rt.sha256Hex →
      Function.Injective rt.uuid5 →
      mergeCallEvidence rt observations coverage configurations projectId = .ok r →
      NoSiteLost rt observations r := by
  intro h
  obtain ⟨r, hr, hsites⟩ := sampleCall_merge (.inl rfl) (.inr rfl)
  have hlost := h _ _ _ _ _ r Function.injective_id Function.injective_id hr
  obtain ⟨id, hid⟩ : ∃ id, nodeIdOf sampleRuntime (sampleCall 1) = .ok id := ⟨_, rfl⟩
  have hsite := (hlost.sites id).mpr ⟨sampleCall 1, by simp, hid⟩
  exact sampleCall_nodeId (((hsites id).mp hsite).trans hid.symm)

end CortexHarness.Evidence
