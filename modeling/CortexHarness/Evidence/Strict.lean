import CortexHarness.Evidence.Sites

/-!
# The strict rows of a merge

A strict row is derived from a site whose strong observations agree on the callee. `siteRow` is the
derivation of one site, and `triples` is what the strict rows of a merge say, as a function of the
views of the observations that were filed.

Results:
* `strict_rows_eq`: the strict rows are those of the sites, and none of them raised;
* `siteRow_iff`: when a site has a row, and which one;
* `strict_triples`: caller, callee and site id of the strict rows, from the views;
* `strict_sound_iff`: the rows are those of strong observations, and no weak observation moves them,
  exactly when the first observation of each of these sites has the caller of a strong one;
* `colliding_caller_published`: two callers whose keys are the same text share a site, and the row
  has the caller of the weak one.
-/

namespace CortexHarness.Evidence

open Json Table Fallible

variable {rt : Runtime} {projectId : String}

/-! ## The row of a site -/

variable (rt) in
/-- The strict row of a site, if it has one. -/
def siteRow (site : MergedCallSite) : Option StrictCallRow :=
  match site.acceptedObservation rt with
  | .ok accepted => accepted.map (strictCallRow rt site.head)
  | .error _ => none

/-- The strict rows are those of the sites. -/
theorem strict_rows_eq {sites : List MergedCallSite} {rows : List StrictCallRow}
    (h : strictCallRows rt sites = .ok rows) :
    rows = sites.filterMap (siteRow rt) ∧
      ∀ site ∈ sites, ∃ accepted, site.acceptedObservation rt = .ok accepted := by
  unfold strictCallRows at h
  obtain ⟨found, hfound, h⟩ := bind_ok.mp h
  cases h
  have hall := mapM_ok hfound
  clear hfound
  clear * - hall
  induction hall with
  | nil => exact ⟨rfl, fun site hs => by cases hs⟩
  | cons hrow _ ih =>
    obtain ⟨accepted, ha, hrow⟩ := bind_ok.mp hrow
    cases hrow
    obtain ⟨ih1, ih2⟩ := ih
    constructor
    · rw [List.filterMap_cons, List.filterMap_cons, ih1, siteRow, ha]
      rfl
    · intro site hs
      rcases List.mem_cons.mp hs with rfl | hs
      · exact ⟨accepted, ha⟩
      · exact ih2 site hs

/-- **When a site has a strict row, and which one**: its strong observations agree on the callee, and
the row is that of the first of them. -/
theorem siteRow_iff {site : MergedCallSite}
    (hok : ∃ accepted, site.acceptedObservation rt = .ok accepted) {row : StrictCallRow} :
    siteRow rt site = some row ↔
      ∃ o, (site.observations.filter strong).head? = some o ∧
        (∀ x ∈ site.observations, strong x = true → ∀ y ∈ site.observations, strong y = true →
          calleeKey rt x = calleeKey rt y) ∧
        row = strictCallRow rt site.head o := by
  obtain ⟨accepted, ha⟩ := hok
  have hagree : ((site.observations.filter strong).map (calleeKey rt)).dedup.length = 1 ↔
      site.observations.filter strong ≠ [] ∧
        (∀ x ∈ site.observations, strong x = true → ∀ y ∈ site.observations, strong y = true →
          calleeKey rt x = calleeKey rt y) := by
    rw [dedup_length_one]
    simp only [ne_eq, List.map_eq_nil_iff, List.mem_map, List.mem_filter]
    constructor
    · rintro ⟨hne, h⟩
      exact ⟨hne, fun x hx hsx y hy hsy => h _ ⟨x, ⟨hx, hsx⟩, rfl⟩ _ ⟨y, ⟨hy, hsy⟩, rfl⟩⟩
    · rintro ⟨hne, h⟩
      refine ⟨hne, ?_⟩
      rintro _ ⟨x, ⟨hx, hsx⟩, rfl⟩ _ ⟨y, ⟨hy, hsy⟩, rfl⟩
      exact h x hx hsx y hy hsy
  unfold siteRow
  rw [ha]
  unfold MergedCallSite.acceptedObservation at ha
  simp only at ha
  split at ha
  · cases ha
  · split at ha
    · rename_i hlen
      cases ha
      refine ⟨fun h => (by cases h), ?_⟩
      rintro ⟨o, ho, hkeys, rfl⟩
      refine absurd (hagree.mpr ⟨?_, hkeys⟩) hlen
      intro hnil
      rw [hnil] at ho
      cases ho
    · rename_i hlen
      obtain ⟨-, hkeys⟩ := hagree.mp (not_not.mp hlen)
      cases ha
      simp only [Option.map_eq_some_iff]
      constructor
      · rintro ⟨o, ho, rfl⟩
        exact ⟨o, ho, hkeys, rfl⟩
      · rintro ⟨o, ho, -, rfl⟩
        exact ⟨o, ho, rfl⟩

/-! ## The strict rows from the views -/

/-- Caller, callee and site id of a strict row. -/
abbrev Triple := String × Json × String

def StrictCallRow.triple (row : StrictCallRow) : Triple := (row.callerId, row.calleeId, row.siteId)

variable (rt) in
/-- The strict row that a site gives for a callee. -/
def tripleOf (parts : SiteParts) (callee : Json) : Triple :=
  (parts.callerId, callee, callsiteSiteId rt parts.callerId (rt.str callee) parts.filePath parts.line
    parts.column parts.callType)

variable (rt) in
/-- The callee of a view as a member of the set of callees. -/
def View.key (v : View) : Option Key × Option Key := (rt.key v.callee, rt.key v.calleeUsr)

/-- The strong views of a site, in order. -/
def strongAt (views : List View) (id : String) : List View :=
  views.filter fun v => v.strong && decide (v.head.siteId = id)

theorem mem_strongAt {views : List View} {id : String} {v : View} :
    v ∈ strongAt views id ↔ v ∈ views ∧ v.strong = true ∧ v.head.siteId = id := by
  simp [strongAt]

variable (rt) in
/-- The strong views of the site agree on the callee, and the row is that of the first of them. -/
def Outcome (views : List View) (head : SiteHead) (t : Triple) : Prop :=
  ∃ v, (strongAt views head.siteId).head? = some v ∧
    (∀ x ∈ strongAt views head.siteId, ∀ y ∈ strongAt views head.siteId, x.key rt = y.key rt) ∧
    t = tripleOf rt head.parts v.callee

/-- The views of the entries. -/
def Merge.views (m : Merge) : List View := m.identities.map Observation.view

theorem outcome_iff {m : Merge} {head : SiteHead}
    (hok : ∃ accepted, (m.siteOf head).acceptedObservation rt = .ok accepted) {t : Triple} :
    (siteRow rt (m.siteOf head)).map StrictCallRow.triple = some t ↔ Outcome rt m.views head t := by
  have hviews : strongAt m.views head.siteId = (m.identities.filter fun o =>
      strong o.row && decide (o.head.siteId = head.siteId)).map Observation.view := by
    unfold strongAt Merge.views
    rw [List.filter_map]
    rfl
  have hrows : (m.siteOf head).observations.filter strong = (m.identities.filter fun o =>
      strong o.row && decide (o.head.siteId = head.siteId)).map Observation.row := by
    unfold Merge.siteOf
    rw [List.filter_map, List.filter_filter]
    rfl
  have hmem : ∀ x, (x ∈ (m.siteOf head).observations ∧ strong x = true) ↔
      x ∈ (m.siteOf head).observations.filter strong := fun x => by rw [List.mem_filter]
  rw [Option.map_eq_some_iff]
  unfold Outcome
  rw [hviews]
  constructor
  · rintro ⟨row, hrow, rfl⟩
    obtain ⟨o, ho, hkeys, rfl⟩ := (siteRow_iff hok).mp hrow
    rw [hrows, List.head?_map, Option.map_eq_some_iff] at ho
    obtain ⟨e, he, rfl⟩ := ho
    refine ⟨e.view, by rw [List.head?_map, he]; rfl, ?_, rfl⟩
    intro x hx y hy
    obtain ⟨a, ha, rfl⟩ := List.mem_map.mp hx
    obtain ⟨b, hb, rfl⟩ := List.mem_map.mp hy
    have hra := (hmem a.row).mpr (hrows ▸ List.mem_map_of_mem ha)
    have hrb := (hmem b.row).mpr (hrows ▸ List.mem_map_of_mem hb)
    exact hkeys a.row hra.1 hra.2 b.row hrb.1 hrb.2
  · rintro ⟨v, hv, hkeys, rfl⟩
    rw [List.head?_map, Option.map_eq_some_iff] at hv
    obtain ⟨e, he, rfl⟩ := hv
    refine ⟨strictCallRow rt head e.row, (siteRow_iff hok).mpr ⟨e.row, ?_, ?_, rfl⟩, rfl⟩
    · rw [hrows, List.head?_map, he]
      rfl
    · intro x hx hsx y hy hsy
      have hx' := (hmem x).mp ⟨hx, hsx⟩
      have hy' := (hmem y).mp ⟨hy, hsy⟩
      rw [hrows] at hx' hy'
      obtain ⟨a, ha, rfl⟩ := List.mem_map.mp hx'
      obtain ⟨b, hb, rfl⟩ := List.mem_map.mp hy'
      exact hkeys a.view (List.mem_map_of_mem ha) b.view (List.mem_map_of_mem hb)

/-- The triples of the strict rows, site by site. -/
theorem strict_triples {m : Merge} {rows : List StrictCallRow}
    (h : strictCallRows rt m.callSites = .ok rows) :
    (rows.map StrictCallRow.triple).Perm (m.sites.filterMap fun head =>
      (siteRow rt (m.siteOf head)).map StrictCallRow.triple) := by
  obtain ⟨rfl, -⟩ := strict_rows_eq h
  rw [List.map_filterMap]
  refine ((callSites_perm m).filterMap _).trans ?_
  rw [List.filterMap_map]
  exact List.Perm.refl _

/-! ## Weak observations move no strict row -/

theorem Filed.views_eq {rows : List Row} {m : Merge} (h : Filed rt projectId rows m) :
    (firsts (identityOf rt) rows).map (viewOf rt projectId) = m.views.map some := by
  rw [h.views, Merge.views, List.map_map]
  rfl

theorem Filed.sites_eq {rows : List Row} {m : Merge} (h : Filed rt projectId rows m) :
    m.sites = firsts SiteHead.siteId (m.views.map View.head) := by
  rw [h.sites, Merge.views, List.map_map]
  rfl

theorem viewOf_strong {raw : Row} {v : View} (h : viewOf rt projectId raw = some v) :
    v.strong = strong raw := by
  unfold viewOf at h
  split at h
  · cases h
    rfl
  · cases h

theorem Filed.views_append {rows extra : List Row} {m m' : Merge} (h : Filed rt projectId rows m)
    (h' : Filed rt projectId (rows ++ extra) m') :
    ∃ added, m'.views = m.views ++ added ∧
      ∀ v ∈ added, ∃ raw ∈ extra, viewOf rt projectId raw = some v := by
  obtain ⟨tail, htail, hsub, -⟩ := firsts_append (identityOf rt) rows extra
  have hviews := h'.views_eq
  rw [htail, List.map_append, h.views_eq] at hviews
  obtain ⟨front, back, hsplit, hfront, hback⟩ := List.append_eq_map_iff.mp hviews
  have hinj : Function.Injective (List.map (some : View → Option View)) :=
    List.map_injective_iff.mpr (Option.some_injective _)
  refine ⟨back, ?_, ?_⟩
  · rw [hsplit, hinj hfront]
  · intro v hv
    have hmem : some v ∈ tail.map (viewOf rt projectId) := by
      rw [← hback]
      exact List.mem_map_of_mem hv
    obtain ⟨raw, hraw, he⟩ := List.mem_map.mp hmem
    exact ⟨raw, hsub hraw, he⟩

theorem strongAt_append_weak {views added : List View} (h : ∀ v ∈ added, v.strong = false)
    (id : String) : strongAt (views ++ added) id = strongAt views id := by
  unfold strongAt
  rw [List.filter_append]
  have hnil : added.filter (fun v => v.strong && decide (v.head.siteId = id)) = [] := by
    rw [List.filter_eq_nil_iff]
    intro v hv
    simp [h v hv]
  rw [hnil, List.append_nil]

/-- **Weak observations move no strict row**: appended, they leave the strict rows alone. -/
theorem strict_rows_monotone {observations extra configurations configurations' : List Row}
    {coverage coverage' : List Coverage} {r r' : EvidenceMergeResult}
    (h : mergeCallEvidence rt observations coverage configurations projectId = .ok r)
    (h' : mergeCallEvidence rt (observations ++ extra) coverage' configurations' projectId = .ok r')
    (hweak : ∀ raw ∈ extra, strong raw = false) :
    (r'.strictCallRows.map StrictCallRow.triple).Perm
      (r.strictCallRows.map StrictCallRow.triple) := by
  obtain ⟨m, hf, -, hs, -⟩ := merge_filed h
  obtain ⟨m', hf', -, hs', -⟩ := merge_filed h'
  obtain ⟨added, hviews, hadded⟩ := hf.views_append hf'
  have hw : ∀ v ∈ added, v.strong = false := by
    intro v hv
    obtain ⟨raw, hraw, he⟩ := hadded v hv
    rw [viewOf_strong he]
    exact hweak raw hraw
  have hstrong : ∀ id, strongAt m'.views id = strongAt m.views id := by
    intro id
    rw [hviews]
    exact strongAt_append_weak hw id
  have houtcome : ∀ head t, Outcome rt m'.views head t ↔ Outcome rt m.views head t := by
    intro head t
    unfold Outcome
    rw [hstrong]
  obtain ⟨heads, hheads, -, hnew⟩ := firsts_append SiteHead.siteId (m.views.map View.head)
    (added.map View.head)
  have hsites : m'.sites = m.sites ++ heads := by
    rw [hf'.sites_eq, hviews, List.map_append, hheads, hf.sites_eq]
  have hok := (strict_rows_eq hs).2
  have hok' := (strict_rows_eq hs').2
  refine (strict_triples hs').trans (List.Perm.trans ?_ (strict_triples hs).symm)
  rw [hsites, List.filterMap_append]
  have hnone : heads.filterMap (fun head =>
      (siteRow rt (m'.siteOf head)).map StrictCallRow.triple) = [] := by
    rw [List.filterMap_eq_nil_iff]
    intro head hhead
    rw [Option.eq_none_iff_forall_not_mem]
    intro t ht
    have hmem : m'.siteOf head ∈ m'.callSites :=
      mem_callSites.mpr ⟨head, hsites ▸ List.mem_append_right _ hhead, rfl⟩
    obtain ⟨v, hv, -⟩ := (houtcome head t).mp ((outcome_iff (hok' _ hmem)).mp ht)
    obtain ⟨hvm, -, hvid⟩ := mem_strongAt.mp (List.mem_of_mem_head? hv)
    exact hnew head hhead v.head (List.mem_map_of_mem hvm) hvid
  have hsame : m.sites.filterMap (fun head =>
      (siteRow rt (m'.siteOf head)).map StrictCallRow.triple) =
      m.sites.filterMap fun head => (siteRow rt (m.siteOf head)).map StrictCallRow.triple := by
    refine List.filterMap_congr fun head hhead => Option.ext fun t => ?_
    have hmem : m.siteOf head ∈ m.callSites := mem_callSites.mpr ⟨head, hhead, rfl⟩
    have hmem' : m'.siteOf head ∈ m'.callSites :=
      mem_callSites.mpr ⟨head, hsites ▸ List.mem_append_left _ hhead, rfl⟩
    rw [outcome_iff (hok _ hmem), outcome_iff (hok' _ hmem'), houtcome]
  rw [hnone, hsame, List.append_nil]

/-! ## Soundness -/

variable (rt) in
/-- The caller of an observation. -/
def callerOf (row : Row) : String :=
  rt.textOr (either (field row "caller_id") (field row "caller_symbol_id"))

theorem parts_caller {row : Row} {parts : SiteParts}
    (h : observationSiteParts rt row = .ok parts) : callerOf rt row = parts.callerId := by
  unfold observationSiteParts at h
  obtain ⟨line, -, h⟩ := bind_ok.mp h
  obtain ⟨column, -, h⟩ := bind_ok.mp h
  split at h
  · cases h
  · cases h
    rfl

theorem strictCallRow_site (head : SiteHead) (o : Row) :
    field (strictCallRow rt head o).props "site_id" = .str head.siteId := by
  show field (strictProps head o) "site_id" = _
  unfold strictProps
  simp only [List.foldl_cons, List.foldl_nil, field_put]
  simp

theorem siteRow_site {site : MergedCallSite} {row : StrictCallRow}
    (h : siteRow rt site = some row) : field row.props "site_id" = .str site.head.siteId := by
  unfold siteRow at h
  split at h
  · obtain ⟨o, -, rfl⟩ := Option.map_eq_some_iff.mp h
    exact strictCallRow_site _ o
  · cases h

/-- What the strict rows of a result promise: one row for each site at most; a site has one when it
holds strong observations and these agree on the callee; and caller and callee of the row are those
of such an observation. -/
structure StrictSound (rt : Runtime) (r : EvidenceMergeResult) : Prop where
  unique : (r.strictCallRows.map fun row => field row.props "site_id").Nodup
  derived : ∀ site ∈ r.callSites,
    (∃ row ∈ r.strictCallRows, field row.props "site_id" = .str site.head.siteId) ↔
      (∃ o ∈ site.observations, strong o = true) ∧
        ∀ o ∈ site.observations, strong o = true → ∀ o' ∈ site.observations, strong o' = true →
          calleeKey rt o = calleeKey rt o'
  endpoints : ∀ site ∈ r.callSites, ∀ row ∈ r.strictCallRows,
    field row.props "site_id" = .str site.head.siteId →
      ∃ o ∈ site.observations, strong o = true ∧ callerOf rt o = row.callerId ∧
        rt.key (callee o) = rt.key row.calleeId

theorem Filed.sites_keyed {rows : List Row} {m : Merge} (h : Filed rt projectId rows m) :
    (m.callSites.map fun site => site.head.siteId).Nodup := by
  rw [((callSites_perm m).map _).nodup_iff, List.map_map, h.sites]
  exact keyed_firsts _

theorem Filed.row_of_site {rows : List Row} {m : Merge} (h : Filed rt projectId rows m)
    {site : MergedCallSite} (hsite : site ∈ m.callSites) {row : StrictCallRow}
    (hrow : row ∈ m.callSites.filterMap (siteRow rt))
    (hid : field row.props "site_id" = .str site.head.siteId) : siteRow rt site = some row := by
  obtain ⟨site', hs', hr⟩ := List.mem_filterMap.mp hrow
  have he := siteRow_site hr
  rw [hid] at he
  have heq : site = site' := eq_of_keyed h.sites_keyed hsite hs' (Json.str.inj he)
  rw [heq]
  exact hr

theorem strict_unique {rows : List Row} {m : Merge} (h : Filed rt projectId rows m) :
    ((m.callSites.filterMap (siteRow rt)).map fun row => field row.props "site_id").Nodup := by
  have hsub : ∀ sites : List MergedCallSite, List.Sublist
      ((sites.filterMap (siteRow rt)).map fun row => field row.props "site_id")
      (sites.map fun site => Json.str site.head.siteId) := by
    intro sites
    induction sites with
    | nil => exact List.Sublist.refl _
    | cons site sites ih =>
      rw [List.filterMap_cons, List.map_cons]
      cases hr : siteRow rt site with
      | none => exact ih.cons _
      | some row =>
        simp only [List.map_cons]
        rw [siteRow_site hr]
        exact ih.cons_cons _
  refine List.Nodup.sublist (hsub m.callSites) ?_
  have hkeyed : ((m.callSites.map fun site => site.head.siteId).map Json.str).Nodup :=
    h.sites_keyed.map fun a b he => Json.str.inj he
  rwa [List.map_map] at hkeyed

theorem strict_derived {rows : List Row} {m : Merge} (h : Filed rt projectId rows m)
    (hok : ∀ site ∈ m.callSites, ∃ accepted, site.acceptedObservation rt = .ok accepted)
    {site : MergedCallSite} (hsite : site ∈ m.callSites) :
    (∃ row ∈ m.callSites.filterMap (siteRow rt),
        field row.props "site_id" = .str site.head.siteId) ↔
      (∃ o ∈ site.observations, strong o = true) ∧
        ∀ o ∈ site.observations, strong o = true → ∀ o' ∈ site.observations, strong o' = true →
          calleeKey rt o = calleeKey rt o' := by
  constructor
  · rintro ⟨row, hrow, hid⟩
    obtain ⟨o, ho, hkeys, -⟩ := (siteRow_iff (hok site hsite)).mp (h.row_of_site hsite hrow hid)
    have hmem := List.mem_filter.mp (List.mem_of_mem_head? ho)
    exact ⟨⟨o, hmem⟩, hkeys⟩
  · rintro ⟨⟨o, ho, hso⟩, hkeys⟩
    have hne : site.observations.filter strong ≠ [] :=
      List.ne_nil_of_mem (List.mem_filter.mpr ⟨ho, hso⟩)
    obtain ⟨first, hfirst⟩ : ∃ first, (site.observations.filter strong).head? = some first :=
      ⟨_, List.head?_eq_some_head hne⟩
    have hrow := (siteRow_iff (hok site hsite)).mpr ⟨first, hfirst, hkeys, rfl⟩
    exact ⟨_, List.mem_filterMap.mpr ⟨site, hsite, hrow⟩, siteRow_site hrow⟩

/-- The row of a site has the endpoints of a strong observation when the site has the caller of
one. -/
theorem strict_endpoints {rows : List Row} {m : Merge} (h : Filed rt projectId rows m)
    (hok : ∀ site ∈ m.callSites, ∃ accepted, site.acceptedObservation rt = .ok accepted)
    {site : MergedCallSite} (hsite : site ∈ m.callSites) :
    (∀ row ∈ m.callSites.filterMap (siteRow rt),
        field row.props "site_id" = .str site.head.siteId →
        ∃ o ∈ site.observations, strong o = true ∧ callerOf rt o = row.callerId ∧
          rt.key (callee o) = rt.key row.calleeId) ↔
      ((∃ o ∈ site.observations, strong o = true) →
        (∀ o ∈ site.observations, strong o = true → ∀ o' ∈ site.observations, strong o' = true →
          calleeKey rt o = calleeKey rt o') →
        ∃ o ∈ site.observations, strong o = true ∧ callerOf rt o = site.head.parts.callerId) := by
  constructor
  · intro hall hstrong hkeys
    obtain ⟨row, hrow, hid⟩ := (strict_derived h hok hsite).mpr ⟨hstrong, hkeys⟩
    obtain ⟨o, ho, hso, hcaller, -⟩ := hall row hrow hid
    obtain ⟨first, -, -, rfl⟩ := (siteRow_iff (hok site hsite)).mp (h.row_of_site hsite hrow hid)
    exact ⟨o, ho, hso, hcaller⟩
  · intro hall row hrow hid
    obtain ⟨hstrong, hkeys⟩ := (strict_derived h hok hsite).mp ⟨row, hrow, hid⟩
    obtain ⟨first, hfirst, -, rfl⟩ :=
      (siteRow_iff (hok site hsite)).mp (h.row_of_site hsite hrow hid)
    obtain ⟨o, ho, hso, hcaller⟩ := hall hstrong hkeys
    have hf := List.mem_filter.mp (List.mem_of_mem_head? hfirst)
    refine ⟨o, ho, hso, hcaller, ?_⟩
    exact congrArg Prod.fst (hkeys o ho hso first hf.1 hf.2)

/-! ## The observations of a site -/

variable (rt) in
/-- The site of an observation, if its fields name one. -/
def siteKeyOf (raw : Row) : Option String := (nodeIdOf rt raw).toOption

/-- What the view of an observation says of it. -/
theorem viewOf_fields {raw : Row} {v : View} (h : viewOf rt projectId raw = some v) :
    siteKeyOf rt raw = some v.head.siteId ∧ v.strong = strong raw ∧ v.key rt = calleeKey rt raw ∧
      callerOf rt raw = v.head.parts.callerId := by
  have hsite : siteKeyOf rt raw = some v.head.siteId := by
    unfold siteKeyOf
    rw [nodeIdOf_view h]
    rfl
  have hcaller : callerOf rt raw = v.head.parts.callerId := by
    obtain ⟨parts, hparts, hrest⟩ := bind_ok.mp (viewOf_reads h).2
    obtain ⟨siteId, -, hrest⟩ := bind_ok.mp hrest
    cases hrest
    exact parts_caller hparts
  refine ⟨hsite, viewOf_strong h, ?_, hcaller⟩
  unfold viewOf at h
  split at h
  · cases h
    rfl
  · cases h

theorem Filed.view_of_first {rows : List Row} {m : Merge} (h : Filed rt projectId rows m) {raw : Row}
    (hraw : raw ∈ firsts (identityOf rt) rows) :
    ∃ v ∈ m.views, viewOf rt projectId raw = some v := by
  have hmem : viewOf rt projectId raw ∈ m.views.map some := by
    rw [← h.views_eq]
    exact List.mem_map_of_mem hraw
  obtain ⟨v, hv, he⟩ := List.mem_map.mp hmem
  exact ⟨v, hv, he.symm⟩

theorem Filed.first_of_view {rows : List Row} {m : Merge} (h : Filed rt projectId rows m) {v : View}
    (hv : v ∈ m.views) : ∃ raw ∈ firsts (identityOf rt) rows, viewOf rt projectId raw = some v := by
  have hmem : some v ∈ (firsts (identityOf rt) rows).map (viewOf rt projectId) := by
    rw [h.views_eq]
    exact List.mem_map_of_mem hv
  obtain ⟨raw, hraw, he⟩ := List.mem_map.mp hmem
  exact ⟨raw, hraw, he⟩

theorem Filed.find_view {rows : List Row} {m : Merge} (h : Filed rt projectId rows m)
    {p : Row → Bool} {q : View → Bool}
    (hpq : ∀ raw v, viewOf rt projectId raw = some v → p raw = q v) :
    ((firsts (identityOf rt) rows).find? p).map (viewOf rt projectId) =
      (m.views.find? q).map some := by
  have hleft : (firsts (identityOf rt) rows).find? p =
      (firsts (identityOf rt) rows).find? fun raw => (viewOf rt projectId raw).any q := by
    refine find?_congr fun raw hraw => ?_
    obtain ⟨v, -, hv⟩ := h.view_of_first hraw
    rw [hpq raw v hv, hv]
    rfl
  have hv := congrArg (List.find? fun o : Option View => o.any q) h.views_eq
  rw [List.find?_map, List.find?_map] at hv
  rw [hleft]
  exact hv

theorem siteKeyOf_view {raw : Row} {v : View} (h : viewOf rt projectId raw = some v) (id : String) :
    decide (siteKeyOf rt raw = some id) = decide (v.head.siteId = id) := by
  rw [(viewOf_fields h).1]
  simp

theorem Filed.lookup_site {rows : List Row} {m : Merge} (h : Filed rt projectId rows m)
    (id : String) :
    (lookup (siteKeyOf rt) (some id) (firsts (identityOf rt) rows)).map
        (fun raw => (viewOf rt projectId raw).map View.head) =
      (lookup SiteHead.siteId id m.sites).map some := by
  have hmap : (lookup (siteKeyOf rt) (some id) (firsts (identityOf rt) rows)).map
      (viewOf rt projectId) = (m.views.find? fun v => decide (v.head.siteId = id)).map some :=
    h.find_view fun raw v hv => siteKeyOf_view hv id
  have hright : lookup SiteHead.siteId id m.sites =
      (m.views.find? fun v => decide (v.head.siteId = id)).map View.head := by
    rw [h.sites_eq, lookup_firsts]
    unfold lookup
    rw [List.find?_map]
    rfl
  have hheads := congrArg (Option.map (Option.map View.head)) hmap
  rw [Option.map_map, Option.map_map] at hheads
  rw [hright, Option.map_map]
  exact hheads

/-- A strong observation, filed under the site of `first`. -/
def StrongAlike (rt : Runtime) (observations : List Row) (first o : Row) : Prop :=
  o ∈ firsts (identityOf rt) observations ∧ siteKeyOf rt o = siteKeyOf rt first ∧ strong o = true

/-- The first observation filed under a site has the caller of a strong one, where the strong ones
agree on the callee. -/
def SitesKeepCallers (rt : Runtime) (observations : List Row) : Prop :=
  ∀ first, lookup (siteKeyOf rt) (siteKeyOf rt first) (firsts (identityOf rt) observations) =
      some first →
    (∃ o, StrongAlike rt observations first o) →
    (∀ o, StrongAlike rt observations first o → ∀ o', StrongAlike rt observations first o' →
      calleeKey rt o = calleeKey rt o') →
    ∃ o, StrongAlike rt observations first o ∧ callerOf rt o = callerOf rt first

/-- Where the strong ones of `P` agree on the callee, one of them has the caller `c`. -/
def CallerAmong {α κ : Type} (P : α → Prop) (key : α → κ) (caller : α → String) (c : String) : Prop :=
  (∃ a, P a) → (∀ a, P a → ∀ a', P a' → key a = key a') → ∃ a, P a ∧ caller a = c

theorem CallerAmong.transfer {α β κ : Type} {P : α → Prop} {key : α → κ} {caller : α → String}
    {Q : β → Prop} {key' : β → κ} {caller' : β → String}
    (hto : ∀ a, P a → ∃ b, Q b ∧ key' b = key a ∧ caller' b = caller a)
    (hfrom : ∀ b, Q b → ∃ a, P a ∧ key a = key' b ∧ caller a = caller' b) {c : String}
    (h : CallerAmong P key caller c) : CallerAmong Q key' caller' c := by
  rintro ⟨b, hb⟩ hkeys
  obtain ⟨a, ha, -⟩ := hfrom b hb
  have hagree : ∀ a, P a → ∀ a', P a' → key a = key a' := by
    intro a ha a' ha'
    obtain ⟨x, hx, hxk, -⟩ := hto a ha
    obtain ⟨y, hy, hyk, -⟩ := hto a' ha'
    rw [← hxk, ← hyk]
    exact hkeys x hx y hy
  obtain ⟨a, ha, rfl⟩ := h ⟨a, ha⟩ hagree
  obtain ⟨x, hx, -, hxc⟩ := hto a ha
  exact ⟨x, hx, hxc⟩

variable (rt) in
/-- The caller of the site is that of a strong view, where these agree. -/
def ViewsKeepCaller (views : List View) (head : SiteHead) : Prop :=
  CallerAmong (· ∈ strongAt views head.siteId) (View.key rt) (fun v => v.head.parts.callerId)
    head.parts.callerId

theorem Filed.rows_callers {rows : List Row} {m : Merge} (h : Filed rt projectId rows m)
    (head : SiteHead) :
    CallerAmong (fun o => o ∈ (m.siteOf head).observations ∧ strong o = true) (calleeKey rt)
        (callerOf rt) head.parts.callerId ↔ ViewsKeepCaller rt m.views head := by
  have hto : ∀ o, o ∈ (m.siteOf head).observations ∧ strong o = true →
      ∃ v, v ∈ strongAt m.views head.siteId ∧ v.key rt = calleeKey rt o ∧
        v.head.parts.callerId = callerOf rt o := by
    rintro o ⟨ho, hso⟩
    obtain ⟨e, he, rfl⟩ := List.mem_map.mp ho
    obtain ⟨hem, hid⟩ := List.mem_filter.mp he
    refine ⟨e.view, mem_strongAt.mpr ⟨List.mem_map_of_mem hem, hso, of_decide_eq_true hid⟩, rfl, ?_⟩
    exact (parts_caller (h.entries e hem).parts).symm
  have hfrom : ∀ v, v ∈ strongAt m.views head.siteId →
      ∃ o, (o ∈ (m.siteOf head).observations ∧ strong o = true) ∧ calleeKey rt o = v.key rt ∧
        callerOf rt o = v.head.parts.callerId := by
    intro v hv
    obtain ⟨hvm, hsv, hid⟩ := mem_strongAt.mp hv
    obtain ⟨e, he, rfl⟩ := List.mem_map.mp hvm
    have hmem : e.row ∈ (m.siteOf head).observations :=
      List.mem_map_of_mem (List.mem_filter.mpr ⟨he, decide_eq_true hid⟩)
    exact ⟨e.row, ⟨hmem, hsv⟩, rfl, parts_caller (h.entries e he).parts⟩
  exact ⟨CallerAmong.transfer hto hfrom, CallerAmong.transfer hfrom hto⟩

theorem Filed.raws_callers {rows : List Row} {m : Merge} (h : Filed rt projectId rows m)
    (head : SiteHead) :
    CallerAmong (fun o => o ∈ firsts (identityOf rt) rows ∧ siteKeyOf rt o = some head.siteId ∧
        strong o = true) (calleeKey rt) (callerOf rt) head.parts.callerId ↔
      ViewsKeepCaller rt m.views head := by
  have hto : ∀ o, (o ∈ firsts (identityOf rt) rows ∧ siteKeyOf rt o = some head.siteId ∧
        strong o = true) →
      ∃ v, v ∈ strongAt m.views head.siteId ∧ v.key rt = calleeKey rt o ∧
        v.head.parts.callerId = callerOf rt o := by
    rintro o ⟨ho, hid, hso⟩
    obtain ⟨v, hv, he⟩ := h.view_of_first ho
    obtain ⟨hsite, hstrong, hkey, hcaller⟩ := viewOf_fields he
    rw [hid] at hsite
    exact ⟨v, mem_strongAt.mpr ⟨hv, hstrong.trans hso, (Option.some.inj hsite).symm⟩, hkey,
      hcaller.symm⟩
  have hfrom : ∀ v, v ∈ strongAt m.views head.siteId →
      ∃ o, (o ∈ firsts (identityOf rt) rows ∧ siteKeyOf rt o = some head.siteId ∧
        strong o = true) ∧ calleeKey rt o = v.key rt ∧ callerOf rt o = v.head.parts.callerId := by
    intro v hv
    obtain ⟨hvm, hsv, hid⟩ := mem_strongAt.mp hv
    obtain ⟨raw, hraw, he⟩ := h.first_of_view hvm
    obtain ⟨hsite, hstrong, hkey, hcaller⟩ := viewOf_fields he
    exact ⟨raw, ⟨hraw, by rw [hsite, hid], hstrong.symm.trans hsv⟩, hkey.symm, hcaller⟩
  exact ⟨CallerAmong.transfer hto hfrom, CallerAmong.transfer hfrom hto⟩

/-- The condition on the observations is the one on the sites. -/
theorem Filed.callers_iff {rows : List Row} {m : Merge} (h : Filed rt projectId rows m) :
    SitesKeepCallers rt rows ↔ ∀ head ∈ m.sites, ViewsKeepCaller rt m.views head := by
  constructor
  · intro hall head hhead
    have hkeyed : Keyed SiteHead.siteId m.sites := by
      rw [h.sites]
      exact keyed_firsts _
    have hlookup := h.lookup_site head.siteId
    rw [lookup_of_mem hkeyed hhead] at hlookup
    obtain ⟨first, hfirst, hview⟩ := Option.map_eq_some_iff.mp hlookup
    obtain ⟨v, hv, hhead'⟩ := Option.map_eq_some_iff.mp hview
    obtain ⟨hsite, -, -, hcaller⟩ := viewOf_fields hv
    rw [hhead'] at hsite hcaller
    rw [← h.raws_callers, ← hcaller, ← hsite]
    exact hall first (by rw [hsite]; exact hfirst)
  · intro hall first hfirst
    obtain ⟨v, hv, hview⟩ := h.view_of_first (lookup_mem hfirst)
    obtain ⟨hsite, -, -, hcaller⟩ := viewOf_fields hview
    have hlookup := h.lookup_site v.head.siteId
    rw [← hsite, hfirst, Option.map_some, hview] at hlookup
    obtain ⟨head, hhead, heq⟩ := Option.map_eq_some_iff.mp hlookup.symm
    obtain rfl : head = v.head := Option.some.inj heq
    have hkeep := (h.raws_callers v.head).mpr (hall v.head (lookup_mem hhead))
    rw [← hsite, ← hcaller] at hkeep
    exact hkeep

/-- Soundness of the strict rows, and that no weak observation moves them. -/
structure StrictContract (rt : Runtime) (projectId : String) (observations : List Row)
    (r : EvidenceMergeResult) : Prop where
  sound : StrictSound rt r
  monotone : ∀ (extra configurations : List Row) (coverage : List Coverage)
    (r' : EvidenceMergeResult),
    mergeCallEvidence rt (observations ++ extra) coverage configurations projectId = .ok r' →
    (∀ raw ∈ extra, strong raw = false) →
    (r'.strictCallRows.map StrictCallRow.triple).Perm (r.strictCallRows.map StrictCallRow.triple)

theorem strictSound_of_filed {observations : List Row} {m : Merge} {r : EvidenceMergeResult}
    (hf : Filed rt projectId observations m) (hs : r.callSites = m.callSites)
    (hrows : strictCallRows rt m.callSites = .ok r.strictCallRows) :
    StrictSound rt r ↔ SitesKeepCallers rt observations := by
  obtain ⟨hr, hok⟩ := strict_rows_eq hrows
  have hsite : (∀ site ∈ m.callSites, ∀ row ∈ r.strictCallRows,
      field row.props "site_id" = .str site.head.siteId →
        ∃ o ∈ site.observations, strong o = true ∧ callerOf rt o = row.callerId ∧
          rt.key (callee o) = rt.key row.calleeId) ↔ SitesKeepCallers rt observations := by
    rw [hf.callers_iff, hr]
    constructor
    · intro hall head hhead
      have hmem : m.siteOf head ∈ m.callSites := mem_callSites.mpr ⟨head, hhead, rfl⟩
      have he := (strict_endpoints hf hok hmem).mp (hall _ hmem)
      refine (hf.rows_callers head).mp ?_
      rintro ⟨o, ho⟩ hkeys
      obtain ⟨x, hx, hsx, hc⟩ := he ⟨o, ho⟩ fun a ha hsa b hb hsb => hkeys a ⟨ha, hsa⟩ b ⟨hb, hsb⟩
      exact ⟨x, ⟨hx, hsx⟩, hc⟩
    · intro hall site hmem
      obtain ⟨head, hhead, rfl⟩ := mem_callSites.mp hmem
      refine (strict_endpoints hf hok hmem).mpr ?_
      rintro ⟨o, ho⟩ hkeys
      obtain ⟨x, ⟨hx, hsx⟩, hc⟩ := (hf.rows_callers head).mpr (hall head hhead) ⟨o, ho⟩
        fun a ha b hb => hkeys a ha.1 ha.2 b hb.1 hb.2
      exact ⟨x, hx, hsx, hc⟩
  constructor
  · intro h
    refine hsite.mp fun site hmem => h.endpoints site ?_
    rw [hs]
    exact hmem
  · intro h
    refine ⟨?_, ?_, ?_⟩
    · rw [hr]
      exact strict_unique hf
    · intro site hmem
      rw [hs] at hmem
      rw [hr]
      exact strict_derived hf hok hmem
    · intro site hmem
      rw [hs] at hmem
      exact hsite.mpr h site hmem

/-- **The strict rows are sound and monotone exactly when** the first observation of every site with
agreeing strong ones has the caller of one of these. -/
theorem strict_contract_iff {observations configurations : List Row} {coverage : List Coverage}
    {r : EvidenceMergeResult}
    (h : mergeCallEvidence rt observations coverage configurations projectId = .ok r) :
    StrictContract rt projectId observations r ↔ SitesKeepCallers rt observations := by
  obtain ⟨m, hf, hs, hrows, -⟩ := merge_filed h
  constructor
  · exact fun hc => (strictSound_of_filed hf hs hrows).mp hc.sound
  · intro hc
    refine ⟨(strictSound_of_filed hf hs hrows).mpr hc, ?_⟩
    intro extra configurations' coverage' r' h' hweak
    exact strict_rows_monotone h h' hweak

/-- A lexical candidate. -/
def sampleLexical (caller path : String) : Row :=
  [("caller_id", .str caller), ("file_path", .str path), ("line", .int 3), ("column", .int 5)]

/-- A strong observation at the same position. -/
def sampleSemantic (caller path : String) : Row :=
  sampleLexical caller path ++
    [("callee_id", .str "f2"), ("callee_usr", .str "usr:f2"),
      ("resolution_class", .str directResolved), ("semantic_provider", .str "clang_worker"),
      ("tu_key", .str "a.c"), ("config_fingerprint", .str "cf1"),
      ("context_fidelity", .str "faithful"), ("context_admission", .str "accepted"),
      ("execution_coverage", .str "complete"), ("context_attestation", .str "attested"),
      ("manifest_key", .str "manifest")]

/-- A strong observation alone. -/
theorem strict_contract_sample :
    ∃ r, mergeCallEvidence sampleRuntime [sampleSemantic "f1" "a.c"] [] [] "" = .ok r ∧
      StrictContract sampleRuntime "" [sampleSemantic "f1" "a.c"] r := by
  have hall : ∀ raw ∈ [sampleSemantic "f1" "a.c"], raw = sampleSemantic "f1" "a.c" := by simp
  have hplain : ∀ raw ∈ [sampleSemantic "f1" "a.c"], Plain sampleRuntime "" raw := by
    intro raw hraw
    rw [hall raw hraw]
    exact ⟨⟨_, rfl⟩, ⟨_, rfl⟩, ⟨_, rfl⟩, rfl, rfl, rfl⟩
  obtain ⟨r, hr⟩ := merge_succeeds hplain
  refine ⟨r, hr, (strict_contract_iff hr).mpr ?_⟩
  rintro first hfirst ⟨o, ho, hos⟩ -
  refine ⟨o, ⟨ho, hos⟩, ?_⟩
  rw [hall o (mem_of_mem_firsts ho), hall first (mem_of_mem_firsts (lookup_mem hfirst))]

/-- **Two callers whose keys are the same text share a site**: the strict row has the caller of the
lexical candidate, not that of the strong observation. -/
theorem colliding_caller_published :
    ¬ ∀ (rt : Runtime) (observations configurations : List Row) (coverage : List Coverage)
      (projectId : String) (r : EvidenceMergeResult),
      mergeCallEvidence rt observations coverage configurations projectId = .ok r →
      StrictContract rt projectId observations r := by
  intro h
  have hne : identityOf sampleRuntime (sampleLexical "lib" "util:a.c") ≠
      identityOf sampleRuntime (sampleSemantic "lib:util" "a.c") := by
    intro he
    exact dumpsAscii_ne (n := 1) (by decide +kernel) (Option.some.inj he)
  obtain ⟨r, hr⟩ : ∃ r, mergeCallEvidence sampleRuntime
      [sampleLexical "lib" "util:a.c", sampleSemantic "lib:util" "a.c"] [] [] "" = .ok r := by
    refine merge_succeeds fun raw hraw => ?_
    rcases List.mem_cons.mp hraw with rfl | hraw
    · exact ⟨⟨_, rfl⟩, ⟨_, rfl⟩, ⟨_, rfl⟩, rfl, rfl, rfl⟩
    · rw [List.mem_singleton.mp hraw]
      exact ⟨⟨_, rfl⟩, ⟨_, rfl⟩, ⟨_, rfl⟩, rfl, rfl, rfl⟩
  obtain ⟨m, hf, hs, hrows, -⟩ := merge_filed hr
  have hkeep := (strictSound_of_filed hf hs hrows).mp (h _ _ _ _ _ r hr).sound
  have hfirsts : firsts (identityOf sampleRuntime)
      ([sampleLexical "lib" "util:a.c"] ++ [sampleSemantic "lib:util" "a.c"]) =
      [sampleLexical "lib" "util:a.c", sampleSemantic "lib:util" "a.c"] := by
    rw [firsts_snoc]
    exact keepFirst_new fun x hx => by
      rw [List.mem_singleton.mp hx]
      exact hne
  have hsite : siteKeyOf sampleRuntime (sampleSemantic "lib:util" "a.c") =
      siteKeyOf sampleRuntime (sampleLexical "lib" "util:a.c") := by decide +kernel
  unfold SitesKeepCallers StrongAlike at hkeep
  rw [show [sampleLexical "lib" "util:a.c", sampleSemantic "lib:util" "a.c"] =
    [sampleLexical "lib" "util:a.c"] ++ [sampleSemantic "lib:util" "a.c"] from rfl, hfirsts] at hkeep
  have hstrong : strong (sampleSemantic "lib:util" "a.c") = true := by decide +kernel
  have hweak : strong (sampleLexical "lib" "util:a.c") = false := by decide +kernel
  have honly : ∀ o ∈ [sampleLexical "lib" "util:a.c", sampleSemantic "lib:util" "a.c"],
      strong o = true → o = sampleSemantic "lib:util" "a.c" := by
    intro o ho hso
    rcases List.mem_cons.mp ho with rfl | ho
    · rw [hweak] at hso
      cases hso
    · exact List.mem_singleton.mp ho
  obtain ⟨o, ⟨ho, -, hso⟩, hcaller⟩ := hkeep (sampleLexical "lib" "util:a.c")
    (by simp [lookup]) ⟨sampleSemantic "lib:util" "a.c", by simp, hsite, hstrong⟩
    fun a ha b hb => by rw [honly a ha.1 ha.2.2, honly b hb.1 hb.2.2]
  rw [honly o ho hso] at hcaller
  exact absurd hcaller (by decide +kernel)

end CortexHarness.Evidence
