import CortexHarness.Evidence.Strict
import CortexHarness.Library.Merging

/-!
# The order of the observations

The merge is a first-wins merge: an observation has an evidence identity and a site, the first of an
identity is filed, and the strong ones of a site elect the strict row. `evidenceReading` is that
reading of an observation, so `Merging.OrderFree` says when the result depends on the order.

Results:
* `Filed.same_iff`: two results agree when the two orders give the same merge;
* `order_independent_iff`: the results agree in every order exactly when the observations are
  `OrderFree`;
* `order_leaks`: two calls at one position, read in the two orders, are filed under two sites.
-/

namespace CortexHarness.Evidence

open Json Table Merging

variable (rt : Runtime)

/-- The parts of the site of an observation, if its fields name one. -/
def partsOf (raw : Row) : Option SiteParts := (observationSite rt raw).toOption.map Prod.fst

/-- A strict row up to Python's equality of callees. -/
abbrev Published := String × Option Key × String

/-- Caller, callee and site id of a strict row. -/
def StrictCallRow.published (row : StrictCallRow) : Published :=
  (row.callerId, rt.key row.calleeId, row.siteId)

/-- What the merge reads of an observation. -/
def evidenceReading : Reading Row (Option String) (Option String) (Option SiteParts)
    (Option Key × Option Key) (Option Published) where
  ident := identityOf rt
  group := siteKeyOf rt
  parts := partsOf rt
  strong := strong
  key := calleeKey rt
  result := fun parts o => parts.map fun p =>
    (p.callerId, rt.key (callee o), (tripleOf rt p (callee o)).2.2)

/-- Two results agree: the same sites, the same evidence in each, the same count of repeats and the
same strict rows. -/
structure SameResult (r r' : EvidenceMergeResult) : Prop where
  sites : ∀ id parts, (∃ site ∈ r.callSites, site.head.siteId = id ∧ site.head.parts = parts) ↔
    ∃ site ∈ r'.callSites, site.head.siteId = id ∧ site.head.parts = parts
  evidence : ∀ id e, (∃ site ∈ r.callSites, site.head.siteId = id ∧
      ∃ o ∈ site.observations, field o "evidence_id" = e) ↔
    ∃ site ∈ r'.callSites, site.head.siteId = id ∧
      ∃ o ∈ site.observations, field o "evidence_id" = e
  collapsed : r.duplicatesCollapsed = r'.duplicatesCollapsed
  strict : ∀ t, (∃ row ∈ r.strictCallRows, row.published rt = t) ↔
    ∃ row ∈ r'.strictCallRows, row.published rt = t

variable {rt} {projectId : String} {rows rows' : List Row} {m m' : Merge}

theorem partsOf_view {raw : Row} {v : View} (h : viewOf rt projectId raw = some v) :
    partsOf rt raw = some v.head.parts := by
  unfold partsOf
  rw [(viewOf_reads h).2]
  rfl

theorem Filed.sites_nodup (h : Filed rt projectId rows m) : Keyed SiteHead.siteId m.sites := by
  rw [h.sites]
  exact keyed_firsts _

theorem Filed.site_iff (h : Filed rt projectId rows m) {id : String} {parts : SiteParts} :
    (∃ site ∈ m.callSites, site.head.siteId = id ∧ site.head.parts = parts) ↔
      (head (evidenceReading rt) rows (some id)).map (partsOf rt) = some (some parts) := by
  have hmap : (head (evidenceReading rt) rows (some id)).map (partsOf rt) =
      (lookup SiteHead.siteId id m.sites).map fun hd => some hd.parts := by
    have hl := congrArg (Option.map (Option.map SiteHead.parts)) (h.lookup_site id)
    rw [Option.map_map, Option.map_map] at hl
    have hparts : (head (evidenceReading rt) rows (some id)).map (partsOf rt) =
        (head (evidenceReading rt) rows (some id)).map
          (Option.map SiteHead.parts ∘ fun raw => (viewOf rt projectId raw).map View.head) := by
      refine Option.map_congr fun raw hraw => ?_
      obtain ⟨v, -, hv⟩ := h.view_of_first (head_mem hraw).1
      rw [partsOf_view hv]
      simp [hv]
    rw [hparts]
    exact hl
  rw [hmap]
  constructor
  · rintro ⟨site, hs, rfl, rfl⟩
    obtain ⟨hd, hh, rfl⟩ := mem_callSites.mp hs
    show (lookup SiteHead.siteId hd.siteId m.sites).map _ = _
    rw [lookup_of_mem h.sites_nodup hh]
    rfl
  · intro hl
    obtain ⟨hd, hh, he⟩ := Option.map_eq_some_iff.mp hl
    exact ⟨m.siteOf hd, mem_callSites.mpr ⟨hd, lookup_mem hh, rfl⟩, lookup_key hh,
      Option.some.inj he⟩

theorem Filed.evidence_iff (h : Filed rt projectId rows m) {id : String} {e : Json} :
    (∃ site ∈ m.callSites, site.head.siteId = id ∧
        ∃ o ∈ site.observations, field o "evidence_id" = e) ↔
      ∃ raw ∈ kept (evidenceReading rt) rows, siteKeyOf rt raw = some id ∧
        ∃ s, identityOf rt raw = some s ∧ e = .str s := by
  constructor
  · rintro ⟨site, hs, rfl, o, ho, rfl⟩
    obtain ⟨hd, -, rfl⟩ := mem_callSites.mp hs
    obtain ⟨x, hx, rfl⟩ := List.mem_map.mp ho
    obtain ⟨hxm, hxid⟩ := List.mem_filter.mp hx
    obtain ⟨raw, hraw, hv⟩ := h.mem_views.mp ⟨x, hxm, rfl⟩
    refine ⟨raw, hraw, ?_, x.evidenceId, identityOf_eq.mpr (viewOf_reads hv).1,
      (h.entries x hxm).evidence⟩
    rw [(viewOf_fields hv).1]
    exact congrArg some (of_decide_eq_true hxid)
  · rintro ⟨raw, hraw, hid, s, hs, rfl⟩
    obtain ⟨v, hvm, hv⟩ := h.view_of_first hraw
    obtain ⟨x, hxm, rfl⟩ := List.mem_map.mp hvm
    rw [(viewOf_fields hv).1] at hid
    obtain rfl : x.head.siteId = id := Option.some.inj hid
    rw [identityOf_eq.mpr (viewOf_reads hv).1] at hs
    obtain rfl : x.evidenceId = s := Option.some.inj hs
    obtain ⟨hd, hh, he⟩ : ∃ hd ∈ m.sites, hd.siteId = x.head.siteId := by
      rw [h.sites]
      exact exists_firsts (List.mem_map_of_mem hxm)
    refine ⟨m.siteOf hd, mem_callSites.mpr ⟨hd, hh, rfl⟩, he, x.row, ?_, (h.entries x hxm).evidence⟩
    exact List.mem_map_of_mem (List.mem_filter.mpr ⟨hxm, decide_eq_true he.symm⟩)

theorem Filed.champion_view (h : Filed rt projectId rows m) (id : String) :
    (champion (evidenceReading rt) rows (some id)).map (viewOf rt projectId) =
      (strongAt m.views id).head?.map some := by
  rw [strongAt, List.head?_filter]
  refine h.find_view fun raw v hv => ?_
  obtain ⟨-, hs, -⟩ := viewOf_fields hv
  show (strong raw && decide (siteKeyOf rt raw = some id)) = _
  rw [hs, siteKeyOf_view hv]

theorem Filed.keys_iff (h : Filed rt projectId rows m) (id : String) :
    (∀ x ∈ kept (evidenceReading rt) rows, strong x = true → siteKeyOf rt x = some id →
        ∀ y ∈ kept (evidenceReading rt) rows, strong y = true → siteKeyOf rt y = some id →
          calleeKey rt x = calleeKey rt y) ↔
      ∀ x ∈ strongAt m.views id, ∀ y ∈ strongAt m.views id, x.key rt = y.key rt := by
  have hto : ∀ x ∈ kept (evidenceReading rt) rows, strong x = true → siteKeyOf rt x = some id →
      ∃ v ∈ strongAt m.views id, v.key rt = calleeKey rt x := by
    intro x hx hs hid
    obtain ⟨v, hvm, hv⟩ := h.view_of_first hx
    obtain ⟨hsite, hstrong, hkey, -⟩ := viewOf_fields hv
    rw [hid] at hsite
    exact ⟨v, mem_strongAt.mpr ⟨hvm, hstrong.trans hs, (Option.some.inj hsite).symm⟩, hkey⟩
  have hfrom : ∀ v ∈ strongAt m.views id, ∃ x ∈ kept (evidenceReading rt) rows, strong x = true ∧
      siteKeyOf rt x = some id ∧ calleeKey rt x = v.key rt := by
    intro v hv
    obtain ⟨hvm, hsv, hid⟩ := mem_strongAt.mp hv
    obtain ⟨raw, hraw, he⟩ := h.first_of_view hvm
    obtain ⟨hsite, hstrong, hkey, -⟩ := viewOf_fields he
    exact ⟨raw, hraw, hstrong.symm.trans hsv, by rw [hsite, hid], hkey.symm⟩
  constructor
  · intro hall v hv w hw
    obtain ⟨x, hx, hsx, hgx, hkx⟩ := hfrom v hv
    obtain ⟨y, hy, hsy, hgy, hky⟩ := hfrom w hw
    rw [← hkx, ← hky]
    exact hall x hx hsx hgx y hy hsy hgy
  · intro hall x hx hsx hgx y hy hsy hgy
    obtain ⟨v, hv, hkv⟩ := hto x hx hsx hgx
    obtain ⟨w, hw, hkw⟩ := hto y hy hsy hgy
    rw [← hkv, ← hkw]
    exact hall v hv w hw

theorem viewOf_callee {raw : Row} {v : View} (h : viewOf rt projectId raw = some v) :
    v.callee = callee raw := by
  unfold viewOf at h
  split at h
  · cases h
    rfl
  · cases h

theorem Filed.elected_iff (h : Filed rt projectId rows m) {hd : SiteHead} (hhd : hd ∈ m.sites)
    {t : Published} :
    Elected (evidenceReading rt) rows (some hd.siteId) (some t) ↔
      ∃ tr, Outcome rt m.views hd tr ∧ t = (tr.1, rt.key tr.2.1, tr.2.2) := by
  have hparts : (head (evidenceReading rt) rows (some hd.siteId)).map (partsOf rt) =
      some (some hd.parts) :=
    h.site_iff.mp ⟨m.siteOf hd, mem_callSites.mpr ⟨hd, hhd, rfl⟩, rfl, rfl⟩
  obtain ⟨x, hx, hxp⟩ := Option.map_eq_some_iff.mp hparts
  have hchamp := h.champion_view hd.siteId
  constructor
  · rintro ⟨x', o, hx', ho, hkeys, ht⟩
    obtain rfl : x' = x := Option.some.inj (hx'.symm.trans hx)
    rw [ho, Option.map_some] at hchamp
    obtain ⟨v, hv, hvo⟩ := Option.map_eq_some_iff.mp hchamp.symm
    refine ⟨_, ⟨v, hv, (h.keys_iff hd.siteId).mp hkeys, rfl⟩, ?_⟩
    have hres : some t = (partsOf rt x').map fun p =>
        (p.callerId, rt.key (callee o), (tripleOf rt p (callee o)).2.2) := ht
    rw [hxp] at hres
    rw [viewOf_callee hvo.symm]
    exact Option.some.inj hres
  · rintro ⟨tr, ⟨v, hv, hkeys, rfl⟩, rfl⟩
    rw [hv, Option.map_some] at hchamp
    obtain ⟨o, ho, hvo⟩ := Option.map_eq_some_iff.mp hchamp
    refine ⟨x, o, hx, ho, (h.keys_iff hd.siteId).mpr hkeys, ?_⟩
    show _ = (partsOf rt x).map fun p =>
        (p.callerId, rt.key (callee o), (tripleOf rt p (callee o)).2.2)
    rw [hxp, viewOf_callee hvo]
    rfl

theorem Filed.strict_iff (h : Filed rt projectId rows m) {strictRows : List StrictCallRow}
    (hs : strictCallRows rt m.callSites = .ok strictRows) {t : Published} :
    (∃ row ∈ strictRows, row.published rt = t) ↔
      ∃ g, Elected (evidenceReading rt) rows g (some t) := by
  have hok := (strict_rows_eq hs).2
  have htriple : ∀ tr, (∃ row ∈ strictRows, row.triple = tr) ↔
      ∃ hd ∈ m.sites, Outcome rt m.views hd tr := by
    intro tr
    have hmem := (strict_triples hs).mem_iff (a := tr)
    rw [List.mem_map, List.mem_filterMap] at hmem
    rw [hmem]
    constructor
    · rintro ⟨hd, hhd, ho⟩
      exact ⟨hd, hhd, (outcome_iff (hok _ (mem_callSites.mpr ⟨hd, hhd, rfl⟩))).mp ho⟩
    · rintro ⟨hd, hhd, ho⟩
      exact ⟨hd, hhd, (outcome_iff (hok _ (mem_callSites.mpr ⟨hd, hhd, rfl⟩))).mpr ho⟩
  constructor
  · rintro ⟨row, hrow, rfl⟩
    obtain ⟨hd, hhd, ho⟩ := (htriple row.triple).mp ⟨row, hrow, rfl⟩
    exact ⟨some hd.siteId, (h.elected_iff hhd).mpr ⟨_, ho, rfl⟩⟩
  · rintro ⟨g, he⟩
    obtain ⟨x, -, hx, -⟩ := id he
    obtain ⟨hxk, hxg⟩ := head_mem hx
    obtain ⟨v, hvm, hv⟩ := h.view_of_first hxk
    obtain ⟨hd, hhd, hid⟩ : ∃ hd ∈ m.sites, hd.siteId = v.head.siteId := by
      rw [h.sites_eq]
      exact exists_firsts (List.mem_map_of_mem hvm)
    have hg : some hd.siteId = g := by
      rw [hid, ← hxg]
      exact (viewOf_fields hv).1.symm
    rw [← hg] at he
    obtain ⟨tr, ho, rfl⟩ := (h.elected_iff hhd).mp he
    obtain ⟨row, hrow, rfl⟩ := (htriple tr).mpr ⟨hd, hhd, ho⟩
    exact ⟨row, hrow, rfl⟩

theorem Filed.groups_iff (h : Filed rt projectId rows m) {g : Option String}
    {p : Option SiteParts} :
    (head (evidenceReading rt) rows g).map (partsOf rt) = some p ↔
      ∃ id parts, g = some id ∧ p = some parts ∧
        ∃ site ∈ m.callSites, site.head.siteId = id ∧ site.head.parts = parts := by
  constructor
  · intro hg
    obtain ⟨raw, hraw, rfl⟩ := Option.map_eq_some_iff.mp hg
    obtain ⟨hk, hgroup⟩ := head_mem hraw
    obtain ⟨v, -, hv⟩ := h.view_of_first hk
    have hid : g = some v.head.siteId := hgroup.symm.trans (viewOf_fields hv).1
    rw [hid, partsOf_view hv] at hg
    exact ⟨_, _, hid, partsOf_view hv, h.site_iff.mpr hg⟩
  · rintro ⟨id, parts, rfl, rfl, hsite⟩
    exact h.site_iff.mp hsite

theorem Filed.members_iff (h : Filed rt projectId rows m) {g e : Option String} :
    (∃ o ∈ kept (evidenceReading rt) rows, siteKeyOf rt o = g ∧ identityOf rt o = e) ↔
      ∃ id s, g = some id ∧ e = some s ∧ ∃ site ∈ m.callSites, site.head.siteId = id ∧
        ∃ o ∈ site.observations, field o "evidence_id" = .str s := by
  constructor
  · rintro ⟨o, ho, rfl, rfl⟩
    obtain ⟨v, -, hv⟩ := h.view_of_first ho
    have hid := (viewOf_fields hv).1
    have hs := identityOf_eq.mpr (viewOf_reads hv).1
    exact ⟨_, _, hid, hs, h.evidence_iff.mpr ⟨o, ho, hid, _, hs, rfl⟩⟩
  · rintro ⟨id, s, rfl, rfl, hsite⟩
    obtain ⟨o, ho, hid, s', hs', he⟩ := h.evidence_iff.mp hsite
    rw [Json.str.inj he]
    exact ⟨o, ho, hid, hs'⟩

theorem Filed.results_iff (h : Filed rt projectId rows m) {strictRows : List StrictCallRow}
    (hs : strictCallRows rt m.callSites = .ok strictRows) {t : Option Published} :
    (∃ g, Elected (evidenceReading rt) rows g t) ↔
      ∃ u, t = some u ∧ ∃ row ∈ strictRows, row.published rt = u := by
  constructor
  · rintro ⟨g, he⟩
    obtain ⟨x, o, hx, -, -, ht⟩ := id he
    obtain ⟨v, -, hv⟩ := h.view_of_first (head_mem hx).1
    have hres : t = (partsOf rt x).map fun p =>
        (p.callerId, rt.key (callee o), (tripleOf rt p (callee o)).2.2) := ht
    rw [partsOf_view hv, Option.map_some] at hres
    rw [hres] at he
    exact ⟨_, hres, (h.strict_iff hs).mpr ⟨g, he⟩⟩
  · rintro ⟨u, rfl, hrow⟩
    exact (h.strict_iff hs).mp hrow

/-- Two results agree when the two orders give the same merge. -/
theorem Filed.same_iff (h : Filed rt projectId rows m) (h' : Filed rt projectId rows' m')
    (hp : rows.Perm rows') {r r' : EvidenceMergeResult} (hs : r.callSites = m.callSites)
    (hs' : r'.callSites = m'.callSites)
    (hd : r.duplicatesCollapsed = m.duplicatesCollapsed)
    (hd' : r'.duplicatesCollapsed = m'.duplicatesCollapsed)
    (hr : strictCallRows rt m.callSites = .ok r.strictCallRows)
    (hr' : strictCallRows rt m'.callSites = .ok r'.strictCallRows) :
    SameResult rt r r' ↔ Same (evidenceReading rt) rows rows' := by
  constructor
  · rintro ⟨hsites, hevidence, -, hstrict⟩
    rw [hs, hs'] at hsites hevidence
    refine ⟨fun g p => ?_, fun g e => ?_, fun t => ?_⟩
    · refine h.groups_iff.trans (Iff.trans ?_ h'.groups_iff.symm)
      simp only [hsites]
    · refine h.members_iff.trans (Iff.trans ?_ h'.members_iff.symm)
      simp only [hevidence]
    · refine (h.results_iff hr).trans (Iff.trans ?_ (h'.results_iff hr').symm)
      simp only [hstrict]
  intro hsame
  refine ⟨fun id parts => ?_, fun id e => ?_, ?_, fun t => ?_⟩
  · rw [hs, hs', h.site_iff, h'.site_iff]
    exact hsame.groups (some id) (some parts)
  · rw [hs, hs', h.evidence_iff, h'.evidence_iff]
    constructor
    · rintro ⟨raw, hraw, hid, s, hsid, rfl⟩
      obtain ⟨x, hx, hxg, hxe⟩ := (hsame.members (some id) (some s)).mp ⟨raw, hraw, hid, hsid⟩
      exact ⟨x, hx, hxg, s, hxe, rfl⟩
    · rintro ⟨raw, hraw, hid, s, hsid, rfl⟩
      obtain ⟨x, hx, hxg, hxe⟩ := (hsame.members (some id) (some s)).mpr ⟨raw, hraw, hid, hsid⟩
      exact ⟨x, hx, hxg, s, hxe, rfl⟩
  · have hlen : m.identities.length = m'.identities.length := by
      have hk := (firsts_keys_perm (identityOf rt) hp).length_eq
      have hv := congrArg List.length h.views
      have hv' := congrArg List.length h'.views
      simp only [List.length_map] at hk hv hv'
      omega
    have hc := h.collapsed
    have hc' := h'.collapsed
    have hl := hp.length_eq
    rw [hd, hd']
    omega
  · rw [h.strict_iff hr, h'.strict_iff hr']
    exact hsame.results (some t)

/-- **The order of the observations does not matter**, in every order that the merge accepts, when
they are `OrderFree`; and where it accepts every order, only then. -/
theorem order_independent_iff {observations configurations : List Row} {coverage : List Coverage}
    {r : EvidenceMergeResult}
    (h : mergeCallEvidence rt observations coverage configurations projectId = .ok r) :
    (OrderFree (evidenceReading rt) observations →
      ∀ (observations' configurations' : List Row) (coverage' : List Coverage)
        (r' : EvidenceMergeResult), observations.Perm observations' →
        mergeCallEvidence rt observations' coverage' configurations' projectId = .ok r' →
        SameResult rt r r') ∧
    ((∀ observations', observations.Perm observations' →
        ∃ r', mergeCallEvidence rt observations' coverage configurations projectId = .ok r' ∧
          SameResult rt r r') →
      OrderFree (evidenceReading rt) observations) := by
  obtain ⟨m, hf, hs, hr, -, hd⟩ := merge_filed h
  constructor
  · intro hfree observations' configurations' coverage' r' hp h'
    obtain ⟨m', hf', hs', hr', -, hd'⟩ := merge_filed h'
    exact (hf.same_iff hf' hp hs hs' hd hd' hr hr').mpr (hfree.same hp)
  · intro hall
    refine orderFree_of_same fun observations' hp => ?_
    obtain ⟨r', h', hsame⟩ := hall observations' hp
    obtain ⟨m', hf', hs', hr', -, hd'⟩ := merge_filed h'
    exact (hf.same_iff hf' hp hs hs' hd hd' hr hr').mp hsame

/-- An exact repeat of a strong observation, in either order. -/
theorem order_independent_sample :
    ∃ r, mergeCallEvidence sampleRuntime [sampleSemantic "f1" "a.c", sampleSemantic "f1" "a.c"]
        [] [] "" = .ok r ∧
      ∀ (observations' configurations' : List Row) (coverage' : List Coverage)
        (r' : EvidenceMergeResult),
        [sampleSemantic "f1" "a.c", sampleSemantic "f1" "a.c"].Perm observations' →
        mergeCallEvidence sampleRuntime observations' coverage' configurations' "" = .ok r' →
        SameResult sampleRuntime r r' := by
  have hall : ∀ raw ∈ [sampleSemantic "f1" "a.c", sampleSemantic "f1" "a.c"],
      raw = sampleSemantic "f1" "a.c" := by simp
  have hplain : ∀ raw ∈ [sampleSemantic "f1" "a.c", sampleSemantic "f1" "a.c"],
      Plain sampleRuntime "" raw := by
    intro raw hraw
    rw [hall raw hraw]
    exact ⟨⟨_, rfl⟩, ⟨_, rfl⟩, ⟨_, rfl⟩, rfl, rfl, rfl⟩
  obtain ⟨r, hr⟩ := merge_succeeds hplain
  refine ⟨r, hr, (order_independent_iff hr).1 ⟨?_, ?_, ?_⟩⟩
  · intro o ho o' ho' _
    rw [hall o ho, hall o' ho']
  · intro o ho o' ho' _
    rw [hall o ho, hall o' ho']
  · intro o ho hs _
    refine ⟨o, ho, hs, fun x hx _ => ?_, fun x hx _ _ => ⟨?_, fun y hy _ _ hne => ?_⟩⟩
    · rw [hall x hx, ← hall o ho]
      exact hs
    · rw [hall x hx, hall o ho]
    · exact absurd (by rw [hall x hx, hall y hy]) hne

/-- **The order leaks into the sites**: of two calls at one position only the first is filed, under
its own site. -/
theorem order_leaks :
    ¬ ∀ (rt : Runtime) (observations observations' : List Row) (projectId : String)
      (r r' : EvidenceMergeResult), observations.Perm observations' →
      mergeCallEvidence rt observations [] [] projectId = .ok r →
      mergeCallEvidence rt observations' [] [] projectId = .ok r' → SameResult rt r r' := by
  intro h
  obtain ⟨r, hr, hsites⟩ := sampleCall_merge (.inl rfl) (.inr rfl)
  obtain ⟨r', hr', hsites'⟩ := sampleCall_merge (.inr rfl) (.inl rfl)
  have hsame := h _ _ _ _ r r' (List.Perm.swap _ _ []) hr hr'
  obtain ⟨id, hid⟩ : ∃ id, nodeIdOf sampleRuntime (sampleCall 0) = .ok id := ⟨_, rfl⟩
  obtain ⟨site, hs, he⟩ := (hsites id).mpr hid
  obtain ⟨site', hs', he', -⟩ := (hsame.sites id site.head.parts).mp ⟨site, hs, he, rfl⟩
  exact sampleCall_nodeId (hid.trans ((hsites' id).mp ⟨site', hs', he'⟩).symm)

end CortexHarness.Evidence
