import CortexHarness.Api.Matching

/-!
# The endpoint index against a full scan

The index offers the endpoints whose segments hold every static segment of the call letter by
letter, and the scorer folds case, lets a parameter of either side match a literal and accepts a
path that another begins with. So the endpoint with the highest confidence of all may not be
offered, or the endpoint offered under its symbol id may be a later one.

* `Offered` says in terms of the segments what the index offers.

Results:
* `mem_candidates`: the index offers what `Offered` says;
* **`full_scan_iff`**: the match of a call has the highest confidence of the whole list exactly when
  some endpoint with this confidence is offered.
-/

namespace CortexHarness.Api

open Table

variable {α : Type} [LinearOrder α] {L : Letters} {N : Numbers α} {it : Iteration}
  {endpoints : List ApiEndpoint} {call : ApiCall} {minConfidence : α} {id : String}
  {ep : ApiEndpoint} {kept : SignalScores α × ApiEndpoint}

/-! ## What the index offers -/

/-- The endpoints of the id have every static segment of the call. -/
def HasStatic (endpoints : List ApiEndpoint) (call : ApiCall) (id : String) : Prop :=
  ∀ s ∈ staticSegments call.urlPattern,
    ∃ ep ∈ endpoints, ep.symbolId = id ∧ s ∈ staticSegments ep.path

/-- An endpoint of the id has as many segments as the call, or one more or less. -/
def NearCount (endpoints : List ApiEndpoint) (call : ApiCall) (id : String) : Prop :=
  ∃ ep ∈ endpoints, ep.symbolId = id ∧
    (segments ep.path.toList).length ≤ (segments call.urlPattern.toList).length + 1 ∧
    (segments call.urlPattern.toList).length ≤ (segments ep.path.toList).length + 1

/-- The call has static segments, and some endpoint has them all. -/
def Indexed (endpoints : List ApiEndpoint) (call : ApiCall) : Prop :=
  staticSegments call.urlPattern ≠ [] ∧ ∃ id, HasStatic endpoints call id

/-- The endpoint is the last one with its symbol id, and this id has the segments asked for. -/
def Offered (endpoints : List ApiEndpoint) (call : ApiCall) (ep : ApiEndpoint) : Prop :=
  lastWithId endpoints ep.symbolId = some ep ∧
    (Indexed endpoints call ∧ HasStatic endpoints call ep.symbolId ∨
      ¬ Indexed endpoints call ∧ NearCount endpoints call ep.symbolId)

theorem lastWithId_id (h : lastWithId endpoints id = some ep) : ep.symbolId = id := by
  simpa using List.find?_some h

theorem lastWithId_mem (h : lastWithId endpoints id = some ep) : ep ∈ endpoints :=
  List.mem_reverse.mp (List.mem_of_find?_eq_some h)

theorem Offered.mem (h : Offered endpoints call ep) : ep ∈ endpoints := lastWithId_mem h.1

theorem mem_idsWithSegment {s : List Char} :
    id ∈ idsWithSegment endpoints s ↔
      ∃ ep ∈ endpoints, ep.symbolId = id ∧ s ∈ staticSegments ep.path := by
  simp only [idsWithSegment, List.mem_dedup, List.mem_map, List.mem_filter, List.contains_iff_mem]
  constructor
  · rintro ⟨ep, ⟨hep, hs⟩, hid⟩
    exact ⟨ep, hep, hid, hs⟩
  · rintro ⟨ep, hep, hid, hs⟩
    exact ⟨ep, ⟨hep, hs⟩, hid⟩

theorem mem_idsWithCount {n : Int} :
    id ∈ idsWithCount endpoints n ↔
      ∃ ep ∈ endpoints, ep.symbolId = id ∧ ((segments ep.path.toList).length : Int) = n := by
  simp only [idsWithCount, List.mem_dedup, List.mem_map, List.mem_filter, beq_iff_eq]
  constructor
  · rintro ⟨ep, ⟨hep, hn⟩, hid⟩
    exact ⟨ep, hep, hid, hn⟩
  · rintro ⟨ep, hep, hid, hn⟩
    exact ⟨ep, ⟨hep, hn⟩, hid⟩

theorem mem_sharedIds :
    id ∈ sharedIds endpoints call ↔
      staticSegments call.urlPattern ≠ [] ∧ HasStatic endpoints call id := by
  unfold sharedIds HasStatic
  split
  · next h => simp [h]
  · next first rest h =>
    rw [h, List.mem_filter, List.all_eq_true, List.forall_mem_cons, mem_idsWithSegment]
    simp only [List.contains_iff_mem, mem_idsWithSegment]
    exact ⟨fun h => ⟨List.cons_ne_nil _ _, h⟩, fun h => h.2⟩

theorem sharedIds_ne_nil : sharedIds endpoints call ≠ [] ↔ Indexed endpoints call := by
  constructor
  · intro h
    obtain ⟨id, hid⟩ := List.exists_mem_of_ne_nil _ h
    obtain ⟨hstatic, hhas⟩ := mem_sharedIds.mp hid
    exact ⟨hstatic, id, hhas⟩
  · rintro ⟨hstatic, id, hhas⟩
    exact List.ne_nil_of_mem (mem_sharedIds.mpr ⟨hstatic, hhas⟩)

theorem mem_candidateIds :
    id ∈ candidateIds endpoints call ↔
      Indexed endpoints call ∧ HasStatic endpoints call id ∨
        ¬ Indexed endpoints call ∧ NearCount endpoints call id := by
  unfold candidateIds
  by_cases h : sharedIds endpoints call ≠ []
  · rw [if_pos h, mem_sharedIds]
    have hindexed := sharedIds_ne_nil.mp h
    simp only [hindexed, true_and, not_true_eq_false, false_and, or_false]
    exact ⟨fun hid => hid.2, fun hid => ⟨hindexed.1, hid⟩⟩
  · rw [if_neg h]
    have hindexed := mt sharedIds_ne_nil.mpr h
    simp only [hindexed, false_and, not_false_eq_true, true_and, false_or, List.mem_dedup,
      List.mem_append, mem_idsWithCount, NearCount]
    constructor
    · rintro ((⟨ep, hep, hid, hn⟩ | ⟨ep, hep, hid, hn⟩) | ⟨ep, hep, hid, hn⟩)
      all_goals exact ⟨ep, hep, hid, by omega, by omega⟩
    · rintro ⟨ep, hep, hid, hle, hge⟩
      rcases (by omega : ((segments ep.path.toList).length : Int) =
          (segments call.urlPattern.toList).length ∨ ((segments ep.path.toList).length : Int) =
          (segments call.urlPattern.toList).length - 1 ∨ ((segments ep.path.toList).length : Int) =
          (segments call.urlPattern.toList).length + 1) with hn | hn | hn
      · exact Or.inl (Or.inl ⟨ep, hep, hid, hn⟩)
      · exact Or.inl (Or.inr ⟨ep, hep, hid, hn⟩)
      · exact Or.inr ⟨ep, hep, hid, hn⟩

/-- The candidates are what the index offers, in whichever order they come. -/
theorem mem_candidates : ep ∈ candidates it endpoints call ↔ Offered endpoints call ep := by
  rw [candidates, List.mem_filterMap]
  constructor
  · rintro ⟨id, hid, hlast⟩
    have hid := mem_candidateIds.mp ((it.perm _).mem_iff.mp hid)
    obtain rfl := lastWithId_id hlast
    exact ⟨hlast, hid⟩
  · rintro ⟨hlast, hid⟩
    exact ⟨ep.symbolId, (it.perm _).mem_iff.mpr (mem_candidateIds.mpr hid), hlast⟩

/-! ## The candidate kept -/

theorem qualified_eq_some :
    qualified L N minConfidence call ep = some kept ↔
      kept.2 = ep ∧ scorePair L N call ep = some kept.1 ∧ minConfidence ≤ kept.1.confidence := by
  unfold qualified
  cases hscore : scorePair L N call ep with
  | none => simp
  | some scores =>
    by_cases hmin : scores.confidence < minConfidence
    · simp only [if_pos hmin]
      constructor
      · intro h
        cases h
      · rintro ⟨-, hs, hle⟩
        rw [← Option.some.inj hs] at hle
        exact absurd hmin hle.not_gt
    · simp only [if_neg hmin]
      constructor
      · intro h
        obtain rfl := Option.some.inj h
        exact ⟨rfl, rfl, not_lt.mp hmin⟩
      · rintro ⟨rfl, hs, -⟩
        rw [Option.some.inj hs]

/-- **What is kept for a call**: an endpoint that was offered and passes the threshold, and no such
endpoint has a higher confidence. -/
theorem bestCandidate_spec (h : bestCandidate L N it endpoints minConfidence call = some kept) :
    Offered endpoints call kept.2 ∧ scorePair L N call kept.2 = some kept.1 ∧
      minConfidence ≤ kept.1.confidence ∧
      ∀ ep scores, Offered endpoints call ep → scorePair L N call ep = some scores →
        minConfidence ≤ scores.confidence → scores.confidence ≤ kept.1.confidence := by
  obtain ⟨ep, hep, hkept⟩ := List.mem_filterMap.mp (best_mem h)
  obtain ⟨rfl, hscore, hmin⟩ := qualified_eq_some.mp hkept
  refine ⟨mem_candidates.mp hep, hscore, hmin, fun ep scores hep hscores hpass => ?_⟩
  exact best_le (f := fun k : SignalScores α × ApiEndpoint => k.1.confidence) h (scores, ep)
    (List.mem_filterMap.mpr ⟨ep, mem_candidates.mpr hep, qualified_eq_some.mpr
      ⟨rfl, hscores, hpass⟩⟩)

theorem bestCandidate_isSome (it : Iteration) {scores : SignalScores α} (hep : Offered endpoints call ep)
    (hscore : scorePair L N call ep = some scores) (hmin : minConfidence ≤ scores.confidence) :
    ∃ kept, bestCandidate L N it endpoints minConfidence call = some kept := by
  have hqualified : qualified L N minConfidence call ep = some (scores, ep) :=
    qualified_eq_some.mpr ⟨rfl, hscore, hmin⟩
  exact best_isSome (List.ne_nil_of_mem
    (List.mem_filterMap.mpr ⟨ep, mem_candidates.mpr hep, hqualified⟩))

/-- `score_pair(call, ep).confidence`, where there is one. -/
def confidenceOf (L : Letters) (N : Numbers α) (call : ApiCall) (ep : ApiEndpoint) : Option α :=
  (scorePair L N call ep).map (·.confidence)

/-- The number is the highest confidence of the list. -/
def IsHighest (L : Letters) (N : Numbers α) (endpoints : List ApiEndpoint) (call : ApiCall)
    (confidence : α) : Prop :=
  (∃ ep ∈ endpoints, confidenceOf L N call ep = some confidence) ∧
    ∀ ep ∈ endpoints, ∀ c, confidenceOf L N call ep = some c → c ≤ confidence

/-- **The index agrees with a full scan on a call exactly when an endpoint with the highest
confidence is offered**, if any endpoint passes the threshold. -/
theorem full_scan_iff (L : Letters) (N : Numbers α) (it : Iteration) (endpoints : List ApiEndpoint)
    (minConfidence : α) (feProject beProject : String) (call : ApiCall) :
    ((∃ ep ∈ endpoints, ∃ c, confidenceOf L N call ep = some c ∧ minConfidence ≤ c) →
        ∃ m ∈ matchAll L N it endpoints minConfidence feProject beProject [call],
          m.acId = call.symbolId ∧ IsHighest L N endpoints call m.confidence) ↔
      ((∃ ep ∈ endpoints, ∃ c, confidenceOf L N call ep = some c ∧ minConfidence ≤ c) →
        ∃ ep c, Offered endpoints call ep ∧ confidenceOf L N call ep = some c ∧
          ∀ other ∈ endpoints, ∀ d, confidenceOf L N call other = some d → d ≤ c) := by
  refine forall_congr' fun hpass => ?_
  constructor
  · rintro ⟨m, hm, -, -, hhighest⟩
    obtain ⟨call', hcall, hmatch⟩ := List.mem_filterMap.mp hm
    obtain rfl := List.mem_singleton.mp hcall
    obtain ⟨kept, hkept, rfl⟩ := Option.map_eq_some_iff.mp hmatch
    obtain ⟨hoffered, hscore, -⟩ := bestCandidate_spec hkept
    exact ⟨kept.2, kept.1.confidence, hoffered, by rw [confidenceOf, hscore]; rfl, hhighest⟩
  · rintro ⟨ep, c, hoffered, hc, hhighest⟩
    obtain ⟨passing, hpassing, d, hd, hmin⟩ := hpass
    obtain ⟨scores, hscore, rfl⟩ := Option.map_eq_some_iff.mp hc
    have hpasses : minConfidence ≤ scores.confidence :=
      hmin.trans (hhighest passing hpassing d hd)
    obtain ⟨kept, hkept⟩ := bestCandidate_isSome it hoffered hscore hpasses
    obtain ⟨hkeptOffered, hkeptScore, -, hbest⟩ := bestCandidate_spec hkept
    have hmatch : matchCall L N it endpoints minConfidence feProject beProject call = some _ :=
      Option.map_eq_some_iff.mpr ⟨kept, hkept, rfl⟩
    refine ⟨_, List.mem_filterMap.mpr ⟨call, List.mem_singleton.mpr rfl, hmatch⟩, rfl,
      ⟨kept.2, hkeptOffered.mem, by rw [confidenceOf, hkeptScore]; rfl⟩, ?_⟩
    intro other hother d hd
    exact (hhighest other hother d hd).trans (hbest ep scores hoffered hscore hpasses)

/-! ## A call the index loses -/

/-- Sets that give out their members as they were put in. -/
def inOrder : Iteration := ⟨fun ids => ids, fun ids => List.Perm.refl ids⟩

def sampleCall : ApiCall := ⟨"call", "/api/users/:id", "GET", "", "", ""⟩

/-- The path has a parameter where the call has a literal. -/
def sampleGeneric : ApiEndpoint := ⟨"generic", "/api/:resource/:id", "GET", "", [], ""⟩

/-- The endpoint that writes what the call reads. -/
def sampleOther : ApiEndpoint := ⟨"other", "/api/users/:id", "POST", "", [], ""⟩

/-- The endpoint that writes has all the static segments, so that it is the only one offered, and
the one that reads is lost. -/
theorem generic_endpoint_lost :
    ¬ ((∃ ep ∈ [sampleGeneric, sampleOther], ∃ c,
          confidenceOf ascii exact sampleCall ep = some c ∧ 1 / 2 ≤ c) →
        ∃ m ∈ matchAll ascii exact inOrder [sampleGeneric, sampleOther] (1 / 2) "web" "api"
            [sampleCall],
          m.acId = sampleCall.symbolId ∧
            IsHighest ascii exact [sampleGeneric, sampleOther] sampleCall m.confidence) := by
  intro h
  have hscore : confidenceOf ascii exact sampleCall sampleGeneric = some (5325 / 10000) := by
    decide +kernel
  have hnone : matchAll ascii exact inOrder [sampleGeneric, sampleOther] (1 / 2) "web" "api"
      [sampleCall] = [] := by decide +kernel
  obtain ⟨m, hm, -⟩ := h ⟨sampleGeneric, List.mem_cons_self, _, hscore, by norm_num⟩
  rw [hnone] at hm
  cases hm

/-- Alone the endpoint that reads is found. -/
example : (matchAll ascii exact inOrder [sampleGeneric] (1 / 2) "web" "api" [sampleCall]).map
    (·.epId) = ["generic"] := by decide +kernel

end CortexHarness.Api
