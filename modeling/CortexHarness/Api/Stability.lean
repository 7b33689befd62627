import CortexHarness.Api.Retrieval

/-!
# Equal confidences

The candidates of a call come out of a hash set, and of those with the highest confidence the first
one is kept. So the endpoint a call is matched with depends on the order in which a set gives out
its members, unless one endpoint alone has the highest confidence.

Result: **`match_stable_iff`**: with distinct symbol ids, the match of a call is the same for all
orders of the sets and of the endpoints exactly when no two endpoints share the highest confidence
that is offered.
-/

namespace CortexHarness.Api

open Table

variable {α : Type} [LinearOrder α] {L : Letters} {N : Numbers α} {it : Iteration}
  {endpoints others : List ApiEndpoint} {call : ApiCall} {minConfidence : α} {id : String}
  {ep : ApiEndpoint} {kept : SignalScores α × ApiEndpoint}

/-- The endpoint is offered, passes the threshold, and none that is offered has a higher
confidence. -/
def IsBest (L : Letters) (N : Numbers α) (endpoints : List ApiEndpoint) (minConfidence : α)
    (call : ApiCall) (ep : ApiEndpoint) : Prop :=
  Offered endpoints call ep ∧ ∃ c, confidenceOf L N call ep = some c ∧ minConfidence ≤ c ∧
    ∀ other, Offered endpoints call other → ∀ d, confidenceOf L N call other = some d → d ≤ c

/-- The ids the call is matched with: one or none. -/
def matchedIds (L : Letters) (N : Numbers α) (it : Iteration) (endpoints : List ApiEndpoint)
    (minConfidence : α) (feProject beProject : String) (call : ApiCall) : List String :=
  (matchAll L N it endpoints minConfidence feProject beProject [call]).map (·.epId)

/-! ## The order of the endpoints -/

theorem lastWithId_eq_some (hids : (endpoints.map (·.symbolId)).Nodup) :
    lastWithId endpoints id = some ep ↔ ep ∈ endpoints ∧ ep.symbolId = id := by
  constructor
  · exact fun h => ⟨lastWithId_mem h, lastWithId_id h⟩
  · rintro ⟨hmem, rfl⟩
    obtain ⟨other, hother⟩ : ∃ other, lastWithId endpoints ep.symbolId = some other :=
      Option.isSome_iff_exists.mp (List.find?_isSome.mpr
        ⟨ep, List.mem_reverse.mpr hmem, beq_self_eq_true _⟩)
    rw [hother]
    exact congrArg some (List.inj_on_of_nodup_map hids (lastWithId_mem hother) hmem
      (lastWithId_id hother))

/-- With distinct ids the order of the endpoints does not change what is offered. -/
theorem offered_perm (hids : (endpoints.map (·.symbolId)).Nodup)
    (hperm : List.Perm others endpoints) :
    Offered others call ep ↔ Offered endpoints call ep := by
  have hothers : (others.map (·.symbolId)).Nodup := (hperm.map _).nodup_iff.mpr hids
  unfold Offered Indexed HasStatic NearCount
  simp only [lastWithId_eq_some hids, lastWithId_eq_some hothers, hperm.mem_iff]

/-! ## The candidate kept -/

theorem isBest_of_kept (h : bestCandidate L N it endpoints minConfidence call = some kept) :
    IsBest L N endpoints minConfidence call kept.2 := by
  obtain ⟨hoffered, hscore, hmin, hbest⟩ := bestCandidate_spec h
  refine ⟨hoffered, kept.1.confidence, by rw [confidenceOf, hscore]; rfl, hmin, ?_⟩
  intro other hother d hd
  obtain ⟨scores, hscores, rfl⟩ := Option.map_eq_some_iff.mp hd
  by_cases hpass : minConfidence ≤ scores.confidence
  · exact hbest other scores hother hscores hpass
  · exact (not_le.mp hpass).le.trans hmin

theorem IsBest.perm (hids : (endpoints.map (·.symbolId)).Nodup)
    (hperm : List.Perm others endpoints) (h : IsBest L N others minConfidence call ep) :
    IsBest L N endpoints minConfidence call ep := by
  obtain ⟨hoffered, c, hc, hmin, hbest⟩ := h
  exact ⟨(offered_perm hids hperm).mp hoffered, c, hc, hmin,
    fun other hother => hbest other ((offered_perm hids hperm).mpr hother)⟩

theorem IsBest.isSome (h : IsBest L N endpoints minConfidence call ep) (it : Iteration) :
    ∃ kept, bestCandidate L N it endpoints minConfidence call = some kept := by
  obtain ⟨hoffered, c, hc, hmin, -⟩ := h
  obtain ⟨scores, hscore, rfl⟩ := Option.map_eq_some_iff.mp hc
  exact bestCandidate_isSome it hoffered hscore hmin

theorem matchedIds_eq (feProject beProject : String) :
    matchedIds L N it endpoints minConfidence feProject beProject call =
      ((bestCandidate L N it endpoints minConfidence call).map (·.2.symbolId)).toList := by
  unfold matchedIds matchAll matchCall
  cases h : bestCandidate L N it endpoints minConfidence call <;> simp [h]

/-! ## The order of the set -/

/-- A set that gives out one member first. -/
def first (id : String) : Iteration where
  order ids := if id ∈ ids then id :: ids.erase id else ids
  perm ids := by
    split
    · next h => exact (List.perm_cons_erase h).symm
    · exact List.Perm.refl ids

theorem matchedIds_first (h : IsBest L N endpoints minConfidence call ep)
    (feProject beProject : String) :
    matchedIds L N (first ep.symbolId) endpoints minConfidence feProject beProject call =
      [ep.symbolId] := by
  obtain ⟨hoffered, c, hc, hmin, hbest⟩ := h
  obtain ⟨scores, hscore, rfl⟩ := Option.map_eq_some_iff.mp hc
  have hid : ep.symbolId ∈ candidateIds endpoints call := mem_candidateIds.mpr hoffered.2
  have hcandidates : candidates (first ep.symbolId) endpoints call =
      ep :: ((candidateIds endpoints call).erase ep.symbolId).filterMap
        (lastWithId endpoints) := by
    unfold candidates first
    dsimp only
    rw [if_pos hid, List.filterMap_cons_some hoffered.1]
  have hqualified : qualified L N minConfidence call ep = some (scores, ep) :=
    qualified_eq_some.mpr ⟨rfl, hscore, hmin⟩
  have hkept : bestCandidate L N (first ep.symbolId) endpoints minConfidence call =
      some (scores, ep) := by
    unfold bestCandidate
    rw [hcandidates, List.filterMap_cons_some hqualified]
    refine best_cons_of_le (f := fun k : SignalScores α × ApiEndpoint => k.1.confidence) ?_
    intro k hk
    obtain ⟨other, hother, hk⟩ := List.mem_filterMap.mp hk
    obtain ⟨rfl, hother', -⟩ := qualified_eq_some.mp hk
    have hmem : k.2 ∈ candidates (first ep.symbolId) endpoints call := by
      rw [hcandidates]
      exact List.mem_cons_of_mem ep hother
    exact hbest k.2 (mem_candidates.mp hmem) _ (by rw [confidenceOf, hother']; rfl)
  rw [matchedIds_eq, hkept]
  rfl

/-- **The match of a call is stable exactly when one endpoint alone has the highest confidence.** -/
theorem match_stable_iff (L : Letters) (N : Numbers α) (endpoints : List ApiEndpoint)
    (hids : (endpoints.map (·.symbolId)).Nodup) (minConfidence : α)
    (feProject beProject : String) (call : ApiCall) :
    (∀ others, List.Perm others endpoints → ∀ it it' : Iteration,
        matchedIds L N it endpoints minConfidence feProject beProject call =
          matchedIds L N it' others minConfidence feProject beProject call) ↔
      ∀ a b, IsBest L N endpoints minConfidence call a →
        IsBest L N endpoints minConfidence call b → a = b := by
  constructor
  · intro h a b ha hb
    have hsame := h endpoints (List.Perm.refl _) (first a.symbolId) (first b.symbolId)
    rw [matchedIds_first ha, matchedIds_first hb, List.singleton_inj] at hsame
    have hlast : lastWithId endpoints a.symbolId = some b := hsame ▸ hb.1.1
    exact Option.some.inj (ha.1.1.symm.trans hlast)
  · intro h others hperm it it'
    rw [matchedIds_eq, matchedIds_eq]
    cases hkept : bestCandidate L N it endpoints minConfidence call with
    | some kept =>
      have hbest := isBest_of_kept hkept
      obtain ⟨kept', hkept'⟩ := (IsBest.perm
        ((hperm.map _).nodup_iff.mpr hids) hperm.symm hbest).isSome it'
      rw [hkept', Option.map_some, Option.map_some,
        h _ _ hbest ((isBest_of_kept hkept').perm hids hperm)]
    | none =>
      cases hkept' : bestCandidate L N it' others minConfidence call with
      | none => rfl
      | some kept' =>
        obtain ⟨kept, hsome⟩ := ((isBest_of_kept hkept').perm hids hperm).isSome it
        rw [hkept] at hsome
        cases hsome

/-- One endpoint has no equal. -/
theorem match_stable_sample :
    matchedIds ascii exact (first "generic") [sampleGeneric] (1 / 2) "web" "api" sampleCall =
      matchedIds ascii exact (first "twin") [sampleGeneric] (1 / 2) "web" "api" sampleCall :=
  (match_stable_iff ascii exact [sampleGeneric] (List.nodup_singleton _) (1 / 2) "web" "api"
    sampleCall).mpr (fun a b ha hb => by
      rw [List.mem_singleton.mp ha.1.mem, List.mem_singleton.mp hb.1.mem]) _ (List.Perm.refl _) _ _

/-- Two endpoints that differ in their id alone take turns. -/
theorem match_unstable :
    ¬ ∀ others, List.Perm others [sampleGeneric, { sampleGeneric with symbolId := "twin" }] →
      ∀ it it' : Iteration,
        matchedIds ascii exact it [sampleGeneric, { sampleGeneric with symbolId := "twin" }]
            (1 / 2) "web" "api" sampleCall =
          matchedIds ascii exact it' others (1 / 2) "web" "api" sampleCall := by
  intro h
  have hsame := h _ (List.Perm.refl _) (first "generic") (first "twin")
  revert hsame
  decide +kernel

end CortexHarness.Api
