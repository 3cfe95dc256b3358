import Legitimacy.ClaimFeeds
import Legitimacy.GraphChecks

namespace Legitimacy

open ExceptRun

theorem claim_new_of_valid {claim : GovernanceClaim} (valid : validateGovernanceClaim claim = .ok ()) :
    ∃ converted, Claim.new claim.claimantId claim.strength = .ok converted ∧ converted.claimantId = claim.claimantId := by
  unfold validateGovernanceClaim at valid
  obtain ⟨named, afterName⟩ := guard_eq_ok.1 valid
  obtain ⟨strong, -⟩ := guard_eq_ok.1 afterName
  have accepted : claim.strength.isFinite = true ∧ ¬claim.strength ≤ 0 := by
    rw [not_or, not_not] at strong
    exact strong
  refine ⟨⟨claim.claimantId, ⟨claim.strength, accepted.1, accepted.2⟩, ∅⟩, ?_, rfl⟩
  unfold Claim.new PositiveStrength.new
  rw [if_neg named, if_neg strong, dif_pos accepted]
  rfl

theorem sameIds_of_each {claims : List GovernanceClaim} {convert : GovernanceClaim → Except LegitimacyError Claim}
    (each : ∀ claim ∈ claims, ∃ converted, convert claim = .ok converted ∧ converted.claimantId = claim.claimantId) :
    ∃ converted, claims.mapM convert = .ok converted ∧ converted.map (·.claimantId) = claims.map (·.claimantId) := by
  obtain ⟨converted, run⟩ := exists_mapM fun claim listed => (each claim listed).imp fun _ both => both.1
  refine ⟨converted, run, ?_⟩
  have pairs := mapM_eq_ok.1 run
  have sameIds : List.Forall₂ (fun claim (result : Claim) => claim ∈ claims → result.claimantId = claim.claimantId) claims converted := by
    refine pairs.imp fun claim result made listed => ?_
    obtain ⟨other, again, sameId⟩ := each claim listed
    exact Except.ok.inj (made.symm.trans again) ▸ sameId
  refine List.ext_getElem (by simp [pairs.length_eq]) fun index left right => ?_
  simp only [List.length_map] at left right
  rw [List.getElem_map, List.getElem_map]
  exact (List.forall₂_iff_get.1 sameIds).2 index right left (List.getElem_mem right)

section

variable {claims : List GovernanceClaim} {share : GovernanceClaim → Float}

def shareMap (share : GovernanceClaim → Float) (claims : List GovernanceClaim) (start : Allocation) : Allocation :=
  claims.foldl (fun allocation claim => allocation.insert claim.claimantId (share claim)) start

theorem shareMap_entry {start : Allocation} {claimant : ClaimantId} {value : Float}
    (found : (shareMap share claims start)[claimant]? = some value) :
    start[claimant]? = some value ∨ ∃ claim ∈ claims, claim.claimantId = claimant ∧ share claim = value := by
  induction claims generalizing start with
  | nil => exact Or.inl found
  | cons claim rest ih =>
    rcases ih found with earlier | ⟨other, listed, both⟩
    · rw [lookup_insert] at earlier
      by_cases same : claimant = claim.claimantId
      · rw [if_pos same] at earlier
        exact Or.inr ⟨claim, List.mem_cons_self, same.symm, Option.some.inj earlier⟩
      · rw [if_neg same] at earlier
        exact Or.inl earlier
    · exact Or.inr ⟨other, List.mem_cons_of_mem claim listed, both⟩

theorem shareMap_keeps {start : Allocation} {claimant : ClaimantId} (known : claimant ∈ start) : claimant ∈ shareMap share claims start := by
  induction claims generalizing start with
  | nil => exact known
  | cons claim rest ih => exact ih (Std.ExtTreeMap.mem_insert.2 (Or.inr known))

theorem shareMap_mem {start : Allocation} {claim : GovernanceClaim} (listed : claim ∈ claims) :
    claim.claimantId ∈ shareMap share claims start := by
  induction claims generalizing start with
  | nil => cases listed
  | cons first rest ih =>
    rcases List.mem_cons.1 listed with rfl | later
    · exact @shareMap_keeps rest share _ _ Std.ExtTreeMap.mem_insert_self
    · exact ih later

theorem validAllocation_of_shares (bounded : ∀ claim ∈ claims, (share claim).isFinite = true ∧ ¬share claim < 0) {converted : List Claim}
    (sameIds : converted.map (·.claimantId) = claims.map (·.claimantId)) :
    ValidAllocation.new (shareMap share claims ∅) converted = .ok ⟨shareMap share claims ∅⟩ := by
  have expected : ∀ claimant, ((converted.foldl (fun ids claim => ids.insert claim.claimantId) (∅ : BTreeSet ClaimantId)).contains claimant = true ↔
      ∃ claim ∈ claims, claim.claimantId = claimant) := by
    intro claimant
    rw [contains_foldl_insert]
    have listed : (∃ claim ∈ converted, claim.claimantId = claimant) ↔ ∃ claim ∈ claims, claim.claimantId = claimant := by
      have same := congrArg (claimant ∈ ·) sameIds
      simpa only [List.mem_map, eq_iff_iff] using same
    rw [← listed]
    simp
  refine bind_eq_ok.2 ⟨(), bind_eq_ok.2 ⟨(), forM_eq_ok.2 fun claimant member => ?_, forM_eq_ok.2 fun entry member => ?_⟩, rfl⟩
  · obtain ⟨claim, listed, rfl⟩ := (expected claimant).1 (Std.ExtTreeSet.contains_iff_mem.2 (Std.ExtTreeSet.mem_toList.1 member))
    exact if_pos (Std.ExtTreeMap.contains_iff_mem.2 (shareMap_mem listed))
  · have found := Std.ExtTreeMap.mem_toList_iff_getElem?_eq_some.1 member
    rcases shareMap_entry found with nothing | ⟨claim, listed, sameId, sameShare⟩
    · simp at nothing
    · obtain ⟨finite, positive⟩ := bounded claim listed
      rw [sameShare] at finite positive
      have known := (expected entry.1).2 ⟨claim, listed, sameId⟩
      refine guard_eq_ok.2 ⟨?_, guard_eq_ok.2 ⟨not_not.2 known, rfl⟩⟩
      rintro (infinite | negative)
      · exact infinite finite
      · exact positive negative

end

namespace Diagnostics

theorem convertClaims_of_valid {claims : List GovernanceClaim} (batch : ValidBatch claims) :
    ∃ converted, convertClaims claims = .ok converted ∧ converted.map (·.claimantId) = claims.map (·.claimantId) := by
  have each : ∀ claim ∈ claims, ∃ converted, (do
      let converted ← Claim.new claim.claimantId claim.strength
      .ok { converted with metrics := claim.metrics } : Except LegitimacyError Claim) = .ok converted ∧
        converted.claimantId = claim.claimantId := by
    intro claim listed
    obtain ⟨converted, made, sameId⟩ := claim_new_of_valid (batch.valid claim listed)
    exact ⟨{ converted with metrics := claim.metrics }, bind_eq_ok.2 ⟨converted, made, rfl⟩, sameId⟩
  exact sameIds_of_each each

theorem rank_share (decision : Decision) : (decisionRank decision).toFloat.isFinite = true ∧ ¬(decisionRank decision).toFloat < 0 := by
  cases decision <;> decide +kernel

theorem decisionAllocation_of_valid {claims : List GovernanceClaim} (batch : ValidBatch claims) (decisions : BTreeMap ClaimantId Decision) :
    ∃ allocation, decisionAllocation claims decisions = .ok allocation := by
  obtain ⟨converted, run, sameIds⟩ := convertClaims_of_valid batch
  exact ⟨_, bind_eq_ok.2 ⟨converted, run, validAllocation_of_shares (fun claim _ => rank_share _) sameIds⟩⟩

theorem graphEstate_ok : ∃ estate, graphEstate = .ok estate := exists_of_toBool (by decide +kernel)

theorem baseline_of_traversal {regexes : RegexEngine} {graph : GovernanceGraph} {claims : List GovernanceClaim} (batch : ValidBatch claims)
    {decisions : BTreeMap ClaimantId Decision} (run : traverseFinalDecisions regexes graph claims = .ok decisions) :
    ∃ original, baseline regexes graph claims = .ok original ∧ original.decisions = decisions := by
  obtain ⟨allocation, allocated⟩ := decisionAllocation_of_valid batch decisions
  obtain ⟨converted, conversion, -⟩ := convertClaims_of_valid batch
  obtain ⟨estate, made⟩ := graphEstate_ok
  refine ⟨⟨decisions, allocation, converted, estate⟩, bind_eq_ok.2 ⟨decisions, run, bind_eq_ok.2 ⟨allocation, allocated, ?_⟩⟩, rfl⟩
  exact bind_eq_ok.2 ⟨converted, conversion, bind_eq_ok.2 ⟨estate, made, rfl⟩⟩

end Diagnostics

end Legitimacy
