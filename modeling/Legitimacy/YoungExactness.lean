import Legitimacy.ExactConsistency
import Mathlib.Algebra.BigOperators.Group.Finset.Basic
import Mathlib.Data.Finset.Powerset

namespace Legitimacy.Diagnostics

open ExceptRun Iteration

section

theorem coalitions_length_le (claimCount : Nat) (mode : ConsistencyMode) : (coalitions claimCount mode).length ≤ 2 ^ claimCount := by
  have inside : ((coalitions claimCount mode).map List.toFinset).toFinset ⊆ (Finset.range claimCount).powerset := by
    intro members listed
    obtain ⟨coalition, member, rfl⟩ := List.mem_map.1 (List.mem_toFinset.1 listed)
    exact Finset.mem_powerset.2 fun index inside =>
      Finset.mem_range.2 ((mem_coalitions.1 member).2.1 index (List.mem_toFinset.1 inside))
  have few := Finset.card_le_card inside
  rwa [List.toFinset_card_of_nodup (coalitions_toFinset_nodup claimCount mode), List.length_map, Finset.card_powerset, Finset.card_range] at few

theorem enumerated_eq (claimCount : Nat) (mode : ConsistencyMode) : enumerated claimCount mode = coalitions claimCount mode := by
  have few := coalitions_length_le claimCount mode
  unfold enumerated
  rw [(enumeration_yields claimCount mode).drain (by omega)]

end

section

variable {C : Type} {claimantId : C → ClaimantId} {claims : List C} {removedIndices : List Nat}

theorem removedLookup_lookup {claimCount index : Nat} (inside : index < claimCount) :
    ((removedLookup claimCount removedIndices)[index]?).getD false = decide (index ∈ removedIndices) := by
  suffices general : ∀ lookup : List Bool, index < lookup.length →
      ((removedIndices.foldl (fun lookup index => lookup.set index true) lookup)[index]?).getD false =
        (decide (index ∈ removedIndices) || (lookup[index]?).getD false) by
    have whole := general (List.replicate claimCount false) (by simpa using inside)
    simpa [removedLookup, inside] using whole
  induction removedIndices with
  | nil => simp
  | cons first rest ih =>
    intro lookup bound
    rw [List.foldl_cons, ih _ (by simpa using bound), List.getElem?_set]
    by_cases same : first = index
    · subst same
      simp [bound]
    · simp [same, Ne.symm same]

theorem mem_removedIds (distinct : (claims.map claimantId).Nodup) {index : Nat} {claim : C} (found : claims[index]? = some claim) :
    claimantId claim ∈ removedIds claimantId claims removedIndices ↔ index ∈ removedIndices := by
  have place : (claims.map claimantId)[index]? = some (claimantId claim) := by rw [List.getElem?_map, found, Option.map_some]
  have inside : index < (claims.map claimantId).length := (List.getElem?_eq_some_iff.1 place).1
  rw [removedIds, List.mem_filterMap]
  constructor
  · rintro ⟨other, member, same⟩
    rw [← List.getElem?_map] at same
    exact (List.getElem?_inj inside distinct).1 (place.trans same.symm) ▸ member
  · intro member
    exact ⟨index, member, by rw [found, Option.map_some]⟩

theorem reducedClaims_eq (distinct : (claims.map claimantId).Nodup) :
    reducedClaims claims removedIndices = claims.filter fun claim => claimantId claim ∉ removedIds claimantId claims removedIndices := by
  have split : ∀ keep : C → Bool, claims.filter keep = (claims.zipIdx.filter fun entry => keep entry.1).map Prod.fst := by
    intro keep
    have mapped := @List.filter_map _ _ Prod.fst keep (claims.zipIdx)
    rwa [List.zipIdx_map_fst] at mapped
  rw [split]
  refine congrArg (List.map Prod.fst) (List.filter_congr fun entry member => ?_)
  have found := List.mem_zipIdx_iff_getElem?.1 member
  have inside := (List.getElem?_eq_some_iff.1 found).1
  rw [removedLookup_lookup inside, decide_not]
  refine congrArg not ?_
  rw [decide_eq_decide]
  exact (mem_removedIds distinct found).symm

theorem removedIds_subset {id : ClaimantId} (member : id ∈ removedIds claimantId claims removedIndices) : id ∈ claims.map claimantId := by
  obtain ⟨index, -, found⟩ := List.mem_filterMap.1 member
  rw [← List.getElem?_map] at found
  exact List.mem_of_getElem? found

theorem removedIds_nodup (distinct : (claims.map claimantId).Nodup) (once : removedIndices.Nodup) :
    (removedIds claimantId claims removedIndices).Nodup := by
  refine List.Nodup.filterMap (fun first second id atFirst atSecond => ?_) once
  have same : claims[first]?.map claimantId = claims[second]?.map claimantId := by rw [Option.mem_def.1 atFirst, Option.mem_def.1 atSecond]
  rw [← List.getElem?_map, ← List.getElem?_map] at same
  have inside : first < (claims.map claimantId).length := by
    have found := Option.mem_def.1 atFirst
    rw [← List.getElem?_map] at found
    exact (List.getElem?_eq_some_iff.1 found).1
  exact (List.getElem?_inj inside distinct).1 same

structure ProperRemoval (claimantId : C → ClaimantId) (claims : List C) (removed : Finset ClaimantId) : Prop where
  nonempty : removed.Nonempty
  listed : ∀ id ∈ removed, id ∈ claims.map claimantId
  survivor : ∃ claim ∈ claims, claimantId claim ∉ removed

theorem properRemoval_of_coalition {mode : ConsistencyMode} (distinct : (claims.map claimantId).Nodup)
    (member : removedIndices ∈ coalitions claims.length mode) :
    ProperRemoval claimantId claims (removedIds claimantId claims removedIndices).toFinset := by
  obtain ⟨ascending, bounds, nonempty, few⟩ := mem_coalitions.1 member
  have smaller : removedIndices.length < claims.length := by
    have positive := List.length_pos_iff.2 nonempty
    have bounded := bound_le mode claims.length
    omega
  obtain ⟨index, inside⟩ := List.exists_mem_of_ne_nil _ nonempty
  have found := List.getElem?_eq_getElem (bounds index inside)
  refine ⟨⟨_, List.mem_toFinset.2 ((mem_removedIds distinct found).2 inside)⟩,
    fun id removed => removedIds_subset (List.mem_toFinset.1 removed), ?_⟩
  by_contra none
  push Not at none
  -- otherwise every index would be among the removed ones
  have all : List.range claims.length ⊆ removedIndices := by
    intro other below
    have there := List.getElem?_eq_getElem (List.mem_range.1 below)
    exact (mem_removedIds distinct there).1 (List.mem_toFinset.1 (none _ (List.getElem_mem _)))
  have many := (List.subperm_of_subset List.nodup_range all).length_le
  rw [List.length_range] at many
  omega

theorem exists_coalition {mode : ConsistencyMode} (distinct : (claims.map claimantId).Nodup) (whole : mode.bound claims.length = claims.length - 1)
    {removed : Finset ClaimantId} (proper : ProperRemoval claimantId claims removed) :
    ∃ indices ∈ coalitions claims.length mode, (removedIds claimantId claims indices).toFinset = removed := by
  let indices := (List.range claims.length).filter fun index => (claims[index]?).any fun claim => claimantId claim ∈ removed
  have mem_indices : ∀ {index claim}, claims[index]? = some claim → (index ∈ indices ↔ claimantId claim ∈ removed) := by
    intro index claim found
    have below := (List.getElem?_eq_some_iff.1 found).1
    rw [List.mem_filter, found]
    simp [below]
  have same : ∀ id, id ∈ removedIds claimantId claims indices ↔ id ∈ removed := by
    intro id
    constructor
    · intro member
      obtain ⟨claim, listed, rfl⟩ := List.mem_map.1 (removedIds_subset member)
      obtain ⟨index, found⟩ := List.getElem?_of_mem listed
      exact (mem_indices found).1 ((mem_removedIds distinct found).1 member)
    · intro member
      obtain ⟨claim, listed, rfl⟩ := List.mem_map.1 (proper.listed id member)
      obtain ⟨index, found⟩ := List.getElem?_of_mem listed
      exact (mem_removedIds distinct found).2 ((mem_indices found).2 member)
  refine ⟨indices, mem_coalitions.2 ⟨List.pairwise_lt_range.sublist List.filter_sublist, fun index member => ?_, ?_, ?_⟩, ?_⟩
  · exact List.mem_range.1 (List.mem_filter.1 member).1
  · intro empty
    obtain ⟨id, member⟩ := proper.nonempty
    have listed := (same id).2 member
    rw [empty] at listed
    cases listed
  · obtain ⟨claim, listed, kept⟩ := proper.survivor
    obtain ⟨index, found⟩ := List.getElem?_of_mem listed
    have shorter : indices.length < (List.range claims.length).length :=
      List.length_filter_lt_length_iff_exists.2 ⟨index, List.mem_range.2 (List.getElem?_eq_some_iff.1 found).1, by simp [found, kept]⟩
    rw [List.length_range] at shorter
    omega
  · exact Finset.ext fun id => List.mem_toFinset.trans (same id)

end

section

def shareOf (allocation : RationalAllocation) (claimantId : ClaimantId) : ℚ := (allocation[claimantId]?).getD 0

theorem rationalShare_eq_ok {allocation : RationalAllocation} {claimantId context : String} {share : ℚ} :
    rationalShare allocation claimantId context = .ok share ↔ allocation[claimantId]? = some share := elim_eq_ok

theorem removedTotal_eq_ok {allocation : RationalAllocation} {ids : List ClaimantId} {total : ℚ} :
    removedTotal allocation ids = .ok total ↔ (∀ id ∈ ids, id ∈ allocation) ∧ total = (ids.map (shareOf allocation)).sum := by
  suffices general : ∀ acc : ℚ, ids.foldlM (fun acc claimantId => do
      let share ← rationalShare allocation claimantId "rational removed share"
      .ok (acc + share)) acc = .ok total ↔ (∀ id ∈ ids, id ∈ allocation) ∧ total = acc + (ids.map (shareOf allocation)).sum by
    rw [removedTotal, general 0, zero_add]
  induction ids with
  | nil => simp [pure, Except.pure, eq_comm]
  | cons id rest ih =>
    intro acc
    rw [List.foldlM_cons, bind_eq_ok]
    simp only [bind_eq_ok, rationalShare_eq_ok, List.forall_mem_cons, List.map_cons, List.sum_cons]
    constructor
    · rintro ⟨sum, ⟨share, found, made⟩, run⟩
      obtain rfl := Except.ok.inj made
      obtain ⟨others, total⟩ := (ih _).1 run
      refine ⟨⟨mem_iff_lookup.2 ⟨share, found⟩, others⟩, ?_⟩
      rw [total, shareOf, found, Option.getD_some, add_assoc]
    · rintro ⟨⟨member, others⟩, total⟩
      obtain ⟨share, found⟩ := mem_iff_lookup.1 member
      refine ⟨acc + share, ⟨share, found, rfl⟩, (ih _).2 ⟨others, ?_⟩⟩
      rw [total, shareOf, found, Option.getD_some, add_assoc]

end

section

variable {allocate : List RationalClaim → RationalEstate → Except LegitimacyError RationalAllocation} {claims : List RationalClaim}
  {estate : RationalEstate} {original reduced : RationalAllocation}

def survivors (claims : List RationalClaim) (removed : Finset ClaimantId) : List RationalClaim :=
  claims.filter fun claim => claim.claimantId ∉ removed

def reducedEstate (estate : RationalEstate) (original : RationalAllocation) (removed : Finset ClaimantId) : RationalEstate :=
  { estate with total := estate.total - ∑ id ∈ removed, shareOf original id }

/-- The rule gives a claimant the same share in both allocations. -/
def SameShare (original reduced : RationalAllocation) (claimantId : ClaimantId) : Prop :=
  ∃ share, original[claimantId]? = some share ∧ reduced[claimantId]? = some share

/-- The removed claimants have shares, and if these leave something of the estate, the rule divides it among the others as before. -/
def KeepsShares (allocate : List RationalClaim → RationalEstate → Except LegitimacyError RationalAllocation) (claims : List RationalClaim)
    (estate : RationalEstate) (original : RationalAllocation) (removed : Finset ClaimantId) : Prop :=
  (∀ id ∈ removed, id ∈ original) ∧ (0 < (reducedEstate estate original removed).total →
    ∃ reduced, allocate (survivors claims removed) (reducedEstate estate original removed) = .ok reduced ∧
      ∀ claim ∈ survivors claims removed, SameShare original reduced claim.claimantId)

theorem compareSurvivors_none {ids : List ClaimantId} {complexity after : ConsistencyComplexity}
    (run : compareSurvivors original reduced ids claims complexity = .ok (none, after)) :
    ∀ claim ∈ claims, SameShare original reduced claim.claimantId := by
  induction claims generalizing complexity with
  | nil => simp
  | cons claim rest ih =>
    obtain ⟨originalShare, atOriginal, run⟩ := bind_eq_ok.1 run
    obtain ⟨reducedShare, atReduced, run⟩ := bind_eq_ok.1 run
    rw [rationalShare_eq_ok] at atOriginal atReduced
    split at run
    · cases run
    case isFalse same =>
      obtain rfl := not_not.1 same
      exact List.forall_mem_cons.2 ⟨⟨originalShare, atOriginal, atReduced⟩, ih run⟩

theorem compareSurvivors_same {ids : List ClaimantId} (same : ∀ claim ∈ claims, SameShare original reduced claim.claimantId)
    (complexity : ConsistencyComplexity) : ∃ after, compareSurvivors original reduced ids claims complexity = .ok (none, after) := by
  induction claims generalizing complexity with
  | nil => exact ⟨complexity, rfl⟩
  | cons claim rest ih =>
    obtain ⟨share, atOriginal, atReduced⟩ := same claim List.mem_cons_self
    obtain ⟨after, run⟩ := ih (fun other member => same other (List.mem_cons_of_mem claim member))
      { complexity with survivorChecks := complexity.survivorChecks + 1 }
    refine ⟨after, bind_eq_ok.2 ⟨share, rationalShare_eq_ok.2 atOriginal, bind_eq_ok.2 ⟨share, rationalShare_eq_ok.2 atReduced, ?_⟩⟩⟩
    rw [if_neg (not_not.2 rfl)]
    exact run

theorem compareSurvivors_some {ids : List ClaimantId} {complexity after : ConsistencyComplexity}
    {counterexample : RationalConsistencyCounterexample}
    (run : compareSurvivors original reduced ids claims complexity = .ok (some counterexample, after)) :
    counterexample.removed = ids ∧ (∃ claim ∈ claims, claim.claimantId = counterexample.survivor) ∧
      original[counterexample.survivor]? = some counterexample.originalShare ∧
      reduced[counterexample.survivor]? = some counterexample.reducedShare ∧ counterexample.originalShare ≠ counterexample.reducedShare := by
  induction claims generalizing complexity with
  | nil => cases run
  | cons claim rest ih =>
    obtain ⟨originalShare, atOriginal, run⟩ := bind_eq_ok.1 run
    obtain ⟨reducedShare, atReduced, run⟩ := bind_eq_ok.1 run
    rw [rationalShare_eq_ok] at atOriginal atReduced
    split at run
    case isTrue different =>
      obtain ⟨rfl, -⟩ := by simpa only [Except.ok.injEq, Prod.mk.injEq, Option.some.injEq] using run
      exact ⟨rfl, ⟨claim, List.mem_cons_self, rfl⟩, atOriginal, atReduced, different⟩
    case isFalse =>
      obtain ⟨same, ⟨other, member, isSurvivor⟩, rest⟩ := ih run
      exact ⟨same, ⟨other, List.mem_cons_of_mem claim member, isSurvivor⟩, rest⟩

theorem survivors_eq {indices : List Nat} (distinct : (claims.map (·.claimantId)).Nodup) : reducedClaims claims indices =
    survivors claims (removedIds (·.claimantId) claims indices).toFinset := by
  simp only [reducedClaims_eq distinct, survivors, List.mem_toFinset]

theorem survivors_nonempty {removed : Finset ClaimantId} (proper : ProperRemoval (·.claimantId) claims removed) :
    survivors claims removed ≠ [] := by
  obtain ⟨claim, listed, kept⟩ := proper.survivor
  exact List.ne_nil_of_mem (List.mem_filter.2 ⟨listed, decide_eq_true kept⟩)

/-- What a reported counterexample says is so: removing these claimants changes the survivor's share. -/
structure Refutes (allocate : List RationalClaim → RationalEstate → Except LegitimacyError RationalAllocation) (claims : List RationalClaim)
    (estate : RationalEstate) (original : RationalAllocation) (counterexample : RationalConsistencyCounterexample) : Prop where
  once : counterexample.removed.Nodup
  proper : ProperRemoval (·.claimantId) claims counterexample.removed.toFinset
  provided : ∀ id ∈ counterexample.removed, id ∈ original
  positive : 0 < (reducedEstate estate original counterexample.removed.toFinset).total
  changed : ∃ reduced, allocate (survivors claims counterexample.removed.toFinset)
      (reducedEstate estate original counterexample.removed.toFinset) = .ok reduced ∧
    (∃ claim ∈ survivors claims counterexample.removed.toFinset, claim.claimantId = counterexample.survivor) ∧
    original[counterexample.survivor]? = some counterexample.originalShare ∧
    reduced[counterexample.survivor]? = some counterexample.reducedShare ∧ counterexample.originalShare ≠ counterexample.reducedShare

section

variable {mode : ConsistencyMode} {indices : List Nat} (distinct : (claims.map (·.claimantId)).Nodup)
  (member : indices ∈ coalitions claims.length mode)

include distinct member

/-- A successful reduction knows the shares of the removed claimants, and skips the rule or compares what it gives the others. -/
theorem checkReduction_eq_ok {complexity : ConsistencyComplexity} {outcome : Option RationalConsistencyCounterexample × ConsistencyComplexity} :
    checkReduction allocate claims estate original indices complexity = .ok outcome ↔
      (∀ id ∈ removedIds (·.claimantId) claims indices, id ∈ original) ∧
      let removed := (removedIds (·.claimantId) claims indices).toFinset
      let tested := { complexity with coalitionsTested := complexity.coalitionsTested + 1 }
      if 0 < (reducedEstate estate original removed).total then
        ∃ reduced, allocate (survivors claims removed) (reducedEstate estate original removed) = .ok reduced ∧
          compareSurvivors original reduced (removedIds (·.claimantId) claims indices) (survivors claims removed) tested = .ok outcome
      else outcome = (none, tested) := by
  have once := removedIds_nodup distinct ((mem_coalitions.1 member).1.imp Nat.ne_of_lt)
  have some := survivors_nonempty (properRemoval_of_coalition distinct member)
  have total : ∀ share : ℚ, share = ((removedIds (·.claimantId) claims indices).map (shareOf original)).sum →
      estate.total - share = (reducedEstate estate original (removedIds (·.claimantId) claims indices).toFinset).total := by
    rintro share rfl
    rw [reducedEstate, List.sum_toFinset _ once]
  unfold checkReduction
  dsimp only
  rw [bind_eq_ok, survivors_eq distinct]
  simp only [removedTotal_eq_ok, List.isEmpty_iff, some, false_or]
  constructor
  · rintro ⟨share, ⟨provided, isTotal⟩, run⟩
    refine ⟨provided, ?_⟩
    rw [total share isTotal] at run
    split at run
    case isTrue none =>
      rw [if_neg (not_lt.2 none)]
      exact (Except.ok.inj run).symm
    case isFalse left =>
      rw [if_pos (not_le.1 left)]
      obtain ⟨estate, made, run⟩ := bind_eq_ok.1 run
      obtain ⟨reduced, allocated, compared⟩ := bind_eq_ok.1 run
      rw [RationalEstate.new, if_neg left] at made
      obtain rfl := Except.ok.inj made
      exact ⟨reduced, allocated, compared⟩
  · rintro ⟨provided, rest⟩
    refine ⟨_, ⟨provided, rfl⟩, ?_⟩
    rw [total _ rfl]
    split at rest
    case isTrue left =>
      obtain ⟨reduced, allocated, compared⟩ := rest
      rw [if_neg (not_le.2 left)]
      refine bind_eq_ok.2 ⟨_, ?_, bind_eq_ok.2 ⟨reduced, allocated, compared⟩⟩
      rw [RationalEstate.new, if_neg (not_le.2 left)]
      rfl
    case isFalse none =>
      rw [if_pos (not_lt.1 none), rest]

theorem checkReduction_none {complexity after : ConsistencyComplexity}
    (run : checkReduction allocate claims estate original indices complexity = .ok (none, after)) :
    KeepsShares allocate claims estate original (removedIds (·.claimantId) claims indices).toFinset := by
  obtain ⟨provided, rest⟩ := (checkReduction_eq_ok distinct member).1 run
  refine ⟨fun id removed => provided id (List.mem_toFinset.1 removed), fun left => ?_⟩
  dsimp only at rest
  rw [if_pos left] at rest
  obtain ⟨reduced, allocated, compared⟩ := rest
  exact ⟨reduced, allocated, compareSurvivors_none compared⟩

theorem checkReduction_keeps (keeps : KeepsShares allocate claims estate original (removedIds (·.claimantId) claims indices).toFinset)
    (complexity : ConsistencyComplexity) : ∃ after, checkReduction allocate claims estate original indices complexity = .ok (none, after) := by
  obtain ⟨provided, keeps⟩ := keeps
  simp only [checkReduction_eq_ok distinct member]
  refine exists_and_left.2 ⟨fun id removed => provided id (List.mem_toFinset.2 removed), ?_⟩
  split
  case isTrue left =>
    obtain ⟨reduced, allocated, same⟩ := keeps left
    obtain ⟨after, compared⟩ := compareSurvivors_same same { complexity with coalitionsTested := complexity.coalitionsTested + 1 }
    exact ⟨after, reduced, allocated, compared⟩
  case isFalse => exact ⟨_, rfl⟩

theorem checkReduction_refutes {complexity after : ConsistencyComplexity} {counterexample : RationalConsistencyCounterexample}
    (run : checkReduction allocate claims estate original indices complexity = .ok (some counterexample, after)) :
    Refutes allocate claims estate original counterexample := by
  obtain ⟨provided, rest⟩ := (checkReduction_eq_ok distinct member).1 run
  dsimp only at rest
  split at rest
  case isFalse => cases rest
  case isTrue left =>
    obtain ⟨reduced, allocated, compared⟩ := rest
    obtain ⟨sameIds, isSurvivor, atOriginal, atReduced, different⟩ := compareSurvivors_some compared
    refine ⟨?_, ?_, ?_, ?_, reduced, ?_, ?_, atOriginal, atReduced, different⟩
    · exact sameIds ▸ removedIds_nodup distinct ((mem_coalitions.1 member).1.imp Nat.ne_of_lt)
    · exact sameIds ▸ properRemoval_of_coalition distinct member
    · exact sameIds ▸ provided
    · exact sameIds ▸ left
    · exact sameIds ▸ allocated
    · exact sameIds ▸ isSurvivor

end

section

variable (distinct : (claims.map (·.claimantId)).Nodup)

include distinct

theorem checkReductions_admissible {mode : ConsistencyMode} {listed : List (List Nat)}
    (within : ∀ indices ∈ listed, indices ∈ coalitions claims.length mode) (complexity : ConsistencyComplexity) :
    (∃ after, checkReductions allocate claims estate original listed complexity = .ok ⟨.admissible, after⟩) ↔
      ∀ indices ∈ listed, KeepsShares allocate claims estate original (removedIds (·.claimantId) claims indices).toFinset := by
  induction listed generalizing complexity with
  | nil => exact iff_of_true ⟨complexity, rfl⟩ (by simp)
  | cons indices rest ih =>
    obtain ⟨here, later⟩ := List.forall_mem_cons.1 within
    rw [List.forall_mem_cons]
    constructor
    · rintro ⟨after, run⟩
      obtain ⟨⟨found, tested⟩, reduced, run⟩ := bind_eq_ok.1 run
      cases found with
      | some counterexample => cases run
      | none => exact ⟨checkReduction_none distinct here reduced, (ih later tested).1 ⟨after, run⟩⟩
    · rintro ⟨keeps, others⟩
      obtain ⟨tested, reduced⟩ := checkReduction_keeps distinct here keeps complexity
      obtain ⟨after, run⟩ := (ih later tested).2 others
      exact ⟨after, bind_eq_ok.2 ⟨_, reduced, run⟩⟩

theorem checkReductions_rejected {mode : ConsistencyMode} {listed : List (List Nat)}
    (within : ∀ indices ∈ listed, indices ∈ coalitions claims.length mode) {complexity after : ConsistencyComplexity}
    {counterexample : RationalConsistencyCounterexample}
    (run : checkReductions allocate claims estate original listed complexity = .ok ⟨.rejected counterexample, after⟩) :
    Refutes allocate claims estate original counterexample := by
  induction listed generalizing complexity with
  | nil => cases run
  | cons indices rest ih =>
    obtain ⟨here, later⟩ := List.forall_mem_cons.1 within
    obtain ⟨⟨found, tested⟩, reduced, run⟩ := bind_eq_ok.1 run
    cases found with
    | none => exact ih later run
    | some reported =>
      obtain ⟨rfl, -⟩ := by simpa [pure, Except.pure] using run
      exact checkReduction_refutes distinct here reduced

theorem keepsShares_all {mode : ConsistencyMode} (whole : mode.bound claims.length = claims.length - 1) :
    (∀ indices ∈ coalitions claims.length mode,
        KeepsShares allocate claims estate original (removedIds (·.claimantId) claims indices).toFinset) ↔
      ∀ removed, ProperRemoval (·.claimantId) claims removed → KeepsShares allocate claims estate original removed := by
  constructor
  · intro all removed proper
    obtain ⟨indices, member, rfl⟩ := exists_coalition distinct whole proper
    exact all indices member
  · intro all indices member
    exact all _ (properRemoval_of_coalition distinct member)

theorem checkFullConsistencyRational_admissible {options : FullConsistencyOptions} :
    (∃ complexity, checkFullConsistencyRational allocate claims estate options = .ok ⟨.admissible, complexity⟩) ↔
      options.gate claims.length = .ok () ∧ ∃ original, allocate claims estate = .ok original ∧
        ∀ indices ∈ coalitions claims.length options.mode,
          KeepsShares allocate claims estate original (removedIds (·.claimantId) claims indices).toFinset := by
  unfold checkFullConsistencyRational
  rw [enumerated_eq]
  constructor
  · rintro ⟨complexity, run⟩
    obtain ⟨⟨⟩, passed, run⟩ := bind_eq_ok.1 run
    obtain ⟨original, allocated, run⟩ := bind_eq_ok.1 run
    exact ⟨passed, original, allocated, (checkReductions_admissible distinct (fun _ member => member) ⟨0, 0⟩).1 ⟨complexity, run⟩⟩
  · rintro ⟨passed, original, allocated, keeps⟩
    obtain ⟨complexity, run⟩ := (checkReductions_admissible distinct (fun _ member => member) ⟨0, 0⟩).2 keeps
    exact ⟨complexity, bind_eq_ok.2 ⟨(), passed, bind_eq_ok.2 ⟨original, allocated, run⟩⟩⟩

end

end

/-- The exact checker admits a rule on a problem when every removal keeps the shares of the others, and reports only removals that do not. -/
theorem checkFullConsistencyRational_exact (allocate : List RationalClaim → RationalEstate → Except LegitimacyError RationalAllocation)
    (claims : List RationalClaim) (estate : RationalEstate) (options : FullConsistencyOptions)
    (distinct : (claims.map (·.claimantId)).Nodup) (whole : options.mode.bound claims.length = claims.length - 1) :
    ((∃ complexity, checkFullConsistencyRational allocate claims estate options = .ok ⟨.admissible, complexity⟩) ↔
      options.gate claims.length = .ok () ∧ ∃ original, allocate claims estate = .ok original ∧
        ∀ removed, ProperRemoval (·.claimantId) claims removed → KeepsShares allocate claims estate original removed) ∧
    ∀ counterexample complexity, checkFullConsistencyRational allocate claims estate options = .ok ⟨.rejected counterexample, complexity⟩ →
      ∃ original, allocate claims estate = .ok original ∧ Refutes allocate claims estate original counterexample := by
  refine ⟨?_, fun counterexample complexity run => ?_⟩
  · rw [checkFullConsistencyRational_admissible distinct]
    simp only [keepsShares_all distinct whole]
  · obtain ⟨⟨⟩, -, run⟩ := bind_eq_ok.1 run
    obtain ⟨original, allocated, run⟩ := bind_eq_ok.1 run
    rw [enumerated_eq] at run
    exact ⟨original, allocated, checkReductions_rejected distinct (fun _ member => member) run⟩

/-- Equal shares, of which one is kept back. -/
def reserveRule (claims : List RationalClaim) (estate : RationalEstate) : Except LegitimacyError RationalAllocation :=
  .ok (claims.foldl (fun allocation claim => allocation.insert claim.claimantId (estate.total / (claims.length + 1))) ∅)

theorem checkFullConsistencyRational_exact_reserve :
    (∃ complexity, checkFullConsistencyRational reserveRule [⟨"a", 1⟩, ⟨"b", 1⟩] ⟨3, "units"⟩ ⟨.full, false⟩ = .ok ⟨.admissible, complexity⟩) ∧
    ∃ original, reserveRule [⟨"a", 1⟩, ⟨"b", 1⟩] ⟨3, "units"⟩ = .ok original ∧
      KeepsShares reserveRule [⟨"a", 1⟩, ⟨"b", 1⟩] ⟨3, "units"⟩ original {"a"} := by
  have run : ∃ complexity, checkFullConsistencyRational reserveRule [⟨"a", 1⟩, ⟨"b", 1⟩] ⟨3, "units"⟩ ⟨.full, false⟩ =
      .ok ⟨.admissible, complexity⟩ := ⟨⟨2, 2⟩, by decide +kernel⟩
  obtain ⟨exactly, -⟩ := checkFullConsistencyRational_exact reserveRule [⟨"a", 1⟩, ⟨"b", 1⟩] ⟨3, "units"⟩ ⟨.full, false⟩
    (by decide) rfl
  obtain ⟨-, original, allocated, keeps⟩ := exactly.1 run
  refine ⟨run, original, allocated, keeps {"a"} ⟨by decide, by decide, ⟨⟨"b", 1⟩, by simp, by decide⟩⟩⟩

end Legitimacy.Diagnostics
