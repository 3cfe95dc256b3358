import Legitimacy.Divisor
import Legitimacy.FloatGrowth

namespace Legitimacy

open ExceptRun

structure Rule where
  name : String
  allocateSpec : List Claim → Estate → Except LegitimacyError Allocation
  requiresFeasibleAllocation : Bool

def Allocation.validateFeasible (allocation : Allocation) (estate : Estate) : Except LegitimacyError Unit :=
  let totalAllocated := (allocation.toList.map (·.2)).foldl (· + ·) (-0.0)
  let estateTotal := estate.total.value
  let tolerance := epsilon + epsilon * totalAllocated.abs + epsilon * estateTotal.abs
  if totalAllocated.isFinite ∧ totalAllocated - estateTotal ≤ tolerance then .ok ()
  else .error (.allocationExceedsEstate totalAllocated estateTotal)

def Rule.allocate (rule : Rule) (claims : List Claim) (estate : Estate) : Except LegitimacyError ValidAllocation := do
  let allocation ← rule.allocateSpec claims estate
  let valid ← ValidAllocation.new allocation claims
  if rule.requiresFeasibleAllocation then Allocation.validateFeasible allocation estate
  return valid

def evaluateRule (rule : Rule) (claims : List Claim) (estate : Estate) : Except LegitimacyError ValidAllocation := do
  Claim.validateAll claims
  rule.allocate claims estate

def allocationOf (allocation : ValidAllocation) (claimantId context : String) : Except LegitimacyError Float :=
  allocation.allocation[claimantId]?.elim (.error (.missingAllocationShare claimantId context)) .ok

def populationDeltas : List Float := [0.05, 0.10, 0.20, 0.40]

inductive ParadoxType where
  | claimantAddition
  | population
  | priority
deriving DecidableEq

structure ParadoxViolation where
  paradoxType : ParadoxType
  description : String
  originalAllocation : ValidAllocation
  perturbedAllocation : ValidAllocation

structure EntrantCandidate where
  label : String
  claim : Claim

def averageClaim (claims : List Claim) : Except LegitimacyError Claim := do
  let metricTotals : BTreeMap String Float := claims.foldl (fun totals claim =>
    claim.metrics.toList.foldl (fun totals (metric, value) => totals.insert metric ((totals[metric]?).getD 0 + value)) totals) ∅
  let claim ← Claim.new "average_entrant"
    ((claims.map (·.strength.value)).foldl (· + ·) (-0.0) / Float.ofNat claims.length)
  return { claim with metrics := metricTotals.map fun _ total => total / Float.ofNat claims.length }

def cloneCandidates (claim : Claim) : Except LegitimacyError (List EntrantCandidate) := do
  let clone ← Claim.new (claim.claimantId ++ "_clone") claim.strength.value
  let whole : EntrantCandidate := ⟨"clone of " ++ claim.claimantId, { clone with metrics := claim.metrics }⟩
  if epsilon < claim.strength.value then
    let halfClone ← Claim.new (claim.claimantId ++ "_half_clone") (claim.strength.value / 2)
    return [whole, ⟨"half-strength clone of " ++ claim.claimantId, { halfClone with metrics := claim.metrics }⟩]
  return [whole]

def entrantCandidates (claims : List Claim) : Except LegitimacyError (List EntrantCandidate) := do
  let clones ← claims.mapM cloneCandidates
  if claims.isEmpty then return clones.flatten
  let average ← averageClaim claims
  return clones.flatten ++ [⟨"average entrant", average⟩]

section

variable (rule : Rule) (claims : List Claim) (estate : Estate) (originalAllocation : ValidAllocation)

def detectClaimantAddition (entrants : List EntrantCandidate) : Except LegitimacyError (Option ParadoxViolation) :=
  entrants.findSomeM? fun entrant => do
    let perturbedAllocation ← evaluateRule rule (claims ++ [entrant.claim]) estate
    claims.findSomeM? fun existing => do
      let original ← allocationOf originalAllocation existing.claimantId "claimant-addition original"
      let perturbed ← allocationOf perturbedAllocation existing.claimantId "claimant-addition perturbed"
      if perturbed + epsilon < original then
        return some ⟨.claimantAddition, "Adding claimant " ++ entrant.label ++ " reduced " ++ existing.claimantId ++ " from " ++
          FloatText.fixed 6 original ++ " to " ++ FloatText.fixed 6 perturbed, originalAllocation, perturbedAllocation⟩
      return none

def pairShare (allocation : ValidAllocation) (left right context : String) : Except LegitimacyError (Option Float) := do
  let leftShare ← allocationOf allocation left context
  let rightShare ← allocationOf allocation right context
  if leftShare + rightShare ≤ epsilon then return none
  return some (leftShare / (leftShare + rightShare))

def detectPopulation : Except LegitimacyError (Option ParadoxViolation) :=
  (claims.zipIdx.flatMap fun entry => populationDeltas.map fun delta => (entry, delta)).findSomeM? fun ((claim, index), delta) => do
    let strength ← PositiveStrength.new (claim.strength.value + delta)
    let perturbedAllocation ← evaluateRule rule (claims.set index { claim with strength := strength }) estate
    claims.findSomeM? fun other => do
      if other.claimantId = claim.claimantId then return none
      let originalPair ← pairShare originalAllocation claim.claimantId other.claimantId "population original"
      let some originalPairShare := originalPair | return none
      let perturbedPair ← pairShare perturbedAllocation claim.claimantId other.claimantId "population perturbed"
      let some perturbedPairShare := perturbedPair | return none
      if perturbedPairShare + epsilon < originalPairShare then
        return some ⟨.population, "Strengthening " ++ claim.claimantId ++ " by " ++ FloatText.fixed 2 delta ++
          " lowered its pairwise share against " ++ other.claimantId ++ " from " ++ FloatText.fixed 6 originalPairShare ++ " to " ++
          FloatText.fixed 6 perturbedPairShare, originalAllocation, perturbedAllocation⟩
      return none

def isSignNegative (value : Float) : Bool := value.toBits >>> 63 == 1

def allocationOrder (allocation : ValidAllocation) (left right context : String) : Except LegitimacyError Ordering := do
  let leftShare ← allocationOf allocation left context
  let rightShare ← allocationOf allocation right context
  let delta := leftShare - rightShare
  if delta.abs ≤ epsilon then return .eq
  if isSignNegative delta then return .lt
  return .gt

def detectPriority (entrants : List EntrantCandidate) : Except LegitimacyError (Option ParadoxViolation) :=
  entrants.findSomeM? fun entrant => do
    let perturbedAllocation ← evaluateRule rule (claims ++ [entrant.claim]) estate
    (claims.zipIdx.flatMap fun (left, index) => (claims.drop (index + 1)).map fun right => (left, right)).findSomeM? fun (left, right) => do
      let originalOrder ← allocationOrder originalAllocation left.claimantId right.claimantId "priority original"
      let perturbedOrder ← allocationOrder perturbedAllocation left.claimantId right.claimantId "priority perturbed"
      if originalOrder ≠ .eq ∧ perturbedOrder ≠ .eq ∧ originalOrder ≠ perturbedOrder then
        return some ⟨.priority, "Adding stakeholder " ++ entrant.label ++ " flipped the relative treatment of " ++ left.claimantId ++ " and " ++
          right.claimantId, originalAllocation, perturbedAllocation⟩
      return none

end

def runParadoxSuite (recordParadoxResults : Rule → List ParadoxViolation → Except LegitimacyError Unit) (rule : Rule) (claims : List Claim)
    (estate : Estate) : Except LegitimacyError (List ParadoxViolation) := do
  let originalAllocation ← evaluateRule rule claims estate
  let entrants ← entrantCandidates claims
  let addition ← detectClaimantAddition rule claims estate originalAllocation entrants
  let population ← detectPopulation rule claims estate originalAllocation
  let priority ← detectPriority rule claims estate originalAllocation entrants
  let violations := addition.toList ++ population.toList ++ priority.toList
  recordParadoxResults rule violations
  return violations

section

variable {rule : Rule} {claims : List Claim} {estate : Estate} {allocation : ValidAllocation}

theorem validateAll_iff : Claim.validateAll claims = .ok () ↔
    (∀ claim ∈ claims, isBlank claim.claimantId = false) ∧ (claims.map (·.claimantId)).Nodup := by
  unfold Claim.validateAll
  rw [validateUnseen_eq_ok]
  simp

theorem validateAll_append (validated : Claim.validateAll claims = .ok ()) {entrant : Claim} (named : isBlank entrant.claimantId = false) :
    Claim.validateAll (claims ++ [entrant]) = .ok () ↔ entrant.claimantId ∉ claims.map (·.claimantId) := by
  obtain ⟨visible, distinct⟩ := validateAll_iff.1 validated
  rw [validateAll_iff, List.map_append, List.nodup_append, List.forall_mem_append]
  simp only [List.map_singleton, List.nodup_singleton, List.mem_singleton, forall_eq]
  constructor
  · rintro ⟨-, -, -, fresh⟩ taken
    exact fresh _ taken rfl
  · exact fun fresh => ⟨⟨visible, named⟩, distinct, trivial, fun id listed same => fresh (same ▸ listed)⟩

theorem evaluateRule_share (evaluated : evaluateRule rule claims estate = .ok allocation) {claim : Claim} (listed : claim ∈ claims)
    (context : String) : ∃ share, allocationOf allocation claim.claimantId context = .ok share := by
  obtain ⟨⟨⟩, -, allocated⟩ := bind_eq_ok.1 evaluated
  obtain ⟨shares, -, rest⟩ := bind_eq_ok.1 allocated
  obtain ⟨valid, made, rest⟩ := bind_eq_ok.1 rest
  obtain ⟨⟨⟩, checked, same⟩ := bind_eq_ok.1 made
  have kept : valid = allocation := by
    split at rest
    · obtain ⟨⟨⟩, -, returned⟩ := bind_eq_ok.1 rest
      exact Except.ok.inj returned
    · exact Except.ok.inj rest
  obtain rfl := Except.ok.inj same
  obtain ⟨⟨⟩, provided, -⟩ := bind_eq_ok.1 checked
  have expected : claim.claimantId ∈ (claims.foldl (fun ids claim => ids.insert claim.claimantId) (∅ : BTreeSet ClaimantId)).toList := by
    rw [Std.ExtTreeSet.mem_toList, ← Std.ExtTreeSet.contains_iff_mem, contains_foldl_insert]
    exact Or.inr ⟨claim, listed, rfl⟩
  have checked := forM_eq_ok.1 provided _ expected
  obtain ⟨share, found⟩ := mem_iff_lookup.1 (Std.ExtTreeMap.contains_iff_mem.1 (check_eq_ok.1 checked))
  exact ⟨share, elim_eq_ok.2 (kept ▸ found)⟩

end

section

variable {claims : List Claim}

def InRange (value : Float) : Prop := value.isFinite = true ∧ ¬value ≤ 0
deriving Decidable

def averageStrength (claims : List Claim) : Float := (claims.map (·.strength.value)).foldl (· + ·) (-0.0) / Float.ofNat claims.length

def entrantIds (claims : List Claim) : List ClaimantId :=
  (claims.flatMap fun claim => (claim.claimantId ++ "_clone") ::
    if epsilon < claim.strength.value then [claim.claimantId ++ "_half_clone"] else []) ++
  if claims.isEmpty then [] else ["average_entrant"]

theorem isBlank_append (front : String) {suffix : String} (visible : isBlank suffix = false) : isBlank (front ++ suffix) = false := by
  unfold isBlank at visible ⊢
  rw [String.toList_append, List.all_append, visible, Bool.and_false]

theorem entrantIds_named {id : ClaimantId} (listed : id ∈ entrantIds claims) : isBlank id = false := by
  rcases List.mem_append.1 listed with cloned | average
  · obtain ⟨claim, -, named⟩ := List.mem_flatMap.1 cloned
    rcases List.mem_cons.1 named with rfl | half
    · exact isBlank_append _ (by decide)
    · split at half
      · obtain rfl := List.mem_singleton.1 half
        exact isBlank_append _ (by decide)
      · cases half
  · split at average
    · cases average
    · obtain rfl := List.mem_singleton.1 average
      decide

theorem claim_new_of_inRange {id : ClaimantId} {strength : Float} (named : isBlank id = false) (inRange : InRange strength) :
    ∃ claim, Claim.new id strength = .ok claim ∧ claim.claimantId = id := by
  have strong : ¬(¬strength.isFinite ∨ strength ≤ 0) := by
    rintro (infinite | low)
    · exact infinite inRange.1
    · exact inRange.2 low
  refine ⟨⟨id, ⟨strength, inRange.1, inRange.2⟩, ∅⟩, ?_, rfl⟩
  unfold Claim.new PositiveStrength.new
  rw [named, if_neg Bool.false_ne_true, if_neg strong, dif_pos ⟨inRange.1, inRange.2⟩]
  rfl

theorem cloneCandidates_ok {claim : Claim} (halved : epsilon < claim.strength.value → InRange (claim.strength.value / 2)) :
    ∃ candidates, cloneCandidates claim = .ok candidates ∧ candidates.map (·.claim.claimantId) =
      (claim.claimantId ++ "_clone") :: if epsilon < claim.strength.value then [claim.claimantId ++ "_half_clone"] else [] := by
  obtain ⟨clone, made, named⟩ := @claim_new_of_inRange (claim.claimantId ++ "_clone") claim.strength.value (isBlank_append _ (by decide))
    ⟨claim.strength.finite, claim.strength.positive⟩
  unfold cloneCandidates
  rw [made]
  by_cases large : epsilon < claim.strength.value
  · obtain ⟨halfClone, halfMade, halfNamed⟩ := @claim_new_of_inRange (claim.claimantId ++ "_half_clone") (claim.strength.value / 2)
      (isBlank_append _ (by decide)) (halved large)
    simp only [bind, Except.bind, large, if_true, halfMade]
    exact ⟨_, rfl, by simp [named, halfNamed]⟩
  · simp only [bind, Except.bind, large, if_false]
    exact ⟨_, rfl, by simp [named]⟩

theorem entrantCandidates_ok (halved : ∀ claim ∈ claims, epsilon < claim.strength.value → InRange (claim.strength.value / 2))
    (averaged : claims ≠ [] → InRange (averageStrength claims)) :
    ∃ entrants, entrantCandidates claims = .ok entrants ∧ entrants.map (·.claim.claimantId) = entrantIds claims := by
  obtain ⟨clones, made, ids⟩ : ∃ clones, claims.mapM cloneCandidates = .ok clones ∧ clones.flatten.map (·.claim.claimantId) =
      claims.flatMap fun claim => (claim.claimantId ++ "_clone") ::
        if epsilon < claim.strength.value then [claim.claimantId ++ "_half_clone"] else [] := by
    clear averaged
    induction claims with
    | nil => exact ⟨[], rfl, rfl⟩
    | cons claim rest ih =>
      obtain ⟨first, here, firstIds⟩ := cloneCandidates_ok (halved claim List.mem_cons_self)
      obtain ⟨others, later, otherIds⟩ := ih fun other listed => halved other (List.mem_cons_of_mem claim listed)
      refine ⟨first :: others, mapM_eq_ok.2 (.cons here (mapM_eq_ok.1 later)), ?_⟩
      rw [List.flatten_cons, List.map_append, firstIds, otherIds, List.flatMap_cons]
  unfold entrantCandidates entrantIds
  rw [made]
  by_cases none : claims = []
  · subst none
    exact ⟨_, rfl, by simpa using ids⟩
  · obtain ⟨average, averageMade, averageNamed⟩ := @claim_new_of_inRange "average_entrant" (averageStrength claims) (by decide) (averaged none)
    have known : claims.isEmpty = false := by simpa using none
    unfold averageStrength at averageMade
    unfold averageClaim
    simp only [bind, Except.bind, averageMade, known, Bool.false_eq_true, if_false]
    exact ⟨_, rfl, by rw [List.map_append, ids, List.map_singleton, averageNamed]⟩

end

section

variable {rule : Rule} {claims : List Claim} {estate : Estate} {original : ValidAllocation} {entrants : List EntrantCandidate}

def Provides (allocation : ValidAllocation) (claims : List Claim) : Prop :=
  ∀ claim ∈ claims, ∀ context, ∃ share, allocationOf allocation claim.claimantId context = .ok share

theorem pairShare_ok (provides : Provides original claims) {left right : Claim} (atLeft : left ∈ claims) (atRight : right ∈ claims) (context : String) :
    ∃ share, pairShare original left.claimantId right.claimantId context = .ok share := by
  obtain ⟨leftShare, leftFound⟩ := provides left atLeft context
  obtain ⟨rightShare, rightFound⟩ := provides right atRight context
  unfold pairShare
  simp only [leftFound, rightFound, bind, Except.bind]
  split <;> exact ⟨_, rfl⟩

theorem allocationOrder_ok (provides : Provides original claims) {left right : Claim} (atLeft : left ∈ claims) (atRight : right ∈ claims)
    (context : String) : ∃ order, allocationOrder original left.claimantId right.claimantId context = .ok order := by
  obtain ⟨leftShare, leftFound⟩ := provides left atLeft context
  obtain ⟨rightShare, rightFound⟩ := provides right atRight context
  unfold allocationOrder
  simp only [leftFound, rightFound, bind, Except.bind]
  split
  · exact ⟨_, rfl⟩
  · split <;> exact ⟨_, rfl⟩

def TotalRule (rule : Rule) (estate : Estate) : Prop :=
  ∀ claims, Claim.validateAll claims = .ok () → ∃ allocation, evaluateRule rule claims estate = .ok allocation

theorem exists_perturbed (total : TotalRule rule estate) (validated : Claim.validateAll claims = .ok ()) {entrant : EntrantCandidate}
    (named : isBlank entrant.claim.claimantId = false) (fresh : entrant.claim.claimantId ∉ claims.map (·.claimantId)) :
    ∃ perturbed, evaluateRule rule (claims ++ [entrant.claim]) estate = .ok perturbed ∧ Provides perturbed claims := by
  obtain ⟨perturbed, evaluated⟩ := total (claims ++ [entrant.claim]) ((validateAll_append validated named).2 fresh)
  exact ⟨perturbed, evaluated, fun claim listed => evaluateRule_share evaluated (List.mem_append_left _ listed)⟩

theorem detectClaimantAddition_ok (total : TotalRule rule estate) (validated : Claim.validateAll claims = .ok ()) (provides : Provides original claims)
    (usable : ∀ entrant ∈ entrants, isBlank entrant.claim.claimantId = false ∧ entrant.claim.claimantId ∉ claims.map (·.claimantId)) :
    ∃ found, detectClaimantAddition rule claims estate original entrants = .ok found := by
  refine exists_findSomeM fun entrant listed => ?_
  obtain ⟨named, fresh⟩ := usable entrant listed
  obtain ⟨perturbed, evaluated, again⟩ := @exists_perturbed rule claims estate total validated entrant named fresh
  rw [evaluated]
  refine exists_findSomeM fun existing known => ?_
  obtain ⟨before, atOriginal⟩ := provides existing known "claimant-addition original"
  obtain ⟨after, atPerturbed⟩ := again existing known "claimant-addition perturbed"
  simp only [atOriginal, atPerturbed, bind, Except.bind]
  split <;> exact ⟨_, rfl⟩

theorem populationDeltas_moderate : ∀ delta ∈ populationDeltas, FloatOrder.Normal delta.toModel.unpack (-1074) 900 := by
  have twentieth : FloatOrder.Normal (0.05 : Float).toModel.unpack (-1074) 900 :=
    ⟨7205759403792794, -57, by decide, rfl, by decide, by decide, by decide, by decide⟩
  have tenth : FloatOrder.Normal (0.10 : Float).toModel.unpack (-1074) 900 :=
    ⟨7205759403792794, -56, by decide, rfl, by decide, by decide, by decide, by decide⟩
  have fifth : FloatOrder.Normal (0.20 : Float).toModel.unpack (-1074) 900 :=
    ⟨7205759403792794, -55, by decide, rfl, by decide, by decide, by decide, by decide⟩
  have twoFifths : FloatOrder.Normal (0.40 : Float).toModel.unpack (-1074) 900 :=
    ⟨7205759403792794, -54, by decide, rfl, by decide, by decide, by decide, by decide⟩
  intro delta listed
  simp only [populationDeltas, List.mem_cons, List.not_mem_nil, or_false] at listed
  rcases listed with rfl | rfl | rfl | rfl
  · exact twentieth
  · exact tenth
  · exact fifth
  · exact twoFifths

theorem ids_set {index : Nat} {claim : Claim} (found : claims[index]? = some claim) (strength : PositiveStrength) :
    (claims.set index { claim with strength := strength }).map (·.claimantId) = claims.map (·.claimantId) := by
  obtain ⟨inside, rfl⟩ := List.getElem?_eq_some_iff.1 found
  have same := @List.set_getElem_self _ (claims.map (·.claimantId)) index (by simpa using inside)
  rw [List.getElem_map] at same
  rw [List.map_set, same]

theorem validateAll_set (validated : Claim.validateAll claims = .ok ()) {index : Nat} {claim : Claim} (found : claims[index]? = some claim)
    (strength : PositiveStrength) : Claim.validateAll (claims.set index { claim with strength := strength }) = .ok () := by
  obtain ⟨visible, distinct⟩ := validateAll_iff.1 validated
  refine validateAll_iff.2 ⟨fun other member => ?_, (ids_set found strength).symm ▸ distinct⟩
  rcases List.mem_or_eq_of_mem_set member with listed | rfl
  · exact visible other listed
  · exact visible claim (List.mem_of_getElem? found)

theorem detectPopulation_ok (total : TotalRule rule estate) (validated : Claim.validateAll claims = .ok ()) (provides : Provides original claims) :
    ∃ found, detectPopulation rule claims estate original = .ok found := by
  refine exists_findSomeM fun probe listed => ?_
  obtain ⟨entry, atEntry, mapped⟩ := List.mem_flatMap.1 listed
  obtain ⟨delta, moderate, rfl⟩ := List.mem_map.1 mapped
  obtain ⟨claim, index⟩ := entry
  have found := List.mem_zipIdx_iff_getElem?.1 atEntry
  have known := List.mem_of_getElem? found
  have inRange := FloatOrder.add_in_range claim.strength.finite claim.strength.positive (populationDeltas_moderate delta moderate)
  have strengthened : PositiveStrength.new (claim.strength.value + delta) = .ok ⟨claim.strength.value + delta, inRange.1, inRange.2⟩ := dif_pos inRange
  obtain ⟨perturbed, evaluated⟩ := total _ (validateAll_set validated found ⟨claim.strength.value + delta, inRange.1, inRange.2⟩)
  have again : ∀ other ∈ claims, ∀ context, ∃ share, allocationOf perturbed other.claimantId context = .ok share := by
    intro other listed context
    have sameIds := ids_set found ⟨claim.strength.value + delta, inRange.1, inRange.2⟩ ▸ List.mem_map_of_mem (f := Claim.claimantId) listed
    obtain ⟨holder, there, named⟩ := List.mem_map.1 sameIds
    exact named ▸ evaluateRule_share evaluated there context
  dsimp only
  rw [strengthened]
  simp only [bind, Except.bind, evaluated]
  refine exists_findSomeM fun other present => ?_
  split
  · exact ⟨_, rfl⟩
  · obtain ⟨before, atOriginal⟩ := pairShare_ok provides known present "population original"
    obtain ⟨after, atPerturbed⟩ := pairShare_ok again known present "population perturbed"
    rw [atOriginal]
    cases before with
    | none => exact ⟨_, rfl⟩
    | some originalPair =>
      rw [atPerturbed]
      cases after with
      | none => exact ⟨_, rfl⟩
      | some perturbedPair =>
        dsimp only
        split <;> exact ⟨_, rfl⟩

theorem detectPriority_ok (total : TotalRule rule estate) (validated : Claim.validateAll claims = .ok ()) (provides : Provides original claims)
    (usable : ∀ entrant ∈ entrants, isBlank entrant.claim.claimantId = false ∧ entrant.claim.claimantId ∉ claims.map (·.claimantId)) :
    ∃ found, detectPriority rule claims estate original entrants = .ok found := by
  refine exists_findSomeM fun entrant listed => ?_
  obtain ⟨named, fresh⟩ := usable entrant listed
  obtain ⟨perturbed, evaluated, again⟩ := @exists_perturbed rule claims estate total validated entrant named fresh
  rw [evaluated]
  refine exists_findSomeM fun pair member => ?_
  obtain ⟨⟨left, index⟩, atLeft, paired⟩ := List.mem_flatMap.1 member
  obtain ⟨right, behind, rfl⟩ := List.mem_map.1 paired
  have leftKnown := List.mem_of_getElem? (List.mem_zipIdx_iff_getElem?.1 atLeft)
  have rightKnown := List.mem_of_mem_drop behind
  obtain ⟨before, atOriginal⟩ := allocationOrder_ok provides leftKnown rightKnown "priority original"
  obtain ⟨after, atPerturbed⟩ := allocationOrder_ok again leftKnown rightKnown "priority perturbed"
  simp only [atOriginal, atPerturbed, bind, Except.bind]
  split <;> exact ⟨_, rfl⟩

end

section

variable {claims : List Claim} {estate : Estate}

def nothingFor (claims : List Claim) : Allocation := claims.foldl (fun allocation claim => allocation.insert claim.claimantId 0) ∅

theorem nothingFor_lookup {id : ClaimantId} : (nothingFor claims)[id]? = if id ∈ claims.map (·.claimantId) then some 0 else none := by
  suffices general : ∀ start : Allocation, (claims.foldl (fun allocation claim => allocation.insert claim.claimantId 0) start)[id]? =
      if id ∈ claims.map (·.claimantId) then some 0 else start[id]? by simpa [nothingFor] using general ∅
  induction claims with
  | nil => simp
  | cons claim rest ih =>
    intro start
    rw [List.foldl_cons, ih, lookup_insert, List.map_cons]
    by_cases later : id ∈ rest.map (·.claimantId)
    · simp [later]
    · by_cases same : id = claim.claimantId
      · simp [same]
      · simp [later, same]

theorem nothingFor_share {id context : String} {share : Float} (found : allocationOf ⟨nothingFor claims⟩ id context = .ok share) : share = 0 := by
  have there := elim_eq_ok.1 found
  rw [nothingFor_lookup] at there
  split at there
  · exact (Option.some.inj there).symm
  · cases there

/-- Nobody gets anything. -/
def nothingRule : Rule := ⟨"nothing", fun claims _ => .ok (nothingFor claims), false⟩

theorem nothingRule_evaluate (validated : Claim.validateAll claims = .ok ()) : evaluateRule nothingRule claims estate = .ok ⟨nothingFor claims⟩ := by
  have valid : Allocation.validate (nothingFor claims) claims = .ok () := by
    refine bind_eq_ok.2 ⟨(), forM_eq_ok.2 fun id expected => ?_, forM_eq_ok.2 fun entry member => ?_⟩
    · rw [Std.ExtTreeSet.mem_toList, ← Std.ExtTreeSet.contains_iff_mem, contains_foldl_insert] at expected
      obtain ⟨claim, listed, rfl⟩ := expected.resolve_left (by simp)
      refine check_eq_ok.2 (Std.ExtTreeMap.contains_iff_mem.2 (mem_iff_lookup.2 ⟨0, ?_⟩))
      rw [nothingFor_lookup, if_pos (List.mem_map_of_mem listed)]
    · obtain ⟨id, share⟩ := entry
      have found := Std.ExtTreeMap.mem_toList_iff_getElem?_eq_some.1 member
      rw [nothingFor_lookup] at found
      split at found
      case isTrue known =>
        obtain ⟨claim, listed, named⟩ := List.mem_map.1 known
        obtain rfl := Option.some.inj found
        have zero : ¬(¬(0 : Float).isFinite = true ∨ (0 : Float) < 0) := by decide
        refine guard_eq_ok.2 ⟨zero, guard_eq_ok.2 ⟨not_not.2 ?_, rfl⟩⟩
        rw [contains_foldl_insert]
        exact Or.inr ⟨claim, listed, named⟩
      case isFalse => cases found
  exact bind_eq_ok.2 ⟨(), validated, bind_eq_ok.2 ⟨_, rfl, bind_eq_ok.2 ⟨⟨nothingFor claims⟩, bind_eq_ok.2 ⟨(), valid, rfl⟩, rfl⟩⟩⟩

theorem nothingRule_total : TotalRule nothingRule estate := fun _ validated => ⟨_, nothingRule_evaluate validated⟩

theorem detectClaimantAddition_fails (validated : Claim.validateAll claims = .ok ()) {entrants : List EntrantCandidate}
    (named : ∀ entrant ∈ entrants, isBlank entrant.claim.claimantId = false) {entrant : EntrantCandidate} (listed : entrant ∈ entrants)
    (taken : entrant.claim.claimantId ∈ claims.map (·.claimantId)) (found : Option ParadoxViolation) :
    detectClaimantAddition nothingRule claims estate ⟨nothingFor claims⟩ entrants ≠ .ok found := by
  refine findSomeM_fails (fun other member violation run => ?_) listed (fun outcome run => ?_) found
  · obtain ⟨perturbed, evaluated, run⟩ := bind_eq_ok.1 run
    obtain ⟨⟨⟩, extended, -⟩ := bind_eq_ok.1 evaluated
    obtain rfl := Except.ok.inj (evaluated.symm.trans (nothingRule_evaluate extended))
    obtain ⟨existing, known, probed⟩ := findSomeM_some run
    obtain ⟨before, atOriginal, probed⟩ := bind_eq_ok.1 probed
    obtain ⟨after, atPerturbed, probed⟩ := bind_eq_ok.1 probed
    obtain rfl := nothingFor_share atOriginal
    obtain rfl := nothingFor_share atPerturbed
    have same : ¬(0 : Float) + epsilon < 0 := by decide
    rw [if_neg same] at probed
    cases probed
  · obtain ⟨perturbed, evaluated, -⟩ := bind_eq_ok.1 run
    obtain ⟨⟨⟩, extended, -⟩ := bind_eq_ok.1 evaluated
    exact (validateAll_append validated (named entrant listed)).1 extended taken

end

/-- For valid claims whose strengths can be halved and averaged, the search runs for every rule just when no entrant's name is taken. -/
theorem runParadoxSuite_ok_iff (recordParadoxResults : Rule → List ParadoxViolation → Except LegitimacyError Unit)
    (records : ∀ rule violations, recordParadoxResults rule violations = .ok ()) (claims : List Claim)
    (validated : Claim.validateAll claims = .ok ()) (halved : ∀ claim ∈ claims, epsilon < claim.strength.value → InRange (claim.strength.value / 2))
    (averaged : claims ≠ [] → InRange (averageStrength claims)) :
    (∀ rule estate, TotalRule rule estate → ∃ violations, runParadoxSuite recordParadoxResults rule claims estate = .ok violations) ↔
      ∀ id ∈ entrantIds claims, id ∉ claims.map (·.claimantId) := by
  obtain ⟨entrants, made, ids⟩ := entrantCandidates_ok halved averaged
  have named : ∀ entrant ∈ entrants, isBlank entrant.claim.claimantId = false :=
    fun entrant listed => entrantIds_named (ids ▸ List.mem_map_of_mem listed)
  constructor
  · intro runs id generated taken
    rw [← ids] at generated
    obtain ⟨entrant, listed, rfl⟩ := List.mem_map.1 generated
    obtain ⟨violations, run⟩ := runs nothingRule ⟨⟨1, by decide, by decide⟩, "units"⟩ nothingRule_total
    obtain ⟨original, evaluated, run⟩ := bind_eq_ok.1 run
    obtain rfl := Except.ok.inj (evaluated.symm.trans (nothingRule_evaluate validated))
    obtain ⟨candidates, again, run⟩ := bind_eq_ok.1 run
    obtain rfl := Except.ok.inj (again.symm.trans made)
    obtain ⟨addition, detected, -⟩ := bind_eq_ok.1 run
    exact detectClaimantAddition_fails validated named listed taken addition detected
  · intro fresh rule estate total
    obtain ⟨original, evaluated⟩ := total claims validated
    have provides : Provides original claims := fun claim listed => evaluateRule_share evaluated listed
    have usable : ∀ entrant ∈ entrants, isBlank entrant.claim.claimantId = false ∧ entrant.claim.claimantId ∉ claims.map (·.claimantId) :=
      fun entrant listed => ⟨named entrant listed, fresh _ (ids ▸ List.mem_map_of_mem listed)⟩
    obtain ⟨addition, atAddition⟩ := @detectClaimantAddition_ok rule claims estate original entrants total validated provides usable
    obtain ⟨population, atPopulation⟩ := @detectPopulation_ok rule claims estate original total validated provides
    obtain ⟨priority, atPriority⟩ := @detectPriority_ok rule claims estate original entrants total validated provides usable
    refine ⟨addition.toList ++ population.toList ++ priority.toList, bind_eq_ok.2 ⟨original, evaluated, bind_eq_ok.2 ⟨entrants, made, ?_⟩⟩⟩
    refine bind_eq_ok.2 ⟨addition, atAddition, bind_eq_ok.2 ⟨population, atPopulation, bind_eq_ok.2 ⟨priority, atPriority, ?_⟩⟩⟩
    exact bind_eq_ok.2 ⟨(), records rule _, rfl⟩

def evenClaims (ids : List ClaimantId) : List Claim := ids.map fun id => namedClaim id ⟨1, one_finite, one_positive⟩

/-- Of two claimants neither of which is named after the other, all entrants are new. -/
theorem runParadoxSuite_ok_iff_pair : (∀ id ∈ entrantIds (evenClaims ["a", "b"]), id ∉ (evenClaims ["a", "b"]).map (·.claimantId)) ∧
    ∀ rule estate, TotalRule rule estate →
      ∃ violations, runParadoxSuite (fun _ _ => .ok ()) rule (evenClaims ["a", "b"]) estate = .ok violations := by
  have fresh : ∀ id ∈ entrantIds (evenClaims ["a", "b"]), id ∉ (evenClaims ["a", "b"]).map (·.claimantId) := by decide
  exact ⟨fresh, (runParadoxSuite_ok_iff (fun _ _ => .ok ()) (fun _ _ => rfl) (evenClaims ["a", "b"]) (by decide) (by decide) (by decide)).2 fresh⟩

/-- A claimant who is called like the clone of another stops the search. -/
theorem taken_name_fails : (∀ estate, TotalRule nothingRule estate) ∧ Claim.validateAll (evenClaims ["a", "a_clone"]) = .ok () ∧
    (∀ claim ∈ evenClaims ["a", "a_clone"], InRange (claim.strength.value / 2)) ∧
    InRange (averageStrength (evenClaims ["a", "a_clone"])) ∧
    runParadoxSuite (fun _ _ => .ok ()) nothingRule (evenClaims ["a", "a_clone"])
      ⟨⟨1, one_finite, one_positive⟩, "units"⟩ = .error (.duplicateClaimantId "a_clone") :=
  ⟨fun _ => nothingRule_total, by decide, by decide, by decide, rfl⟩

end Legitimacy
