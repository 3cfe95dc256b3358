import Legitimacy.ConsistencyPaths

namespace Legitimacy.Diagnostics

open ExceptRun

structure Claimant where
  id : ClaimantId
  priorityClass : String

structure ClassedRule extends ExactRule where
  priorityClasses : List String

/-- What speaks against a rule, in a class. -/
inductive ShockFinding where
  | winners (priorityClass : String) (gained lost : List ClaimantId)
  | losers (priorityClass : String) (lost gained : List ClaimantId)
  | uneven (priorityClass : String) (isLoss : Bool) (ratios : List (ClaimantId × ℚ))
deriving DecidableEq

/-- The counterexample without its texts, which show the finding and the scale; the claims are those of the baseline. -/
structure ShockCounterexample where
  finding : ShockFinding
  scale : ℚ
  claims : List RationalClaim
  originalEstate : RationalEstate
  originalAllocation : RationalAllocation
  shockedEstate : RationalEstate
  shockedAllocation : RationalAllocation

inductive ShockVerdict where
  | admissible (axiomName : String) (perturbationsTested : Nat)
  | rejected (axiomName : String) (counterexample : ShockCounterexample)

def RationalEstate.scale (estate : RationalEstate) (scale : ℚ) : Except LegitimacyError RationalEstate :=
  if estate.total * scale ≤ 0 then .error (.invalidEstateTotal (shown (estate.total * scale))) else .ok { estate with total := estate.total * scale }

section

variable (tolerance : ℚ)

/-- What two shares may differ by without one of them being the larger. -/
def slack (before after : ℚ) : ℚ := tolerance + tolerance * (|after| + |before|)

def Gained (before after : ℚ) : Prop := after > before + slack tolerance before after
deriving Decidable

def Lost (before after : ℚ) : Prop := after < before - slack tolerance before after
deriving Decidable

def Changed (before after : ℚ) : Prop := before > tolerance ∧ |before - after| > slack tolerance before after
deriving Decidable

section

variable (original shocked : RationalAllocation)

def movedMembers (members : List Claimant) : Except LegitimacyError (List ClaimantId × List ClaimantId) :=
  members.foldlM (fun (gained, lost) member => do
    let before ← rationalShare original member.id "solidarity baseline share"
    let after ← rationalShare shocked member.id "solidarity shocked share"
    if Gained tolerance before after then .ok (gained ++ [member.id], lost)
    else if Lost tolerance before after then .ok (gained, lost ++ [member.id])
    else .ok (gained, lost)) ([], [])

/-- The members with a share before the shock that is another after it, with the ratio of the two. -/
def changedMembers (members : List Claimant) : Except LegitimacyError (List (ClaimantId × ℚ)) :=
  members.foldlM (fun changed member => do
    let before ← rationalShare original member.id "solidarity class baseline share"
    let after ← rationalShare shocked member.id "solidarity class shocked share"
    if Changed tolerance before after then .ok (changed ++ [(member.id, after / before)])
    else .ok changed) []

def classEvennessViolation (priorityClass : String) (members : List Claimant) (isLoss : Bool) : Except LegitimacyError (Option ShockFinding) := do
  let changed ← changedMembers tolerance original shocked members
  if changed.length < 2 then return none
  let referenceRatio := (changed.head?.map (·.2)).getD 0
  if (changed.drop 1).all fun (_, ratio) => decide (|ratio - referenceRatio| ≤ tolerance) then return none
  return some (.uneven priorityClass isLoss changed)

def checkClass (claimants : List Claimant) (isLoss : Bool) (priorityClass : String) : Except LegitimacyError (Option ShockFinding) := do
  let members := claimants.filter (·.priorityClass = priorityClass)
  if members.length < 2 then return none
  let (gained, lost) ← movedMembers tolerance original shocked members
  if isLoss ∧ gained ≠ [] then return some (.winners priorityClass gained lost)
  if ¬isLoss ∧ lost ≠ [] then return some (.losers priorityClass lost gained)
  classEvennessViolation tolerance original shocked priorityClass members isLoss

def checkClasses (claimants : List Claimant) (isLoss : Bool) : List String → Except LegitimacyError (Option ShockFinding)
  | [] => .ok none
  | priorityClass :: rest => do
    match ← checkClass tolerance original shocked claimants isLoss priorityClass with
    | some finding => return some finding
    | none => checkClasses claimants isLoss rest

end

variable (rule : ClassedRule) (claims : List RationalClaim) (estate : RationalEstate) (claimants : List Claimant)

/-- A scale that is not the identity is a shock. -/
def checkShocks (original : RationalAllocation) : List ℚ → Nat → Except LegitimacyError ShockVerdict
  | [], tested => .ok (.admissible "solidarity" tested)
  | scale :: rest, tested =>
    if |scale - 1| < tolerance then checkShocks original rest tested
    else do
      let shockedEstate ← estate.scale scale
      let shocked ← evaluateExactRule tolerance rule.toExactRule claims shockedEstate
      match ← checkClasses tolerance original shocked claimants (decide (scale < 1)) rule.priorityClasses with
      | some finding => return .rejected "solidarity" ⟨finding, scale, claims, estate, original, shockedEstate, shocked⟩
      | none => checkShocks original rest (tested + 1)

def checkSolidarity (scales : List ℚ) : Except LegitimacyError ShockVerdict := do
  let original ← evaluateExactRule tolerance rule.toExactRule claims estate
  checkShocks tolerance rule claims estate claimants original scales 0

end

section

variable {tolerance : ℚ} {original shocked : RationalAllocation} {members : List Claimant}

def AgainstShock (tolerance : ℚ) (isLoss : Bool) (before after : ℚ) : Prop :=
  if isLoss then Gained tolerance before after else Lost tolerance before after

/-- Whether the shares of a member before and after the shock are so related. -/
abbrev Shares (relation : ℚ → ℚ → Prop) (original shocked : RationalAllocation) (member : Claimant) : Prop :=
  relation (shareOf original member.id) (shareOf shocked member.id)

def shockRatio (original shocked : RationalAllocation) (member : Claimant) : ℚ := shareOf shocked member.id / shareOf original member.id

structure ClassPasses (tolerance : ℚ) (original shocked : RationalAllocation) (isLoss : Bool) (members : List Claimant) : Prop where
  listed : ∀ member ∈ members, member.id ∈ original ∧ member.id ∈ shocked
  follow : ∀ member ∈ members, ¬Shares (AgainstShock tolerance isLoss) original shocked member
  proportion : ∀ first rest, members.filter (Shares (Changed tolerance) original shocked ·) = first :: rest →
    ∀ member ∈ rest, |shockRatio original shocked member - shockRatio original shocked first| ≤ tolerance

theorem rationalShare_eq_shareOf {allocation : RationalAllocation} {claimantId context : String} {share : ℚ} :
    rationalShare allocation claimantId context = .ok share ↔ claimantId ∈ allocation ∧ share = shareOf allocation claimantId := by
  rw [rationalShare_eq_ok, mem_iff_lookup, shareOf]
  cases allocation[claimantId]? with
  | none => simp
  | some found => simp [eq_comm]

theorem foldlM_members {σ : Type} {step : σ → Claimant → Except LegitimacyError σ} {next : σ → Claimant → σ}
    (each : ∀ state member after, step state member = .ok after ↔ (member.id ∈ original ∧ member.id ∈ shocked) ∧ after = next state member)
    {start final : σ} : members.foldlM step start = .ok final ↔
      (∀ member ∈ members, member.id ∈ original ∧ member.id ∈ shocked) ∧ final = members.foldl next start := by
  induction members generalizing start with
  | nil => simp [pure, Except.pure, eq_comm]
  | cons member rest ih =>
    rw [List.foldlM_cons, bind_eq_ok, List.forall_mem_cons, List.foldl_cons]
    constructor
    · rintro ⟨between, first, others⟩
      obtain ⟨listed, rfl⟩ := (each start member between).1 first
      obtain ⟨later, made⟩ := ih.1 others
      exact ⟨⟨listed, later⟩, made⟩
    · rintro ⟨⟨listed, later⟩, made⟩
      exact ⟨next start member, (each start member _).2 ⟨listed, rfl⟩, ih.2 ⟨later, made⟩⟩

theorem movedMembers_eq_ok {found : List ClaimantId × List ClaimantId} : movedMembers tolerance original shocked members = .ok found ↔
    (∀ member ∈ members, member.id ∈ original ∧ member.id ∈ shocked) ∧
    found = ((members.filter (Shares (Gained tolerance) original shocked ·)).map (·.id),
      (members.filter fun member => ¬Shares (Gained tolerance) original shocked member ∧ Shares (Lost tolerance) original shocked member).map (·.id)) := by
  unfold movedMembers
  rw [@foldlM_members original shocked members _ _ fun found member =>
    if Shares (Gained tolerance) original shocked member then (found.1 ++ [member.id], found.2)
    else if Shares (Lost tolerance) original shocked member then (found.1, found.2 ++ [member.id]) else found]
  · refine and_congr_right' (Eq.congr_right ?_)
    induction members using List.reverseRecOn with
    | nil => rfl
    | append_singleton rest member ih =>
      rw [List.foldl_append, ih]
      simp only [List.foldl_cons, List.foldl_nil, List.filter_append, List.map_append, List.filter_singleton]
      by_cases gained : Shares (Gained tolerance) original shocked member
      · simp [gained]
      · by_cases lost : Shares (Lost tolerance) original shocked member
        · simp [gained, lost]
        · simp [gained, lost]
  · intro found member after
    simp only [bind_eq_ok, rationalShare_eq_shareOf]
    constructor
    · rintro ⟨before, ⟨inOriginal, rfl⟩, share, ⟨inShocked, rfl⟩, made⟩
      refine ⟨⟨inOriginal, inShocked⟩, Except.ok.inj (made.symm.trans ?_)⟩
      split <;> [skip; split] <;> rfl
    · rintro ⟨⟨inOriginal, inShocked⟩, rfl⟩
      refine ⟨_, ⟨inOriginal, rfl⟩, _, ⟨inShocked, rfl⟩, ?_⟩
      split <;> [skip; split] <;> rfl

theorem changedMembers_eq_ok {changed : List (ClaimantId × ℚ)} : changedMembers tolerance original shocked members = .ok changed ↔
    (∀ member ∈ members, member.id ∈ original ∧ member.id ∈ shocked) ∧
    changed = (members.filter (Shares (Changed tolerance) original shocked ·)).map fun member => (member.id, shockRatio original shocked member) := by
  unfold changedMembers
  rw [@foldlM_members original shocked members _ _ fun changed member =>
    if Shares (Changed tolerance) original shocked member then changed ++ [(member.id, shockRatio original shocked member)] else changed]
  · refine and_congr_right' (Eq.congr_right ?_)
    induction members using List.reverseRecOn with
    | nil => rfl
    | append_singleton rest member ih =>
      rw [List.foldl_append, ih]
      simp only [List.foldl_cons, List.foldl_nil, List.filter_append, List.map_append, List.filter_singleton]
      by_cases changed : Shares (Changed tolerance) original shocked member
      · simp [changed]
      · simp [changed]
  · intro changed member after
    simp only [bind_eq_ok, rationalShare_eq_shareOf]
    constructor
    · rintro ⟨before, ⟨inOriginal, rfl⟩, share, ⟨inShocked, rfl⟩, made⟩
      refine ⟨⟨inOriginal, inShocked⟩, Except.ok.inj (made.symm.trans ?_)⟩
      split <;> rfl
    · rintro ⟨⟨inOriginal, inShocked⟩, rfl⟩
      refine ⟨_, ⟨inOriginal, rfl⟩, _, ⟨inShocked, rfl⟩, ?_⟩
      split <;> rfl

theorem classEvennessViolation_none {priorityClass : String} {isLoss : Bool} :
    classEvennessViolation tolerance original shocked priorityClass members isLoss = .ok none ↔
      (∀ member ∈ members, member.id ∈ original ∧ member.id ∈ shocked) ∧
      ∀ first rest, members.filter (Shares (Changed tolerance) original shocked ·) = first :: rest →
        ∀ member ∈ rest, |shockRatio original shocked member - shockRatio original shocked first| ≤ tolerance := by
  unfold classEvennessViolation
  simp only [bind_eq_ok, changedMembers_eq_ok, and_assoc, exists_and_left, exists_eq_left]
  refine and_congr_right' ?_
  cases members.filter (Shares (Changed tolerance) original shocked ·) with
  | nil => simp [pure, Except.pure]
  | cons first rest =>
    cases rest with
    | nil => simp [pure, Except.pure]
    | cons second others => simp [pure, Except.pure, ite_eq_left_iff]

theorem gained_not_lost (tolerant : 0 ≤ tolerance) {before after : ℚ} (lost : Lost tolerance before after) : ¬Gained tolerance before after := by
  have slackened : 0 ≤ slack tolerance before after := by unfold slack; positivity
  unfold Lost at lost
  unfold Gained
  linarith

theorem finding_none {ε α : Type} {condition : Prop} [Decidable condition] {found : α} {rest : Except ε (Option α)} :
    (if condition then pure (some found) else rest) = .ok none ↔ ¬condition ∧ rest = .ok none := by
  split <;> simp_all [pure, Except.pure]

theorem checkClass_none (tolerant : 0 ≤ tolerance) {claimants : List Claimant} {priorityClass : String} {isLoss : Bool} :
    checkClass tolerance original shocked claimants isLoss priorityClass = .ok none ↔
      (2 ≤ (claimants.filter (·.priorityClass = priorityClass)).length →
        ClassPasses tolerance original shocked isLoss (claimants.filter (·.priorityClass = priorityClass))) := by
  unfold checkClass
  generalize claimants.filter (·.priorityClass = priorityClass) = members
  dsimp only
  split
  case isTrue few => exact iff_of_true rfl fun several => absurd few (not_lt.2 several)
  case isFalse several =>
    rw [forall_prop_of_true (not_lt.1 several), bind_eq_ok]
    simp only [movedMembers_eq_ok, and_assoc, exists_and_left, exists_eq_left, finding_none, classEvennessViolation_none, ne_eq, List.map_eq_nil_iff,
      List.filter_eq_nil_iff, decide_eq_true_eq, not_and, not_not]
    constructor
    · rintro ⟨listed, winners, losers, -, proportion⟩
      refine ⟨listed, fun member present against => ?_, proportion⟩
      cases isLoss with
      | true => exact winners rfl member present against
      | false => exact losers nofun member present (gained_not_lost tolerant against) against
    · rintro ⟨listed, follow, proportion⟩
      refine ⟨listed, ?_, ?_, listed, proportion⟩
      · rintro rfl member present
        exact follow member present
      · intro gain member present _
        rw [Bool.eq_false_iff.2 gain] at follow
        exact follow member present

theorem checkClasses_none {claimants : List Claimant} {isLoss : Bool} {priorityClasses : List String} :
    checkClasses tolerance original shocked claimants isLoss priorityClasses = .ok none ↔
      ∀ priorityClass ∈ priorityClasses, checkClass tolerance original shocked claimants isLoss priorityClass = .ok none := by
  induction priorityClasses with
  | nil => simp [checkClasses]
  | cons priorityClass rest ih =>
    rw [checkClasses, bind_eq_ok, List.forall_mem_cons, ← ih]
    constructor
    · rintro ⟨found, here, later⟩
      cases found with
      | none => exact ⟨here, later⟩
      | some finding => cases later
    · rintro ⟨here, later⟩
      exact ⟨none, here, later⟩

end

section

variable {tolerance : ℚ} {rule : ClassedRule} {claims : List RationalClaim} {estate : RationalEstate} {claimants : List Claimant}
  {original : RationalAllocation} {scales : List ℚ}

/-- A shock that passes: the rule can be evaluated, and each class that has members to compare passes. -/
def ShockPasses (tolerance : ℚ) (rule : ClassedRule) (claims : List RationalClaim) (estate : RationalEstate) (claimants : List Claimant)
    (original : RationalAllocation) (scale : ℚ) : Prop :=
  0 < estate.total * scale ∧ ∃ shocked, evaluateExactRule tolerance rule.toExactRule claims { estate with total := estate.total * scale } = .ok shocked ∧
    ∀ priorityClass ∈ rule.priorityClasses, 2 ≤ (claimants.filter (·.priorityClass = priorityClass)).length →
      ClassPasses tolerance original shocked (scale < 1) (claimants.filter (·.priorityClass = priorityClass))

theorem checkShocks_admissible (tolerant : 0 ≤ tolerance) {tested : Nat} :
    (∃ name total, checkShocks tolerance rule claims estate claimants original scales tested = .ok (.admissible name total)) ↔
      ∀ scale ∈ scales, tolerance ≤ |scale - 1| → ShockPasses tolerance rule claims estate claimants original scale := by
  induction scales generalizing tested with
  | nil => exact iff_of_true ⟨_, _, rfl⟩ (by simp)
  | cons scale rest ih =>
    rw [List.forall_mem_cons, checkShocks]
    split
    case isTrue identity => rw [ih, and_iff_right fun apart => absurd identity (not_lt.2 apart)]
    case isFalse apart =>
      rw [← @ih (tested + 1), forall_prop_of_true (not_lt.1 apart), ShockPasses]
      simp only [bind_eq_ok, RationalEstate.scale, guard_eq_ok, not_le, Except.ok.injEq]
      constructor
      · rintro ⟨name, total, shockedEstate, ⟨positive, rfl⟩, shocked, evaluated, found, classes, run⟩
        cases found with
        | some finding => cases run
        | none => exact ⟨⟨positive, shocked, evaluated, fun _ listed => (checkClass_none tolerant).1 (checkClasses_none.1 classes _ listed)⟩, name, total, run⟩
      · rintro ⟨⟨positive, shocked, evaluated, classes⟩, name, total, run⟩
        exact ⟨name, total, _, ⟨positive, rfl⟩, shocked, evaluated, none,
          checkClasses_none.2 fun _ listed => (checkClass_none tolerant).2 (classes _ listed), run⟩

theorem checkSolidarity_admissible (tolerant : 0 ≤ tolerance) :
    (∃ name tested, checkSolidarity tolerance rule claims estate claimants scales = .ok (.admissible name tested)) ↔
      ∃ original, evaluateExactRule tolerance rule.toExactRule claims estate = .ok original ∧
        ∀ scale ∈ scales, tolerance ≤ |scale - 1| → ShockPasses tolerance rule claims estate claimants original scale := by
  unfold checkSolidarity
  simp only [bind_eq_ok, ← @checkShocks_admissible tolerance rule claims estate claimants _ scales tolerant 0]
  grind

end

/-- The counterexample without its texts, which show the claimant, the delta and both shares. -/
structure StrengthCounterexample where
  claimantId : ClaimantId
  delta : ℚ
  before : ℚ
  after : ℚ
  originalClaims : List RationalClaim
  estate : RationalEstate
  originalAllocation : RationalAllocation
  strengthenedClaims : List RationalClaim
  strengthenedAllocation : RationalAllocation

inductive StrengthVerdict where
  | admissible (axiomName : String) (perturbationsTested : Nat)
  | rejected (axiomName : String) (counterexample : StrengthCounterexample)

def strengthen (claim : RationalClaim) (delta : ℚ) : Except LegitimacyError RationalClaim :=
  if claim.strength + delta ≤ 0 then .error (.invalidPositiveStrength (shown (claim.strength + delta)))
  else .ok { claim with strength := claim.strength + delta }

def strengthenings (claims : List RationalClaim) (deltas : List ℚ) : List ((RationalClaim × Nat) × ℚ) :=
  claims.zipIdx.flatMap fun entry => deltas.map fun delta => (entry, delta)

section

variable (tolerance : ℚ) (rule : ExactRule) (claims : List RationalClaim) (estate : RationalEstate) (inversion : Bool)

def monotonicityLabel : String := if inversion then "monotonicity (inverted)" else "monotonicity"

/-- What strengthening must not do to a share. -/
def StrengthViolation (before after : ℚ) : Prop := if inversion then Gained tolerance before after else Lost tolerance before after
deriving Decidable

def checkStrengthenings (original : RationalAllocation) : List ((RationalClaim × Nat) × ℚ) → Nat → Except LegitimacyError StrengthVerdict
  | [], tested => .ok (.admissible (monotonicityLabel inversion) tested)
  | ((claim, index), delta) :: rest, tested => do
    let stronger ← strengthen claim delta
    let strengthenedClaims := claims.set index stronger
    let strengthened ← evaluateExactRule tolerance rule strengthenedClaims estate
    let before ← rationalShare original claim.claimantId "monotonicity baseline share"
    let after ← rationalShare strengthened claim.claimantId "monotonicity strengthened share"
    if StrengthViolation tolerance inversion before after then
      return .rejected (monotonicityLabel inversion)
        ⟨claim.claimantId, delta, before, after, claims, estate, original, strengthenedClaims, strengthened⟩
    else checkStrengthenings original rest (tested + 1)

def checkMonotonicity (deltas : List ℚ) : Except LegitimacyError StrengthVerdict := do
  let original ← evaluateExactRule tolerance rule claims estate
  checkStrengthenings tolerance rule claims estate inversion original (strengthenings claims deltas) 0

end

section

variable {tolerance : ℚ} {rule : ExactRule} {claims : List RationalClaim} {estate : RationalEstate} {inversion : Bool} {original : RationalAllocation}

/-- A strengthening that passes: the rule can be evaluated, and the claimant's share does not move the wrong way. -/
def StrengtheningPasses (tolerance : ℚ) (rule : ExactRule) (claims : List RationalClaim) (estate : RationalEstate) (inversion : Bool)
    (original : RationalAllocation) (claim : RationalClaim) (index : Nat) (delta : ℚ) : Prop :=
  0 < claim.strength + delta ∧ ∃ strengthened,
    evaluateExactRule tolerance rule (claims.set index { claim with strength := claim.strength + delta }) estate = .ok strengthened ∧
    (claim.claimantId ∈ original ∧ claim.claimantId ∈ strengthened) ∧
    ¬StrengthViolation tolerance inversion (shareOf original claim.claimantId) (shareOf strengthened claim.claimantId)

theorem checkStrengthenings_admissible {perturbations : List ((RationalClaim × Nat) × ℚ)} {tested : Nat} :
    (∃ name total, checkStrengthenings tolerance rule claims estate inversion original perturbations tested = .ok (.admissible name total)) ↔
      ∀ perturbation ∈ perturbations,
        StrengtheningPasses tolerance rule claims estate inversion original perturbation.1.1 perturbation.1.2 perturbation.2 := by
  induction perturbations generalizing tested with
  | nil => exact iff_of_true ⟨_, _, rfl⟩ (by simp)
  | cons perturbation rest ih =>
    obtain ⟨⟨claim, index⟩, delta⟩ := perturbation
    rw [List.forall_mem_cons, ← @ih (tested + 1), checkStrengthenings, StrengtheningPasses]
    simp only [bind_eq_ok, strengthen, guard_eq_ok, not_le, rationalShare_eq_shareOf]
    constructor
    · rintro ⟨name, total, stronger, ⟨positive, made⟩, strengthened, evaluated, before, ⟨inOriginal, rfl⟩, after, ⟨inStrengthened, rfl⟩, run⟩
      obtain rfl := Except.ok.inj made
      split at run
      · cases run
      case isFalse harmless => exact ⟨⟨positive, strengthened, evaluated, ⟨inOriginal, inStrengthened⟩, harmless⟩, name, total, run⟩
    · rintro ⟨⟨positive, strengthened, evaluated, ⟨inOriginal, inStrengthened⟩, harmless⟩, name, total, run⟩
      refine ⟨name, total, _, ⟨positive, rfl⟩, strengthened, evaluated, _, ⟨inOriginal, rfl⟩, _, ⟨inStrengthened, rfl⟩, ?_⟩
      rw [if_neg harmless]
      exact run

theorem checkMonotonicity_admissible {deltas : List ℚ} :
    (∃ name tested, checkMonotonicity tolerance rule claims estate inversion deltas = .ok (.admissible name tested)) ↔
      ∃ original, evaluateExactRule tolerance rule claims estate = .ok original ∧
        ∀ index claim, claims[index]? = some claim → ∀ delta ∈ deltas,
          StrengtheningPasses tolerance rule claims estate inversion original claim index delta := by
  have listed : ∀ original, (∀ perturbation ∈ strengthenings claims deltas,
      StrengtheningPasses tolerance rule claims estate inversion original perturbation.1.1 perturbation.1.2 perturbation.2) ↔
      ∀ index claim, claims[index]? = some claim → ∀ delta ∈ deltas,
        StrengtheningPasses tolerance rule claims estate inversion original claim index delta := by
    intro original
    simp only [strengthenings, List.forall_mem_flatMap, List.forall_mem_map, Prod.forall, List.mem_zipIdx_iff_getElem?]
    exact forall_comm
  unfold checkMonotonicity
  simp only [bind_eq_ok, ← listed, ← @checkStrengthenings_admissible tolerance rule claims estate inversion _ _ 0]
  grind

end

end Legitimacy.Diagnostics
