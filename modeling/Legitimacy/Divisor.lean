import Mathlib
import Legitimacy.FloatOrder
import Legitimacy.HighestAverages
import Legitimacy.GraphChecks

namespace Legitimacy

open ExceptRun

def exactValue (value : Float) : ℚ :=
  let (negative, numerator, denominator) := FloatText.fraction value
  (if negative then -1 else 1) * (numerator / denominator)

def Claim.validate (claim : Claim) : Except LegitimacyError Unit :=
  if isBlank claim.claimantId then .error (.invalidClaimantId claim.claimantId)
  else if ¬claim.strength.value.isFinite ∨ claim.strength.value ≤ 0 then
    .error (.invalidClaimStrength claim.claimantId claim.strength.value)
  else .ok ()

def Claim.validateUnseen (seen : BTreeSet ClaimantId) : List Claim → Except LegitimacyError Unit
  | [] => .ok ()
  | claim :: rest => do
    claim.validate
    if seen.contains claim.claimantId then .error (.duplicateClaimantId claim.claimantId)
    else Claim.validateUnseen (seen.insert claim.claimantId) rest

def Claim.validateAll (claims : List Claim) : Except LegitimacyError Unit := Claim.validateUnseen ∅ claims

def Claim.exactStrength (claim : Claim) : ℚ := exactValue claim.strength.value

inductive DivisorFamily where
  | jefferson
  | webster

def quotient (strength : ℚ) (awarded : Nat) : DivisorFamily → ℚ
  | .jefferson => strength / (awarded + 1 : Nat)
  | .webster => strength / (2 * awarded + 1 : Nat)

def awardNext (claims : List Claim) (family : DivisorFamily) (awarded : List Nat) : List Nat :=
  let quotients := claims.zipWith (fun claim count => quotient claim.exactStrength count family) awarded
  match HighestAverages.scan (exactValue epsilon) quotients with
  | some (bestIndex, _) => awarded.modify bestIndex (· + 1)
  | none => awarded

def awardSeats (claims : List Claim) (family : DivisorFamily) : Nat → List Nat
  | 0 => List.replicate claims.length 0
  | seats + 1 => awardNext claims family (awardSeats claims family seats)

def sharesOf (claims : List Claim) (awarded : List Nat) : BTreeMap ClaimantId ℚ :=
  Std.ExtTreeMap.ofList (claims.zipWith (fun claim (count : Nat) => (claim.claimantId, (count : ℚ))) awarded) compare

def allocateHouse (claims : List Claim) (seats : Nat) (family : DivisorFamily) : Except LegitimacyError (BTreeMap ClaimantId ℚ) := do
  Claim.validateAll claims
  .ok (sharesOf claims (awardSeats claims family seats))

/-- `floor() as usize`: the cast saturates. -/
def houseSize (estate : Estate) : Nat := min ⌊exactValue estate.total.value⌋₊ (2 ^ 64 - 1)

def highestAveragesAllocate (claims : List Claim) (estate : Estate) (family : DivisorFamily) :
    Except LegitimacyError (BTreeMap ClaimantId ℚ) := allocateHouse claims (houseSize estate) family

def jeffersonAllocate (claims : List Claim) (estate : Estate) : Except LegitimacyError (BTreeMap ClaimantId ℚ) :=
  highestAveragesAllocate claims estate .jefferson

def websterAllocate (claims : List Claim) (estate : Estate) : Except LegitimacyError (BTreeMap ClaimantId ℚ) :=
  highestAveragesAllocate claims estate .webster

def DivisorFamily.allocate : DivisorFamily → List Claim → Estate → Except LegitimacyError (BTreeMap ClaimantId ℚ)
  | .jefferson => jeffersonAllocate
  | .webster => websterAllocate

/-- The shares are whole seats, `house` of them, and no claimant's next seat has a larger quotient than a seat that was awarded. -/
def Apportions (family : DivisorFamily) (claims : List Claim) (house : Nat) (shares : BTreeMap ClaimantId ℚ) : Prop :=
  ∃ seats : ClaimantId → Nat, (∀ claim ∈ claims, shares[claim.claimantId]? = some (seats claim.claimantId : ℚ)) ∧
    (claims.map fun claim => seats claim.claimantId).sum = house ∧
    ∀ claim ∈ claims, ∀ other ∈ claims, 0 < seats other.claimantId →
      quotient claim.exactStrength (seats claim.claimantId) family ≤ quotient other.exactStrength (seats other.claimantId - 1) family

def DivisorFamily.divisor : DivisorFamily → Nat → ℚ
  | .jefferson, awarded => (awarded + 1 : Nat)
  | .webster, awarded => (2 * awarded + 1 : Nat)

def exactStrengths (claims : List Claim) : List ℚ := claims.map Claim.exactStrength

theorem quotient_eq (strength : ℚ) (awarded : Nat) (family : DivisorFamily) :
    quotient strength awarded family = strength / family.divisor awarded := by
  cases family <;> rfl

theorem DivisorFamily.divisor_pos (family : DivisorFamily) (awarded : Nat) : 0 < family.divisor awarded := by
  cases family <;> exact Nat.cast_pos.2 (Nat.succ_pos _)

theorem DivisorFamily.divisor_mono (family : DivisorFamily) : Monotone family.divisor := by
  intro fewer more below
  cases family <;> exact Nat.cast_le.2 (by omega)

theorem epsilon_nonneg : 0 ≤ exactValue epsilon := by decide +kernel

theorem exactValue_nonneg {value : Float} (positive : ¬value ≤ 0) : 0 ≤ exactValue value := by
  unfold exactValue FloatText.fraction
  cases form : value.toModel.unpack with
  | finite sign mantissa exponent above =>
    cases sign with
    | positive =>
      have sign : (Float.Model.UnpackedFloat.Sign.positive == .negative) = false := rfl
      simp only [sign, Bool.false_eq_true, if_false, one_mul]
      exact div_nonneg (Nat.cast_nonneg _) (Nat.cast_nonneg _)
    | negative =>
      refine absurd ((FloatOrder.le_iff value 0).2 ⟨_, _, by rw [form, FloatOrder.rank], rfl, ?_⟩) positive
      exact .inl (by simp)
  | _ => simp

theorem exactStrengths_nonneg (claims : List Claim) : ∀ strength ∈ exactStrengths claims, 0 ≤ strength := by
  intro strength listed
  obtain ⟨claim, -, rfl⟩ := List.mem_map.1 listed
  exact exactValue_nonneg claim.strength.positive

theorem awardSeats_eq (claims : List Claim) (family : DivisorFamily) (seats : Nat) :
    awardSeats claims family seats = HighestAverages.award (exactValue epsilon) family.divisor (exactStrengths claims) seats := by
  induction seats with
  | zero => simp [awardSeats, HighestAverages.award, exactStrengths]
  | succ seats ih =>
    have same : claims.zipWith (fun claim count => quotient claim.exactStrength count family) (awardSeats claims family seats) =
        HighestAverages.quotients family.divisor (exactStrengths claims) (awardSeats claims family seats) := by
      simp only [HighestAverages.quotients, exactStrengths, List.zipWith_map_left, quotient_eq]
    rw [awardSeats, HighestAverages.award, ← ih, awardNext, HighestAverages.awardSeat, same]
    split <;> simp_all

variable {claims : List Claim}

theorem validateUnseen_eq_ok {seen : BTreeSet ClaimantId} :
    Claim.validateUnseen seen claims = .ok () ↔
      (∀ claim ∈ claims, isBlank claim.claimantId = false) ∧ (claims.map (·.claimantId)).Nodup ∧
        ∀ claim ∈ claims, claim.claimantId ∉ seen := by
  induction claims generalizing seen with
  | nil => simp [Claim.validateUnseen]
  | cons claim rest ih =>
    have strong : ¬(¬claim.strength.value.isFinite ∨ claim.strength.value ≤ 0) := by
      rintro (infinite | below)
      · exact infinite claim.strength.finite
      · exact claim.strength.positive below
    have validates : claim.validate = .ok () ↔ isBlank claim.claimantId = false := by
      unfold Claim.validate
      rw [guard_eq_ok, if_neg strong]
      simp
    unfold Claim.validateUnseen
    rw [bind_eq_ok]
    simp only [guard_eq_ok, ih, List.map_cons, List.nodup_cons, List.forall_mem_cons, Std.ExtTreeSet.mem_insert,
      Std.ExtTreeSet.contains_iff_mem, List.mem_map, validates]
    constructor
    · rintro ⟨⟨⟩, named, fresh, restNamed, distinct, unseen⟩
      refine ⟨⟨named, restNamed⟩, ⟨?_, distinct⟩, fresh, ?_⟩
      · rintro ⟨other, member, same⟩
        exact unseen other member (Or.inl (by simp [same]))
      · intro other member inSeen
        exact unseen other member (Or.inr inSeen)
    · rintro ⟨⟨named, restNamed⟩, ⟨outside, distinct⟩, fresh, unseen⟩
      refine ⟨(), named, fresh, restNamed, distinct, ?_⟩
      rintro other member (same | inSeen)
      · exact outside ⟨other, member, (Std.LawfulEqCmp.eq_of_compare same).symm⟩
      · exact unseen other member inSeen

theorem validateAll_eq_ok (distinct : (claims.map (·.claimantId)).Nodup) :
    Claim.validateAll claims = .ok () ↔ ∀ claim ∈ claims, isBlank claim.claimantId = false := by
  unfold Claim.validateAll
  rw [validateUnseen_eq_ok]
  simp [distinct]

theorem exists_seats (distinct : (claims.map (·.claimantId)).Nodup) {awarded : List Nat}
    (sized : awarded.length = claims.length) : ∃ seats : ClaimantId → Nat, awarded = claims.map fun claim => seats claim.claimantId := by
  induction claims generalizing awarded with
  | nil => exact ⟨fun _ => 0, List.length_eq_zero_iff.1 sized⟩
  | cons claim rest ih =>
    obtain ⟨count, counts, rfl⟩ := List.exists_cons_of_length_eq_add_one sized
    obtain ⟨outside, later⟩ := List.nodup_cons.1 distinct
    obtain ⟨seats, same⟩ := ih later (Nat.succ.inj sized)
    refine ⟨Function.update seats claim.claimantId count, ?_⟩
    rw [List.map_cons, Function.update_self, same]
    refine congrArg _ (List.map_congr_left fun other listed => ?_)
    rw [Function.update_of_ne fun equal => outside (List.mem_map.2 ⟨other, listed, equal⟩)]

theorem lookup_sharesOf (distinct : (claims.map (·.claimantId)).Nodup) (seats : ClaimantId → Nat) {claim : Claim}
    (listed : claim ∈ claims) :
    (sharesOf claims (claims.map fun claim => seats claim.claimantId))[claim.claimantId]? = some (seats claim.claimantId : ℚ) := by
  have entries : claims.zipWith (fun claim (count : Nat) => (claim.claimantId, (count : ℚ))) (claims.map fun claim => seats claim.claimantId) =
      claims.map fun claim => (claim.claimantId, (seats claim.claimantId : ℚ)) := by
    rw [List.zipWith_map_right, List.zipWith_self]
  have apart : (claims.map fun claim => (claim.claimantId, (seats claim.claimantId : ℚ))).Pairwise
      fun left right => ¬compare left.1 right.1 = .eq := by
    rw [List.pairwise_map]
    exact (List.pairwise_map.1 distinct).imp fun differ same => differ (Std.LawfulEqCmp.eq_of_compare same)
  unfold sharesOf
  rw [entries]
  exact Std.ExtTreeMap.getElem?_ofList_of_mem Std.ReflCmp.compare_self apart (List.mem_map.2 ⟨claim, listed, rfl⟩)

theorem minMax_map_iff {family : DivisorFamily} {seats : ClaimantId → Nat} :
    HighestAverages.MinMax family.divisor (exactStrengths claims) (claims.map fun claim => seats claim.claimantId) ↔
      ∀ claim ∈ claims, ∀ other ∈ claims, 0 < seats other.claimantId →
        quotient claim.exactStrength (seats claim.claimantId) family ≤
          quotient other.exactStrength (seats other.claimantId - 1) family := by
  constructor
  · intro minMax claim listed other otherListed seated
    obtain ⟨i, atClaim⟩ := List.getElem?_of_mem listed
    obtain ⟨j, atOther⟩ := List.getElem?_of_mem otherListed
    rw [quotient_eq, quotient_eq]
    refine minMax i j _ _ _ _ ?_ ?_ ?_ ?_
    · rw [exactStrengths, List.getElem?_map, atClaim, Option.map_some]
    · rw [List.getElem?_map, atClaim, Option.map_some]
    · rw [exactStrengths, List.getElem?_map, atOther, Option.map_some]
    · rw [List.getElem?_map, atOther, Option.map_some, Nat.sub_add_cancel seated]
  · intro every i j strength other count awarded atStrength atCount atOther atAwarded
    rw [exactStrengths, List.getElem?_map] at atStrength atOther
    rw [List.getElem?_map] at atCount atAwarded
    obtain ⟨claim, atClaim, rfl⟩ := Option.map_eq_some_iff.1 atStrength
    obtain ⟨rival, atRival, rfl⟩ := Option.map_eq_some_iff.1 atOther
    rw [atClaim, Option.map_some, Option.some.injEq] at atCount
    rw [atRival, Option.map_some, Option.some.injEq] at atAwarded
    have holds := every claim (List.mem_of_getElem? atClaim) rival (List.mem_of_getElem? atRival) (by omega)
    rw [quotient_eq, quotient_eq, atCount, atAwarded, Nat.add_sub_cancel] at holds
    exact holds

theorem apportions_sharesOf (distinct : (claims.map (·.claimantId)).Nodup) {family : DivisorFamily} {house : Nat}
    {awarded : List Nat} (sized : awarded.length = claims.length) : Apportions family claims house (sharesOf claims awarded) ↔
      awarded.sum = house ∧ HighestAverages.MinMax family.divisor (exactStrengths claims) awarded := by
  obtain ⟨seats, rfl⟩ := exists_seats distinct sized
  rw [minMax_map_iff]
  constructor
  · rintro ⟨others, shares, total, minMax⟩
    have same : ∀ claim ∈ claims, others claim.claimantId = seats claim.claimantId := by
      intro claim listed
      have equal := (shares claim listed).symm.trans (lookup_sharesOf distinct seats listed)
      exact Nat.cast_injective (Option.some.inj equal)
    refine ⟨?_, fun claim listed other otherListed seated => ?_⟩
    · rw [← total, List.map_congr_left same]
    · rw [← same claim listed, ← same other otherListed]
      exact minMax claim listed other otherListed (by rw [same other otherListed]; exact seated)
  · rintro ⟨total, minMax⟩
    exact ⟨seats, fun claim listed => lookup_sharesOf distinct seats listed, total, minMax⟩

theorem length_awardSeats (claims : List Claim) (family : DivisorFamily) (seats : Nat) :
    (awardSeats claims family seats).length = claims.length := by
  rw [awardSeats_eq, HighestAverages.length_award, exactStrengths, List.length_map]

theorem sum_awardSeats (nonempty : claims ≠ []) (family : DivisorFamily) (seats : Nat) :
    (awardSeats claims family seats).sum = seats := by
  rw [awardSeats_eq]
  exact HighestAverages.sum_award epsilon_nonneg (fun none => nonempty (List.map_eq_nil_iff.1 none)) seats

theorem allocateHouse_apportions (nonempty : claims ≠ []) (distinct : (claims.map (·.claimantId)).Nodup)
    (family : DivisorFamily) (seats house : Nat) :
    (∃ shares, allocateHouse claims seats family = .ok shares ∧ Apportions family claims house shares) ↔
      (∀ claim ∈ claims, isBlank claim.claimantId = false) ∧ seats = house ∧
        HighestAverages.MinMax family.divisor (exactStrengths claims) (awardSeats claims family seats) := by
  have total : seats = house ↔ (awardSeats claims family seats).sum = house := by rw [sum_awardSeats nonempty]
  unfold allocateHouse
  rw [← validateAll_eq_ok distinct, total]
  constructor
  · rintro ⟨shares, accepted, right⟩
    obtain ⟨⟨⟩, valid, returned⟩ := bind_eq_ok.1 accepted
    rw [← Except.ok.inj returned, apportions_sharesOf distinct (length_awardSeats claims family seats)] at right
    exact ⟨valid, right⟩
  · rintro ⟨valid, right⟩
    refine ⟨_, bind_eq_ok.2 ⟨(), valid, rfl⟩, ?_⟩
    rw [apportions_sharesOf distinct (length_awardSeats claims family seats)]
    exact right

/-- The divisor rules are right in a house and all smaller ones exactly if no claimant is blank, the house fits its counter and the
tolerance of the scan decides no round. -/
theorem divisor_apportionment (family : DivisorFamily) (claims : List Claim) (nonempty : claims ≠ [])
    (distinct : (claims.map (·.claimantId)).Nodup) (estate : Estate) :
    ((∃ shares, family.allocate claims estate = .ok shares ∧ Apportions family claims ⌊exactValue estate.total.value⌋₊ shares) ∧
      ∀ smaller < ⌊exactValue estate.total.value⌋₊, ∃ shares, allocateHouse claims smaller family = .ok shares ∧
        Apportions family claims smaller shares) ↔
    (∀ claim ∈ claims, isBlank claim.claimantId = false) ∧ ⌊exactValue estate.total.value⌋₊ < 2 ^ 64 ∧
      HighestAverages.Undisturbed (exactValue epsilon) family.divisor (exactStrengths claims) ⌊exactValue estate.total.value⌋₊ := by
  have allocates : family.allocate claims estate = allocateHouse claims (houseSize estate) family := by cases family <;> rfl
  have correct := HighestAverages.minMax_iff epsilon_nonneg family.divisor_pos family.divisor_mono (exactStrengths_nonneg claims)
    (fun none => nonempty (List.map_eq_nil_iff.1 none)) ⌊exactValue estate.total.value⌋₊
  simp only [← awardSeats_eq] at correct
  rw [allocates, allocateHouse_apportions nonempty distinct, ← correct]
  simp only [allocateHouse_apportions nonempty distinct]
  unfold houseSize
  constructor
  · rintro ⟨⟨named, fits, minMax⟩, smaller⟩
    rw [fits] at minMax
    refine ⟨named, by omega, fun seats within => ?_⟩
    rcases within.lt_or_eq with below | same
    · exact (smaller seats below).2.2
    · rw [same]
      exact minMax
  · rintro ⟨named, fits, minMax⟩
    have whole : min ⌊exactValue estate.total.value⌋₊ (2 ^ 64 - 1) = ⌊exactValue estate.total.value⌋₊ := by omega
    rw [whole]
    exact ⟨⟨named, rfl, minMax _ le_rfl⟩, fun smaller below => ⟨named, trivial, minMax smaller below.le⟩⟩

def namedClaim (claimantId : ClaimantId) (strength : PositiveStrength) : Claim := ⟨claimantId, strength, ∅⟩

theorem one_finite : Float.isFinite 1 = true := by decide +kernel

theorem one_positive : ¬(1 : Float) ≤ 0 := by decide +kernel

def houseClaims : List Claim := [namedClaim "alpha" ⟨60, by decide +kernel, by decide +kernel⟩,
  namedClaim "bravo" ⟨30, by decide +kernel, by decide +kernel⟩, namedClaim "charlie" ⟨10, by decide +kernel, by decide +kernel⟩]

theorem divisor_apportionment_house :
    ∃ shares, jeffersonAllocate houseClaims ⟨⟨5, by decide +kernel, by decide +kernel⟩, "seats"⟩ = .ok shares ∧
      Apportions .jefferson houseClaims ⌊exactValue 5⌋₊ shares := by
  have undisturbed : HighestAverages.Undisturbed (exactValue epsilon) DivisorFamily.jefferson.divisor (exactStrengths houseClaims)
      ⌊exactValue 5⌋₊ := by
    unfold HighestAverages.Undisturbed
    decide +kernel
  exact ((divisor_apportionment .jefferson houseClaims (by decide) (by decide +kernel)
    ⟨⟨5, by decide +kernel, by decide +kernel⟩, "seats"⟩).2 ⟨by decide +kernel, by decide +kernel, undisturbed⟩).1

def smallClaims : List Claim := [namedClaim "alpha" ⟨1e-10, by decide +kernel, by decide +kernel⟩,
  namedClaim "bravo" ⟨2e-10, by decide +kernel, by decide +kernel⟩]

/-- Strengths 1e-10 and 2e-10: the only seat goes to the weaker claimant. -/
theorem small_strengths_misapportioned :
    ¬∃ shares, jeffersonAllocate smallClaims ⟨⟨1, by decide +kernel, by decide +kernel⟩, "seats"⟩ = .ok shares ∧
      Apportions .jefferson smallClaims ⌊exactValue 1⌋₊ shares := by
  intro right
  obtain ⟨-, -, minMax⟩ := (allocateHouse_apportions (by decide) (by decide +kernel) .jefferson _ _).1 right
  have holds := minMax 1 0 (exactValue 2e-10) (exactValue 1e-10) 0 0 (by decide +kernel) (by decide +kernel) (by decide +kernel)
    (by decide +kernel)
  exact absurd holds (by decide +kernel)

end Legitimacy
