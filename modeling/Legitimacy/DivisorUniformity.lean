import Legitimacy.Divisor
import Legitimacy.UniformAverages

namespace Legitimacy

open ExceptRun HighestAverages

def seatsById (claims : List Claim) (awarded : List Nat) (claimantId : ClaimantId) : Nat :=
  awarded.getD ((claims.map (·.claimantId)).idxOf claimantId) 0

/-- Whoever is removed with the seats awarded to them, the others have their seats in what is left of the house. -/
def KeepsSeats (family : DivisorFamily) (claims : List Claim) (house : Nat) : Prop :=
  ∃ seats : ClaimantId → Nat,
    (∃ shares, allocateHouse claims house family = .ok shares ∧
      ∀ claim ∈ claims, shares[claim.claimantId]? = some (seats claim.claimantId : ℚ)) ∧
    ∀ keep : Claim → Bool, ∃ reduced,
      allocateHouse (claims.filter keep) (house - ((claims.filter (!keep ·)).map fun claim => seats claim.claimantId).sum) family =
        .ok reduced ∧
      ∀ claim ∈ claims.filter keep, reduced[claim.claimantId]? = some (seats claim.claimantId : ℚ)

def roundSeats (claims : List Claim) (family : DivisorFamily) (round : Nat) (claim : Claim) : Nat :=
  seatsById claims (awardSeats claims family round) claim.claimantId

section

variable {claims : List Claim} (distinct : (claims.map (·.claimantId)).Nodup)

include distinct

theorem map_seatsById {awarded : List Nat} (sized : awarded.length = claims.length) :
    claims.map (fun claim => seatsById claims awarded claim.claimantId) = awarded := by
  refine List.ext_getElem (by rw [List.length_map, sized]) fun place inside inAwarded => ?_
  rw [List.length_map] at inside
  have position := distinct.idxOf_getElem place (by rwa [List.length_map])
  rw [List.getElem_map] at position
  rw [List.getElem_map, seatsById, position, List.getD_eq_getElem _ _ inAwarded]

theorem sharesOf_seats {awarded : List Nat} (sized : awarded.length = claims.length) {seats : ClaimantId → Nat} :
    (∀ claim ∈ claims, (sharesOf claims awarded)[claim.claimantId]? = some (seats claim.claimantId : ℚ)) ↔
      claims.map (fun claim => seats claim.claimantId) = awarded := by
  obtain ⟨counts, rfl⟩ := exists_seats distinct sized
  rw [List.map_inj_left]
  constructor
  · intro shares claim listed
    have equal := (shares claim listed).symm.trans (lookup_sharesOf distinct counts listed)
    exact Nat.cast_injective (Option.some.inj equal)
  · intro same claim listed
    rw [lookup_sharesOf distinct counts listed, same claim listed]

theorem allocateHouse_seats (family : DivisorFamily) (house : Nat) (seats : ClaimantId → Nat) :
    (∃ shares, allocateHouse claims house family = .ok shares ∧
      ∀ claim ∈ claims, shares[claim.claimantId]? = some (seats claim.claimantId : ℚ)) ↔
    (∀ claim ∈ claims, isBlank claim.claimantId = false) ∧
      claims.map (fun claim => seats claim.claimantId) = awardSeats claims family house := by
  rw [← validateAll_eq_ok distinct, ← sharesOf_seats distinct (length_awardSeats claims family house)]
  unfold allocateHouse
  constructor
  · rintro ⟨shares, accepted, carried⟩
    obtain ⟨⟨⟩, valid, returned⟩ := bind_eq_ok.1 accepted
    obtain rfl := Except.ok.inj returned
    exact ⟨valid, carried⟩
  · rintro ⟨valid, carried⟩
    exact ⟨_, bind_eq_ok.2 ⟨(), valid, rfl⟩, carried⟩

omit distinct in
theorem sum_kept (keep : Claim → Bool) (seats : Claim → Nat) :
    ((claims.filter keep).map seats).sum + ((claims.filter (!keep ·)).map seats).sum = (claims.map seats).sum := by
  induction claims with
  | nil => rfl
  | cons claim rest ih =>
    cases kept : keep claim with
    | true =>
      rw [List.filter_cons_of_pos kept, List.filter_cons_of_neg (by simp [kept]), List.map_cons, List.map_cons, List.sum_cons, List.sum_cons]
      omega
    | false =>
      rw [List.filter_cons_of_neg (by simp [kept]), List.filter_cons_of_pos (by simp [kept]), List.map_cons, List.map_cons, List.sum_cons,
        List.sum_cons]
      omega

theorem awardSeats_kept (family : DivisorFamily) (house : Nat) (keep : Claim → Bool) :
    awardSeats (claims.filter keep) family (house - ((claims.filter (!keep ·)).map (roundSeats claims family house)).sum) =
      award (exactValue epsilon) family.divisor ((claims.filter keep).map Claim.exactStrength)
        ((claims.filter keep).map (roundSeats claims family house)).sum := by
  rw [awardSeats_eq]
  by_cases empty : claims = []
  · have none (seats : Nat) : (award (exactValue epsilon) family.divisor ((claims.filter keep).map Claim.exactStrength) seats) = [] := by
      rw [← List.length_eq_zero_iff, length_award, List.length_map, empty]
      rfl
    rw [none, exactStrengths, none]
  · have atHouse : claims.map (roundSeats claims family house) = awardSeats claims family house :=
      map_seatsById distinct (length_awardSeats claims family house)
    have total := @sum_kept claims keep (roundSeats claims family house)
    rw [atHouse, sum_awardSeats empty] at total
    rw [show house - ((claims.filter (!keep ·)).map (roundSeats claims family house)).sum =
      ((claims.filter keep).map (roundSeats claims family house)).sum by omega]
    rfl

theorem keepsSeats_iff (family : DivisorFamily) (house : Nat) : KeepsSeats family claims house ↔
    (∀ claim ∈ claims, isBlank claim.claimantId = false) ∧
      Uniform (exactValue epsilon) family.divisor Claim.exactStrength claims (roundSeats claims family house) := by
  have atHouse : claims.map (roundSeats claims family house) = awardSeats claims family house :=
    map_seatsById distinct (length_awardSeats claims family house)
  have kept (keep : Claim → Bool) : ((claims.filter keep).map (·.claimantId)).Nodup := distinct.sublist (List.filter_sublist.map _)
  unfold KeepsSeats
  simp only [allocateHouse_seats distinct, allocateHouse_seats (kept _)]
  constructor
  · rintro ⟨seats, ⟨named, whole⟩, others⟩
    have same : ∀ claim ∈ claims, seats claim.claimantId = roundSeats claims family house claim :=
      List.map_inj_left.1 (whole.trans atHouse.symm)
    have part (keep : Claim → Bool) : (claims.filter keep).map (fun claim => seats claim.claimantId) =
        (claims.filter keep).map (roundSeats claims family house) :=
      List.map_congr_left fun claim member => same claim (List.mem_filter.1 member).1
    refine ⟨named, fun keep => ?_⟩
    have counts := (others keep).2
    rw [part, part, awardSeats_kept distinct] at counts
    exact counts.symm
  · rintro ⟨named, uniform⟩
    refine ⟨seatsById claims (awardSeats claims family house), ⟨named, atHouse⟩, fun keep => ?_⟩
    refine ⟨fun claim member => named claim (List.mem_filter.1 member).1, ?_⟩
    exact (uniform keep).symm.trans (awardSeats_kept distinct family house keep).symm

/-- In a house and all smaller ones the claimants keep their seats exactly if none is blank and in every round of the seat loop some
claimant leads: its quotient is above those in front of it by more than the tolerance, and below none behind it by more. -/
theorem divisor_uniform (family : DivisorFamily) (house : Nat) : (∀ smaller ≤ house, KeepsSeats family claims smaller) ↔
    (∀ claim ∈ claims, isBlank claim.claimantId = false) ∧
      ∀ round < house, Decisive (exactValue epsilon) family.divisor Claim.exactStrength claims (roundSeats claims family round) := by
  classical
  have apart : claims.Nodup := List.Nodup.of_map _ distinct
  have same (round : Nat) : ∀ claim ∈ claims,
      seatsOf (exactValue epsilon) family.divisor Claim.exactStrength claims round claim = roundSeats claims family round claim := by
    have loop := (awardSeats_eq claims family round).symm
    exact List.map_inj_left.1 ((map_seatsOf _ _ _ apart round).trans
      (loop.trans (map_seatsById distinct (length_awardSeats claims family round)).symm))
  have library := @uniform_iff _ _ _ _ _ _ family.divisor Claim.exactStrength claims _ epsilon_nonneg apart house
  simp only [keepsSeats_iff distinct]
  constructor
  · intro keeps
    refine ⟨(keeps 0 (Nat.zero_le _)).1, fun round below => ?_⟩
    have decisive := library.1 fun smaller within => (keeps smaller within).2.congr fun claim member => (same smaller claim member).symm
    exact (decisive round below).congr (same round)
  · rintro ⟨named, decisive⟩ smaller within
    have uniform := library.2 fun round below => (decisive round below).congr fun claim member => (same round claim member).symm
    exact ⟨named, (uniform smaller within).congr (same smaller)⟩

end

theorem divisor_uniform_seat : KeepsSeats .webster houseClaims 1 := by
  refine (divisor_uniform (by decide +kernel) .webster 1).2 ⟨by decide +kernel, fun round below => ?_⟩ 1 le_rfl
  obtain rfl := Nat.lt_one_iff.1 below
  exact .inr ⟨_, [], _, rfl, nofun, by decide +kernel⟩

def closeClaims : List Claim := [namedClaim "alpha" ⟨1, one_finite, one_positive⟩,
  namedClaim "bravo" ⟨1.0000000006, by decide +kernel, by decide +kernel⟩,
  namedClaim "charlie" ⟨1.0000000012, by decide +kernel, by decide +kernel⟩]

/-- Strengths 1, 1.0000000006 and 1.0000000012: the only seat goes to the last claimant, and without the first to the second. -/
theorem close_strengths_change_seats : ¬KeepsSeats .jefferson closeClaims 1 := by
  intro keeps
  have uniform := ((keepsSeats_iff (by decide +kernel) .jefferson 1).1 keeps).2 fun claim => claim.claimantId != "alpha"
  exact absurd uniform (by decide +kernel)

end Legitimacy
