import Legitimacy.DecidedClaimants
import Legitimacy.Trajectory.Composition

namespace Legitimacy.Trajectory

open ExceptRun

section

variable (regexes : RegexEngine) (graph : GovernanceGraph)

/-- The claims are evaluated together, and each of them is permitted. -/
def Green (claims : List GovernanceClaim) : Prop :=
  ∃ decisions, traverseFinalDecisions regexes graph claims = .ok decisions ∧ ∀ claim ∈ claims, decisions[claim.claimantId]? = some .permit

/-- A claim is denied, and every claim before it is permitted. -/
def DeniedFirst (decisions : BTreeMap ClaimantId Decision) (claims : List GovernanceClaim) (position : Nat) : Prop :=
  ∃ claim, claims[position]? = some claim ∧ decisions[claim.claimantId]? = some .deny ∧
    ∀ earlier ∈ claims.take position, decisions[earlier.claimantId]? = some .permit

/-- The claims are evaluated together, and the first of them that is not permitted is denied. -/
def Violation (claims : List GovernanceClaim) (position : Nat) : Prop :=
  ∃ decisions, traverseFinalDecisions regexes graph claims = .ok decisions ∧ DeniedFirst decisions claims position

end

section

variable {regexes : RegexEngine} {graph : GovernanceGraph} {claims : List GovernanceClaim} {decisions : BTreeMap ClaimantId Decision}

theorem firstDenied_eq_none {index : Nat} :
    firstDenied decisions index claims = .ok none ↔ ∀ claim ∈ claims, decisions[claim.claimantId]? = some .permit := by
  induction claims generalizing index with
  | nil => simp [firstDenied]
  | cons claim rest ih =>
    rw [firstDenied, bind_eq_ok, List.forall_mem_cons]
    constructor
    · rintro ⟨decision, found, after⟩
      cases decision with
      | permit => exact ⟨elim_eq_ok.1 found, ih.1 after⟩
      | deny => cases after
      | escalate => cases after
    · rintro ⟨found, later⟩
      exact ⟨.permit, elim_eq_ok.2 found, ih.2 later⟩

theorem firstDenied_eq_some {index denied : Nat} : firstDenied decisions index claims = .ok (some denied) ↔
    ∃ position, denied = index + position ∧ DeniedFirst decisions claims position := by
  induction claims generalizing index with
  | nil => simp [firstDenied, DeniedFirst]
  | cons claim rest ih =>
    rw [firstDenied, bind_eq_ok]
    constructor
    · rintro ⟨decision, found, after⟩
      have here := elim_eq_ok.1 found
      cases decision with
      | permit =>
        obtain ⟨position, rfl, other, atPosition, denied, earlier⟩ := ih.1 after
        exact ⟨position + 1, by omega, other, atPosition, denied, List.forall_mem_cons.2 ⟨here, earlier⟩⟩
      | deny =>
        obtain rfl : index = denied := Option.some.inj (Except.ok.inj after)
        exact ⟨0, rfl, claim, rfl, here, by simp⟩
      | escalate => cases after
    · rintro ⟨position, rfl, other, atPosition, denied, earlier⟩
      cases position with
      | zero =>
        obtain rfl : claim = other := Option.some.inj atPosition
        exact ⟨.deny, elim_eq_ok.2 denied, rfl⟩
      | succ position =>
        obtain ⟨here, before⟩ := List.forall_mem_cons.1 earlier
        exact ⟨.permit, elim_eq_ok.2 here, ih.2 ⟨position, by omega, other, atPosition, denied, before⟩⟩

theorem observePrefix_eq_none : observePrefix regexes graph claims = .ok none ↔ Green regexes graph claims := by
  unfold observePrefix leastDeniedOccurrence
  constructor
  · intro run
    obtain ⟨decisions, traversed, run⟩ := bind_eq_ok.1 run
    obtain ⟨denied, searched, run⟩ := bind_eq_ok.1 run
    cases denied with
    | some index => cases run
    | none => exact ⟨decisions, mapError_eq_ok.1 traversed, firstDenied_eq_none.1 searched⟩
  · rintro ⟨decisions, traversed, permitted⟩
    -- the number of the decisions is checked last, and it always fits
    have size := size_of_decided traversed fun claim member => mem_iff_lookup.2 ⟨.permit, permitted claim member⟩
    refine bind_eq_ok.2 ⟨decisions, mapError_eq_ok.2 traversed, bind_eq_ok.2 ⟨none, firstDenied_eq_none.2 permitted, ?_⟩⟩
    exact guard_eq_ok.2 ⟨not_not.2 size, rfl⟩

theorem observePrefix_eq_some {denied : Nat} :
    observePrefix regexes graph claims = .ok (some denied) ↔ Violation regexes graph claims denied := by
  unfold observePrefix leastDeniedOccurrence
  constructor
  · intro run
    obtain ⟨decisions, traversed, run⟩ := bind_eq_ok.1 run
    obtain ⟨found, searched, run⟩ := bind_eq_ok.1 run
    cases found with
    | none =>
      obtain ⟨-, made⟩ := guard_eq_ok.1 run
      cases made
    | some index =>
      obtain rfl : index = denied := Option.some.inj (Except.ok.inj run)
      obtain ⟨position, rfl, first⟩ := firstDenied_eq_some.1 searched
      rw [Nat.zero_add]
      exact ⟨decisions, mapError_eq_ok.1 traversed, first⟩
  · rintro ⟨decisions, traversed, first⟩
    refine bind_eq_ok.2 ⟨decisions, mapError_eq_ok.2 traversed, bind_eq_ok.2 ⟨some denied, ?_, rfl⟩⟩
    exact firstDenied_eq_some.2 ⟨denied, (Nat.zero_add denied).symm, first⟩

theorem Green.not_violation (green : Green regexes graph claims) {position : Nat} : ¬Violation regexes graph claims position := by
  intro violation
  have same := (observePrefix_eq_none.2 green).symm.trans (observePrefix_eq_some.2 violation)
  cases same

theorem decideSingleton_eq_ok {claim : GovernanceClaim} {decision : BinaryPolicyDecision} :
    decideSingleton regexes graph claim = .ok decision ↔
      (decision = .permit ∧ Green regexes graph [claim]) ∨ (decision = .deny ∧ Violation regexes graph [claim] 0) := by
  unfold decideSingleton
  constructor
  · intro run
    obtain ⟨decisions, traversed, run⟩ := bind_eq_ok.1 run
    obtain ⟨made, found, converted⟩ := bind_eq_ok.1 run
    have traversed := mapError_eq_ok.1 traversed
    have found := elim_eq_ok.1 found
    cases made with
    | permit => exact .inl ⟨(Except.ok.inj converted).symm, decisions, traversed, by simpa using found⟩
    | deny => exact .inr ⟨(Except.ok.inj converted).symm, decisions, traversed, claim, rfl, found, by simp⟩
    | escalate => cases converted
  · rintro (⟨rfl, decisions, traversed, permitted⟩ | ⟨rfl, decisions, traversed, other, atFirst, denied, -⟩)
    · have found := permitted claim List.mem_cons_self
      exact bind_eq_ok.2 ⟨decisions, mapError_eq_ok.2 traversed, bind_eq_ok.2 ⟨.permit, elim_eq_ok.2 found, rfl⟩⟩
    · obtain rfl : claim = other := Option.some.inj atFirst
      exact bind_eq_ok.2 ⟨decisions, mapError_eq_ok.2 traversed, bind_eq_ok.2 ⟨.deny, elim_eq_ok.2 denied, rfl⟩⟩

end

section

variable (regexes : RegexEngine) (graph : GovernanceGraph) (claims : List GovernanceClaim) (receipts : List EventPolicyReceipt)

/-- One receipt for each claim, with its position and the decision on this claim alone. -/
structure Receipted : Prop where
  decided : List.Forall₂ (fun claim receipt => decideSingleton regexes graph claim = .ok receipt.singletonDecision) claims receipts
  numbered : ∀ (position : Nat) (receipt : EventPolicyReceipt), receipts[position]? = some receipt → receipt.claim.occurrenceIndex = position

/-- The receipts of the prefixes up to a length, all of them green. -/
def greenPrefixes (count : Nat) : List ObservedPrefixReceipt := (List.range' 1 count).map fun length => ⟨length, .permit, none⟩

/-- What the classification of some occurrences has to be. -/
inductive TemporalVerdict : TemporalCompositionResult → Prop
  | localFailure {position : Nat} {claim : GovernanceClaim} {receipt : EventPolicyReceipt} (atClaim : claims[position]? = some claim)
      (atReceipt : receipts[position]? = some receipt) (denied : Violation regexes graph [claim] 0)
      (earlier : ∀ other ∈ claims.take position, Green regexes graph [other]) :
      TemporalVerdict ⟨.localFailure position receipt.claim.eventId .deny, []⟩
  | safe (alone : ∀ claim ∈ claims, Green regexes graph [claim])
      (green : ∀ length, 0 < length → length ≤ claims.length → Green regexes graph (claims.take length)) :
      TemporalVerdict ⟨.allSingletonsPermitAndSafe claims.length, greenPrefixes claims.length⟩
  | violation {transition denied : Nat} {receipt : EventPolicyReceipt} (alone : ∀ claim ∈ claims, Green regexes graph [claim])
      (inside : transition < claims.length)
      (green : ∀ length, 0 < length → length ≤ transition → Green regexes graph (claims.take length))
      (violated : Violation regexes graph (claims.take (transition + 1)) denied) (atReceipt : receipts[denied]? = some receipt) :
      TemporalVerdict ⟨.allSingletonsPermitAndEarliestViolation transition (transition + 1) denied receipt.claim.eventId .deny,
        greenPrefixes transition ++ [⟨transition + 1, .deny, some denied⟩]⟩

end

section

variable {regexes : RegexEngine} {graph : GovernanceGraph} {claims : List GovernanceClaim} {receipts : List EventPolicyReceipt}

theorem greenPrefixes_succ (count : Nat) : greenPrefixes (count + 1) = greenPrefixes count ++ [⟨count + 1, .permit, none⟩] := by
  simp [greenPrefixes, List.range'_concat, Nat.add_comm]

/-- The loop from a length on, where the shorter prefixes are green. -/
theorem observePrefixes_eq_ok {seen count : Nat} {temporal : TemporalCompositionResult} (sameLength : claims.length = receipts.length)
    (split : seen + count = claims.length) :
    observePrefixes regexes graph claims receipts (greenPrefixes seen) (.range' (seen + 1) count) = .ok temporal ↔
      ((∀ length, seen < length → length ≤ claims.length → Green regexes graph (claims.take length)) ∧
        temporal = ⟨.allSingletonsPermitAndSafe claims.length, greenPrefixes claims.length⟩) ∨
      ∃ transition denied receipt, seen ≤ transition ∧ transition < claims.length ∧
        (∀ length, seen < length → length ≤ transition → Green regexes graph (claims.take length)) ∧
        Violation regexes graph (claims.take (transition + 1)) denied ∧ receipts[denied]? = some receipt ∧
        temporal = ⟨.allSingletonsPermitAndEarliestViolation transition (transition + 1) denied receipt.claim.eventId .deny,
          greenPrefixes transition ++ [⟨transition + 1, .deny, some denied⟩]⟩ := by
  induction count generalizing seen with
  | zero =>
    obtain rfl : seen = claims.length := by omega
    rw [List.range'_zero, observePrefixes]
    constructor
    · intro made
      exact .inl ⟨fun length above below => by omega, (Except.ok.inj made).symm⟩
    · rintro (⟨-, rfl⟩ | ⟨transition, -, -, low, high, -⟩)
      · rfl
      · omega
  | succ count ih =>
    have later := @ih (seen + 1) (by omega)
    rw [List.range'_succ, observePrefixes, bind_eq_ok]
    constructor
    · rintro ⟨leastDenied, observed, after⟩
      cases leastDenied with
      | some denied =>
        have violated := observePrefix_eq_some.1 observed
        obtain ⟨receipt, found, made⟩ := bind_eq_ok.1 after
        exact .inr ⟨seen, denied, receipt, le_rfl, by omega, fun length above below => by omega, violated, elim_eq_ok.1 found,
          (Except.ok.inj made).symm⟩
      | none =>
        have green := observePrefix_eq_none.1 observed
        have joined : ∀ length, seen < length → (seen + 1 < length → Green regexes graph (claims.take length)) →
            Green regexes graph (claims.take length) := by
          intro length above longer
          rcases Nat.eq_or_lt_of_le above with rfl | beyond
          · exact green
          · exact longer beyond
        simp only [Option.isSome_none, Bool.false_eq_true, if_false, ← greenPrefixes_succ] at after
        rcases later.1 after with ⟨all, made⟩ | ⟨transition, denied, receipt, low, high, all, violated, found, made⟩
        · exact .inl ⟨fun length above below => joined length above fun beyond => all length beyond below, made⟩
        · exact .inr ⟨transition, denied, receipt, by omega, high,
            fun length above below => joined length above fun beyond => all length beyond below, violated, found, made⟩
    · rintro (⟨all, made⟩ | ⟨transition, denied, receipt, low, high, all, violated, found, made⟩)
      · refine ⟨none, observePrefix_eq_none.2 (all (seen + 1) (by omega) (by omega)), ?_⟩
        simp only [Option.isSome_none, Bool.false_eq_true, if_false, ← greenPrefixes_succ]
        exact later.2 (.inl ⟨fun length above below => all length (by omega) below, made⟩)
      · rcases Nat.eq_or_lt_of_le low with rfl | beyond
        · exact ⟨some denied, observePrefix_eq_some.2 violated, bind_eq_ok.2 ⟨receipt, elim_eq_ok.2 found, by rw [made]; rfl⟩⟩
        · refine ⟨none, observePrefix_eq_none.2 (all (seen + 1) (by omega) (by omega)), ?_⟩
          simp only [Option.isSome_none, Bool.false_eq_true, if_false, ← greenPrefixes_succ]
          exact later.2 (.inr ⟨transition, denied, receipt, by omega, high, fun length above below => all length (by omega) below,
            violated, found, made⟩)

variable {receipt : EventPolicyReceipt}

section

variable (receipted : Receipted regexes graph claims receipts)

include receipted

theorem Receipted.decision_at {position : Nat} {claim : GovernanceClaim}
    (atClaim : claims[position]? = some claim) (atReceipt : receipts[position]? = some receipt) :
    decideSingleton regexes graph claim = .ok receipt.singletonDecision := by
  obtain ⟨inside, rfl⟩ := List.getElem?_eq_some_iff.1 atClaim
  obtain ⟨bound, rfl⟩ := List.getElem?_eq_some_iff.1 atReceipt
  exact (List.forall₂_iff_get.1 receipted.decided).2 position inside bound

theorem Receipted.permitted_iff {position : Nat} {claim : GovernanceClaim}
    (atClaim : claims[position]? = some claim) (atReceipt : receipts[position]? = some receipt) :
    receipt.singletonDecision ≠ .deny ↔ Green regexes graph [claim] := by
  have decided := receipted.decision_at atClaim atReceipt
  constructor
  · intro permitted
    rcases decideSingleton_eq_ok.1 decided with ⟨-, green⟩ | ⟨denied, -⟩
    · exact green
    · exact absurd denied permitted
  · intro green denied
    rcases decideSingleton_eq_ok.1 decided with ⟨permitted, -⟩ | ⟨-, violated⟩
    · rw [denied] at permitted
      cases permitted
    · exact green.not_violation violated

theorem Receipted.denied_iff {position : Nat} {claim : GovernanceClaim}
    (atClaim : claims[position]? = some claim) (atReceipt : receipts[position]? = some receipt) :
    receipt.singletonDecision = .deny ↔ Violation regexes graph [claim] 0 := by
  have decided := receipted.decision_at atClaim atReceipt
  constructor
  · intro denied
    rcases decideSingleton_eq_ok.1 decided with ⟨permitted, -⟩ | ⟨-, violated⟩
    · rw [denied] at permitted
      cases permitted
    · exact violated
  · intro violated
    by_contra permitted
    exact ((receipted.permitted_iff atClaim atReceipt).1 permitted).not_violation violated

theorem Receipted.claim_at {position : Nat} (atReceipt : receipts[position]? = some receipt) : ∃ claim, claims[position]? = some claim := by
  obtain ⟨bound, -⟩ := List.getElem?_eq_some_iff.1 atReceipt
  exact ⟨_, List.getElem?_eq_getElem (receipted.decided.length_eq ▸ bound)⟩

theorem Receipted.receipt_at {position : Nat} {claim : GovernanceClaim}
    (atClaim : claims[position]? = some claim) : ∃ receipt, receipts[position]? = some receipt := by
  obtain ⟨bound, -⟩ := List.getElem?_eq_some_iff.1 atClaim
  exact ⟨_, List.getElem?_eq_getElem (receipted.decided.length_eq ▸ bound)⟩

/-- The first denied receipt belongs to the first claim that is denied alone. -/
theorem find_denied_eq_some :
    receipts.find? (fun receipt => receipt.singletonDecision = .deny) = some receipt ↔
      ∃ position claim, claims[position]? = some claim ∧ receipts[position]? = some receipt ∧ Violation regexes graph [claim] 0 ∧
        ∀ other ∈ claims.take position, Green regexes graph [other] := by
  rw [List.find?_eq_some_iff_getElem, decide_eq_true_eq]
  constructor
  · rintro ⟨denied, position, inside, atPosition, before⟩
    have atReceipt : receipts[position]? = some receipt := List.getElem?_eq_some_iff.2 ⟨inside, atPosition⟩
    obtain ⟨claim, atClaim⟩ := receipted.claim_at atReceipt
    refine ⟨position, claim, atClaim, atReceipt, (receipted.denied_iff atClaim atReceipt).1 denied, fun other member => ?_⟩
    obtain ⟨index, low, atIndex⟩ := List.mem_take_iff_getElem.1 member
    have atOther : claims[index]? = some other := List.getElem?_eq_some_iff.2 ⟨by omega, atIndex⟩
    obtain ⟨earlier, atEarlier⟩ := receipted.receipt_at atOther
    refine (receipted.permitted_iff atOther atEarlier).1 ?_
    obtain ⟨bound, same⟩ := List.getElem?_eq_some_iff.1 atEarlier
    simpa [same] using before index (by omega)
  · rintro ⟨position, claim, atClaim, atReceipt, violated, earlier⟩
    obtain ⟨inside, atPosition⟩ := List.getElem?_eq_some_iff.1 atReceipt
    refine ⟨(receipted.denied_iff atClaim atReceipt).2 violated, position, inside, atPosition, fun index low => ?_⟩
    obtain ⟨before, atIndex⟩ : ∃ before, receipts[index]? = some before := ⟨_, List.getElem?_eq_getElem (by omega)⟩
    obtain ⟨bound, same⟩ := List.getElem?_eq_some_iff.1 atIndex
    obtain ⟨other, atOther⟩ := receipted.claim_at atIndex
    have member : other ∈ claims.take position := by
      obtain ⟨bound, same⟩ := List.getElem?_eq_some_iff.1 atOther
      exact List.mem_take_iff_getElem.2 ⟨index, by omega, same⟩
    simpa [same] using (receipted.permitted_iff atOther atIndex).2 (earlier other member)

theorem find_denied_eq_none :
    receipts.find? (fun receipt => receipt.singletonDecision = .deny) = none ↔ ∀ claim ∈ claims, Green regexes graph [claim] := by
  rw [List.find?_eq_none]
  constructor
  · intro permitted claim member
    obtain ⟨position, atClaim⟩ := List.getElem?_of_mem member
    obtain ⟨receipt, atReceipt⟩ := receipted.receipt_at atClaim
    exact (receipted.permitted_iff atClaim atReceipt).1 (by simpa using permitted receipt (List.mem_of_getElem? atReceipt))
  · intro green receipt member
    obtain ⟨position, atReceipt⟩ := List.getElem?_of_mem member
    obtain ⟨claim, atClaim⟩ := receipted.claim_at atReceipt
    simpa using (receipted.permitted_iff atClaim atReceipt).2 (green claim (List.mem_of_getElem? atClaim))

end

/-- The classification succeeds with its verdict and with nothing else. -/
theorem classifyTemporal_eq_ok {prepared : PreparedTrajectoryComposition}
    (receipted : Receipted regexes prepared.policy.graph prepared.claims prepared.receipts) {temporal : TemporalCompositionResult} :
    classifyTemporal regexes prepared = .ok temporal ↔
      TemporalVerdict regexes prepared.policy.graph prepared.claims prepared.receipts temporal := by
  have loop := @observePrefixes_eq_ok regexes prepared.policy.graph prepared.claims prepared.receipts 0 prepared.claims.length temporal
    receipted.decided.length_eq (Nat.zero_add _)
  unfold classifyTemporal
  cases searched : prepared.receipts.find? fun receipt => receipt.singletonDecision = .deny with
  | some receipt =>
    obtain ⟨position, claim, atClaim, atReceipt, violated, earlier⟩ := (find_denied_eq_some receipted).1 searched
    dsimp only
    rw [receipted.numbered position receipt atReceipt]
    constructor
    · intro made
      exact Except.ok.inj made ▸ .localFailure atClaim atReceipt violated earlier
    · intro verdict
      have alone : ¬∀ claim ∈ prepared.claims, Green regexes prepared.policy.graph [claim] := fun green =>
        (green claim (List.mem_of_getElem? atClaim)).not_violation violated
      cases verdict with
      | safe green => exact absurd green alone
      | violation green => exact absurd green alone
      | @localFailure other otherClaim otherReceipt atOther inReceipts otherViolated otherEarlier =>
        have again := (find_denied_eq_some receipted).2 ⟨other, otherClaim, atOther, inReceipts, otherViolated, otherEarlier⟩
        obtain rfl : receipt = otherReceipt := Option.some.inj (searched.symm.trans again)
        have samePosition := (receipted.numbered position receipt atReceipt).symm.trans (receipted.numbered other receipt inReceipts)
        rw [samePosition]
  | none =>
    have alone := (find_denied_eq_none receipted).1 searched
    refine loop.trans ⟨?_, fun verdict => ?_⟩
    · rintro (⟨green, rfl⟩ | ⟨transition, denied, receipt, -, inside, green, violated, atReceipt, rfl⟩)
      · exact .safe alone green
      · exact .violation alone inside green violated atReceipt
    · cases verdict with
      | safe _ green => exact .inl ⟨green, rfl⟩
      | violation _ inside green violated atReceipt => exact .inr ⟨_, _, _, Nat.zero_le _, inside, green, violated, atReceipt, rfl⟩
      | localFailure atClaim _ violated => exact absurd violated (alone _ (List.mem_of_getElem? atClaim)).not_violation

end

end Legitimacy.Trajectory
