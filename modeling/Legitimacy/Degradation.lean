import Legitimacy.Overlays
import Legitimacy.PermissionFlow

namespace Legitimacy.Protocol

open ExceptRun FloatOrder

section

variable {regexes : RegexEngine} {claim : GovernanceClaim} {cohort : List GovernanceClaim} {factor : Float}

def gateTightens (factor : Float) : Gate → Prop
  | .thresholdGate _ min .permit => min ≤ min * factor
  | .thresholdGate _ min .deny => min * factor ≤ min
  | .thresholdGate _ min .escalate => min ≤ min * factor ∧ min * factor ≤ min
  | _ => True

def nodeTightens (factor : Float) : GovernanceNode → Prop
  | .binary _ _ gates _ _ => ∀ gate ∈ gates, gateTightens factor gate
  | .threshold _ _ threshold _ => threshold ≤ threshold * factor
  | .proportional .. => True

instance decidableGateTightens (factor : Float) : (gate : Gate) → Decidable (gateTightens factor gate)
  | .thresholdGate _ min .permit => inferInstanceAs (Decidable (min ≤ min * factor))
  | .thresholdGate _ min .deny => inferInstanceAs (Decidable (min * factor ≤ min))
  | .thresholdGate _ min .escalate => inferInstanceAs (Decidable (min ≤ min * factor ∧ min * factor ≤ min))
  | .prefixMatch .. | .exactMatch .. | .contentMatch .. | .peerRelative .. => isTrue trivial

instance decidableNodeTightens (factor : Float) : (node : GovernanceNode) → Decidable (nodeTightens factor node)
  | .binary _ _ gates _ _ => inferInstanceAs (Decidable (∀ gate ∈ gates, gateTightens factor gate))
  | .threshold _ _ threshold _ => inferInstanceAs (Decidable (threshold ≤ threshold * factor))
  | .proportional .. => isTrue trivial

/-- How a gate that decides `decision` may change its mind about a claim without widening. -/
def Restrains (decision : Decision) (before after : Bool) : Prop :=
  match decision with
  | .permit => after = true → before = true
  | .deny => before = true → after = true
  | .escalate => after = before

theorem restrains_self (decision : Decision) (hit : Bool) : Restrains decision hit hit := by
  cases decision with
  | permit => exact id
  | deny => exact id
  | escalate => rfl

theorem gateDecision_degradeGate (gate : Gate) : gateDecision (degradeGate factor gate) = gateDecision gate := by
  cases gate <;> rfl

theorem degradeGate_restrains {gate : Gate} (tightens : gateTightens factor gate) {before after : Bool}
    (original : gateMatches regexes claim cohort gate = .ok before)
    (degraded : gateMatches regexes claim cohort (degradeGate factor gate) = .ok after) :
    Restrains (gateDecision gate) before after := by
  cases gate with
  | thresholdGate field min decision =>
    obtain ⟨value, atField, original⟩ := bind_eq_ok.1 original
    obtain ⟨again, atFieldAgain, degraded⟩ := bind_eq_ok.1 degraded
    obtain rfl : value = again := Except.ok.inj (atField.symm.trans atFieldAgain)
    obtain rfl := Except.ok.inj original
    obtain rfl := Except.ok.inj degraded
    cases decision with
    | permit =>
      intro passes
      exact decide_eq_true (le_trans tightens (of_decide_eq_true passes))
    | deny =>
      intro passes
      exact decide_eq_true (le_trans tightens (of_decide_eq_true passes))
    | escalate =>
      obtain ⟨rises, falls⟩ := tightens
      exact decide_eq_decide.2 ⟨fun passes => le_trans rises passes, fun passes => le_trans falls passes⟩
  | _ =>
    obtain rfl : before = after := Except.ok.inj (original.symm.trans degraded)
    exact restrains_self _ before

variable {gates : List Gate}

theorem degraded_firstMatch (tightens : ∀ gate ∈ gates, gateTightens factor gate) {default before after : Decision}
    (original : evaluateFirstMatch regexes claim cohort default gates = .ok before)
    (degraded : evaluateFirstMatch regexes claim cohort default (gates.map (degradeGate factor)) = .ok after) :
    decisionRank after ≤ decisionRank before := by
  induction gates with
  | nil =>
    obtain rfl : before = after := Except.ok.inj (original.symm.trans degraded)
    exact Nat.le_refl _
  | cons gate rest ih =>
    rw [List.map_cons] at degraded
    obtain ⟨hit, atGate, original⟩ := bind_eq_ok.1 original
    obtain ⟨hit', atDegraded, degraded⟩ := bind_eq_ok.1 degraded
    have restrains := degradeGate_restrains (tightens gate List.mem_cons_self) atGate atDegraded
    rw [gateDecision_degradeGate] at degraded
    cases hit with
    | true =>
      obtain rfl := Except.ok.inj original
      cases hit' with
      | true =>
        obtain rfl := Except.ok.inj degraded
        exact Nat.le_refl _
      | false =>
        -- only a permitting gate may lose the claim, and nothing ranks above a permit
        cases made : gateDecision gate with
        | permit => cases after <;> decide
        | deny => rw [made] at restrains; cases restrains rfl
        | escalate => rw [made] at restrains; cases restrains
    | false =>
      cases hit' with
      | true =>
        obtain rfl := Except.ok.inj degraded
        cases made : gateDecision gate with
        | permit => rw [made] at restrains; cases restrains rfl
        | deny => exact Nat.zero_le _
        | escalate => rw [made] at restrains; cases restrains
      | false => exact ih (fun other member => tightens other (List.mem_cons_of_mem gate member)) original degraded

theorem degraded_matched (tightens : ∀ gate ∈ gates, gateTightens factor gate) {before after : List Decision}
    (original : matchedDecisions regexes claim cohort gates = .ok before)
    (degraded : matchedDecisions regexes claim cohort (gates.map (degradeGate factor)) = .ok after) :
    (.permit ∈ after → .permit ∈ before) ∧ (.deny ∈ before → .deny ∈ after) ∧ (.escalate ∈ after ↔ .escalate ∈ before) := by
  induction gates generalizing before after with
  | nil =>
    obtain rfl : before = after := Except.ok.inj (original.symm.trans degraded)
    exact ⟨id, id, Iff.rfl⟩
  | cons gate rest ih =>
    rw [List.map_cons] at degraded
    obtain ⟨hit, atGate, original⟩ := bind_eq_ok.1 original
    obtain ⟨others, atRest, original⟩ := bind_eq_ok.1 original
    obtain ⟨hit', atDegraded, degraded⟩ := bind_eq_ok.1 degraded
    obtain ⟨others', atRest', degraded⟩ := bind_eq_ok.1 degraded
    obtain rfl := Except.ok.inj original
    obtain rfl := Except.ok.inj degraded
    have restrains := degradeGate_restrains (tightens gate List.mem_cons_self) atGate atDegraded
    obtain ⟨permits, denies, escalates⟩ := ih (fun other member => tightens other (List.mem_cons_of_mem gate member)) atRest atRest'
    rw [gateDecision_degradeGate]
    cases made : gateDecision gate <;> rw [made] at restrains <;> cases hit <;> cases hit' <;> simp_all [Restrains]

theorem degraded_anyMustPass (tightens : ∀ gate ∈ gates, gateTightens factor gate) {default before after : Decision}
    (original : evaluateAnyMustPass regexes gates claim cohort default = .ok before)
    (degraded : evaluateAnyMustPass regexes (gates.map (degradeGate factor)) claim cohort default = .ok after) :
    decisionRank after ≤ decisionRank before := by
  obtain ⟨matched, atGates, original⟩ := bind_eq_ok.1 original
  obtain ⟨matched', atDegraded, degraded⟩ := bind_eq_ok.1 degraded
  obtain ⟨permits, denies, escalates⟩ := degraded_matched tightens atGates atDegraded
  by_cases permitted : Decision.permit ∈ matched
  · rw [if_pos permitted] at original
    obtain rfl := Except.ok.inj original
    cases after <;> decide
  · rw [if_neg permitted] at original
    rw [if_neg fun member => permitted (permits member)] at degraded
    by_cases escalated : Decision.escalate ∈ matched
    · rw [if_pos escalated] at original
      rw [if_pos (escalates.2 escalated)] at degraded
      exact Except.ok.inj (original.symm.trans degraded) ▸ Nat.le_refl _
    · rw [if_neg escalated] at original
      rw [if_neg fun member => escalated (escalates.1 member)] at degraded
      by_cases denied : Decision.deny ∈ matched'
      · rw [if_pos denied] at degraded
        obtain rfl := Except.ok.inj degraded
        exact Nat.zero_le _
      · rw [if_neg denied] at degraded
        rw [if_neg fun member => denied (denies member)] at original
        exact Except.ok.inj (original.symm.trans degraded) ▸ Nat.le_refl _

theorem allMustPassLoop_count {gates : List Gate} {matchedCount finalCount : Nat} {sawEscalate finalSaw : Bool}
    (run : allMustPassLoop regexes claim cohort gates matchedCount sawEscalate = .ok (some (finalCount, finalSaw))) :
    finalCount ≤ matchedCount + gates.length := by
  induction gates generalizing matchedCount sawEscalate with
  | nil =>
    obtain ⟨rfl, rfl⟩ := Prod.mk.inj (Option.some.inj (Except.ok.inj run))
    exact Nat.le_refl _
  | cons gate rest ih =>
    obtain ⟨hit, -, run⟩ := bind_eq_ok.1 run
    rw [List.length_cons]
    cases hit with
    | false =>
      have later := ih run
      omega
    | true =>
      cases made : gateDecision gate with
      | deny =>
        rw [made] at run
        cases run
      | escalate =>
        rw [made] at run
        have later := ih run
        omega
      | permit =>
        rw [made] at run
        have later := ih run
        omega

/-- When the degraded gates let the claim through, so do the original ones, with no fewer matches. -/
theorem degraded_allMustPassLoop (tightens : ∀ gate ∈ gates, gateTightens factor gate) {count count' finalCount' : Nat}
    {sawEscalate finalSaw : Bool} (fewer : count' ≤ count) {before : Option (Nat × Bool)}
    (original : allMustPassLoop regexes claim cohort gates count sawEscalate = .ok before)
    (degraded : allMustPassLoop regexes claim cohort (gates.map (degradeGate factor)) count' sawEscalate = .ok (some (finalCount', finalSaw))) :
    ∃ finalCount, before = some (finalCount, finalSaw) ∧ finalCount' ≤ finalCount := by
  induction gates generalizing count count' sawEscalate with
  | nil =>
    obtain rfl := Except.ok.inj original
    obtain ⟨rfl, rfl⟩ := Prod.mk.inj (Option.some.inj (Except.ok.inj degraded))
    exact ⟨count, rfl, fewer⟩
  | cons gate rest ih =>
    rw [List.map_cons] at degraded
    obtain ⟨hit, atGate, original⟩ := bind_eq_ok.1 original
    obtain ⟨hit', atDegraded, degraded⟩ := bind_eq_ok.1 degraded
    have restrains := degradeGate_restrains (tightens gate List.mem_cons_self) atGate atDegraded
    have later := fun {count count' sawEscalate} => @ih (fun other member => tightens other (List.mem_cons_of_mem gate member)) count count'
      sawEscalate
    rw [gateDecision_degradeGate] at degraded
    cases made : gateDecision gate with
    | deny =>
      rw [made] at restrains original degraded
      cases hit' with
      | true => cases degraded
      | false =>
        cases hit with
        | true => cases restrains rfl
        | false => exact later fewer original degraded
    | escalate =>
      rw [made] at restrains original degraded
      obtain rfl : hit' = hit := restrains
      cases hit' with
      | true => exact later (Nat.succ_le_succ fewer) original degraded
      | false => exact later fewer original degraded
    | permit =>
      rw [made] at restrains original degraded
      cases hit with
      | true =>
        cases hit' with
        | true => exact later (Nat.succ_le_succ fewer) original degraded
        | false => exact later (Nat.le_succ_of_le fewer) original degraded
      | false =>
        cases hit' with
        | true => cases restrains rfl
        | false => exact later fewer original degraded

theorem degraded_allMustPass (tightens : ∀ gate ∈ gates, gateTightens factor gate) {default before after : Decision}
    (original : evaluateAllMustPass regexes gates claim cohort default = .ok before)
    (degraded : evaluateAllMustPass regexes (gates.map (degradeGate factor)) claim cohort default = .ok after) :
    decisionRank after ≤ decisionRank before := by
  obtain ⟨outcome, atGates, original⟩ := bind_eq_ok.1 original
  obtain ⟨outcome', atDegraded, degraded⟩ := bind_eq_ok.1 degraded
  cases outcome' with
  | none =>
    obtain rfl := Except.ok.inj degraded
    exact Nat.zero_le _
  | some reached =>
    obtain ⟨count', saw⟩ := reached
    obtain ⟨count, rfl, fewer⟩ := degraded_allMustPassLoop tightens (Nat.le_refl 0) atGates atDegraded
    have bound := allMustPassLoop_count atGates
    dsimp only at original degraded
    rw [List.length_map] at degraded
    by_cases every : count' = gates.length ∧ gates ≠ []
    · have everyBefore : count = gates.length ∧ gates ≠ [] := ⟨by omega, every.2⟩
      rw [if_pos ⟨every.1, by simpa using every.2⟩] at degraded
      rw [if_pos everyBefore] at original
      exact Except.ok.inj (original.symm.trans degraded) ▸ Nat.le_refl _
    · rw [if_neg fun both => every ⟨both.1, by simpa using both.2⟩] at degraded
      cases saw with
      | true =>
        obtain rfl := Except.ok.inj degraded
        split at original <;> exact Except.ok.inj original ▸ Nat.le_refl _
      | false =>
        obtain rfl := Except.ok.inj degraded
        split at original
        · obtain rfl := Except.ok.inj original
          cases default <;> decide
        · exact Except.ok.inj original ▸ Nat.le_refl _

theorem degraded_claimDecision {node : GovernanceNode} (tightens : nodeTightens factor node) {before after : Decision}
    (original : claimDecision regexes node cohort claim = .ok before)
    (degraded : claimDecision regexes (degradeNode factor node) cohort claim = .ok after) : decisionRank after ≤ decisionRank before := by
  cases node with
  | binary id name gates default combination =>
    cases combination with
    | firstMatch => exact degraded_firstMatch tightens original degraded
    | anyMustPass => exact degraded_anyMustPass tightens original degraded
    | allMustPass => exact degraded_allMustPass tightens original degraded
  | threshold id name threshold field =>
    obtain ⟨value, atField, original⟩ := bind_eq_ok.1 original
    obtain ⟨again, atFieldAgain, degraded⟩ := bind_eq_ok.1 degraded
    obtain rfl : value = again := Except.ok.inj (atField.symm.trans atFieldAgain)
    obtain rfl := Except.ok.inj original
    obtain rfl := Except.ok.inj degraded
    by_cases passes : threshold * factor ≤ value
    · rw [if_pos passes, if_pos (le_trans tightens passes)]
    · rw [if_neg passes]
      exact Nat.zero_le _
  | proportional id name rule classes => cases original

end

end Legitimacy.Protocol
