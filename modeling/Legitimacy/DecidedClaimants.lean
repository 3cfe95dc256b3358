import Legitimacy.Traverse

namespace Legitimacy

open ExceptRun

def ClaimsOf (claimants : Set ClaimantId) (claims : List GovernanceClaim) : Prop := ∀ claim ∈ claims, claim.claimantId ∈ claimants

structure TraversalState.Within (claimants : Set ClaimantId) (state : TraversalState) : Prop where
  queued : ∀ (node : NodeId) (feed : List GovernanceClaim), state.queuedClaims[node]? = some feed → ClaimsOf claimants feed
  final : ∀ claimant ∈ state.finalDecisions, claimant ∈ claimants

section

variable {claimants : Set ClaimantId} {regexes : RegexEngine} {graph : GovernanceGraph} {claims : List GovernanceClaim}
  {decisions : List ClaimDecision}

theorem ClaimsOf.getD {found : Option (List GovernanceClaim)} (within : ∀ feed, found = some feed → ClaimsOf claimants feed) :
    ClaimsOf claimants (found.getD []) := by
  cases found with
  | none => exact fun _ member => absurd member List.not_mem_nil
  | some feed => exact within feed rfl

theorem ClaimsOf.forwardedClaims (within : ClaimsOf claimants claims) : ClaimsOf claimants (Legitimacy.forwardedClaims claims decisions) := by
  intro claim member
  obtain ⟨⟨other, decision⟩, kept, rfl⟩ := List.mem_map.1 member
  exact within other (List.of_mem_zip (List.mem_filter.1 kept).1).1

theorem ClaimsOf.applyTransform (within : ClaimsOf claimants claims) {transform : EdgeTransform} {moved : List GovernanceClaim}
    (run : Legitimacy.applyTransform transform claims decisions = .ok moved) : ClaimsOf claimants moved := by
  cases transform with
  | passThrough => exact Except.ok.inj run ▸ within
  | claimModification delta =>
    intro claim member
    obtain ⟨⟨other, decision⟩, listed, made⟩ := exists_partner (mapM_eq_ok.1 run).flip member
    have inside := within other (List.of_mem_zip listed).1
    dsimp only at made
    split at made
    · obtain ⟨⟨⟩, -, same⟩ := bind_eq_ok.1 made
      exact Except.ok.inj same ▸ inside
    · exact Except.ok.inj made ▸ inside

theorem ClaimsOf.mergeSharedClaimBatches {node : NodeId} {additional merged : List GovernanceClaim} (within : ClaimsOf claimants claims)
    (added : ClaimsOf claimants additional) (run : Legitimacy.mergeSharedClaimBatches node claims additional = .ok merged) :
    ClaimsOf claimants merged := by
  obtain ⟨feed, folded, made⟩ := bind_eq_ok.1 run
  obtain rfl := Except.ok.inj made
  refine foldlM_invariant (fun _ feed => ClaimsOf claimants feed.1) within ?_ folded
  intro done claim rest feed next split held stepped
  unfold appendClaim at stepped
  split at stepped
  · obtain ⟨-, same⟩ := guard_eq_ok.1 stepped
    exact Except.ok.inj same ▸ held
  · obtain rfl := Except.ok.inj stepped
    intro other member
    rcases List.mem_append.1 member with earlier | last
    · exact held other earlier
    · obtain rfl := List.mem_singleton.1 last
      exact added other (by simp [split])

theorem ClaimsOf.evaluateNodeValidated {node : GovernanceNode} (within : ClaimsOf claimants claims)
    (run : Legitimacy.evaluateNodeValidated regexes node claims = .ok decisions) : ∀ decision ∈ decisions, decision.claimantId ∈ claimants := by
  have evaluable : isProportional node = false := by
    cases node with
    | proportional id name rule classes => cases run
    | _ => rfl
  intro decision member
  obtain ⟨claim, listed, -, same⟩ := exists_partner ((evaluateNodeValidated_eq_ok evaluable).1 run).flip member
  exact same ▸ within claim listed

theorem mem_recordFinalDecisions {final : BTreeMap ClaimantId Decision} {hasOutgoing : Bool} {claimant : ClaimantId}
    (member : claimant ∈ recordFinalDecisions final decisions hasOutgoing) :
    claimant ∈ final ∨ ∃ decision ∈ decisions, decision.claimantId = claimant := by
  unfold recordFinalDecisions at member
  induction decisions generalizing final with
  | nil => exact .inl member
  | cons decision rest ih =>
    rw [List.foldl_cons] at member
    rcases ih member with before | ⟨other, listed, same⟩
    · have grown : claimant ∈ final ∨ decision.claimantId = claimant := by
        split at before
        · exact .inl before
        · split at before <;> simpa [Std.ExtTreeMap.mem_insert, or_comm] using before
      exact grown.imp_right fun same => ⟨decision, List.mem_cons_self, same⟩
    · exact .inr ⟨other, List.mem_cons_of_mem decision listed, same⟩

theorem visitNode_within {state next : TraversalState} {node : NodeId} (within : state.Within claimants)
    (run : visitNode graph (evaluateNodeValidated regexes) mergeSharedClaimBatches state node = .ok next) : next.Within claimants := by
  unfold visitNode at run
  split at run
  · cases run
  obtain ⟨decisions, evaluated, run⟩ := bind_eq_ok.1 run
  obtain ⟨queued, followed, made⟩ := bind_eq_ok.1 run
  obtain rfl := Except.ok.inj made
  have current : ClaimsOf claimants ((state.queuedClaims[node]?).getD []) := .getD fun feed found => within.queued node feed found
  constructor
  · refine foldlM_invariant (fun _ (queued : BTreeMap NodeId (List GovernanceClaim)) => ∀ (other : NodeId) (feed : List GovernanceClaim),
      queued[other]? = some feed → ClaimsOf claimants feed) ?_ ?_ followed
    · intro other feed found
      rw [lookup_erase] at found
      split at found
      · cases found
      · exact within.queued other feed found
    · intro _ edge _ before after _ held stepped
      obtain ⟨transformed, moved, stepped⟩ := bind_eq_ok.1 stepped
      obtain ⟨merged, united, made⟩ := bind_eq_ok.1 stepped
      obtain rfl := Except.ok.inj made
      intro other feed found
      rw [lookup_insert] at found
      split at found
      · obtain rfl := Option.some.inj found
        exact (ClaimsOf.getD fun feed found => held edge.toNode feed found).mergeSharedClaimBatches
          (current.forwardedClaims.applyTransform moved) united
      · exact held other feed found
  · intro claimant member
    rcases mem_recordFinalDecisions member with before | ⟨decision, listed, rfl⟩
    · exact within.final claimant before
    · exact current.evaluateNodeValidated evaluated decision listed

/-- A traversal decides no claimant that has no claim. -/
theorem exists_claim_of_decided {final : BTreeMap ClaimantId Decision} (run : traverseFinalDecisions regexes graph claims = .ok final)
    {claimant : ClaimantId} (decided : claimant ∈ final) : ∃ claim ∈ claims, claim.claimantId = claimant := by
  unfold traverseFinalDecisions traverseClaims at run
  obtain ⟨⟨entries, last⟩, traversed, made⟩ := bind_eq_ok.1 run
  obtain rfl := Except.ok.inj made
  obtain ⟨⟨⟩, -, run⟩ := bind_eq_ok.1 traversed
  obtain ⟨cycles, -, run⟩ := bind_eq_ok.1 run
  cases cycles with
  | cons cycle rest => cases run
  | nil =>
    obtain ⟨-, run⟩ := guard_eq_ok.1 run
    obtain ⟨order, -, run⟩ := bind_eq_ok.1 run
    obtain ⟨state, visited, made⟩ := bind_eq_ok.1 run
    cases made
    have start : (startState graph claims false).Within {claimant | ∃ claim ∈ claims, claim.claimantId = claimant} := by
      refine ⟨?_, fun claimant member => by simp [startState] at member⟩
      unfold startState
      dsimp only
      have queued : ∀ (nodes : List NodeId) (queued : BTreeMap NodeId (List GovernanceClaim)),
          (∀ (node : NodeId) (feed : List GovernanceClaim), queued[node]? = some feed → feed = claims) →
          ∀ (node : NodeId) (feed : List GovernanceClaim),
            (nodes.foldl (fun queued node => queued.insert node claims) queued)[node]? = some feed → feed = claims := by
        intro nodes
        induction nodes with
        | nil => exact fun _ held => held
        | cons first rest ih =>
          intro queued held
          refine ih _ fun node feed found => ?_
          rw [lookup_insert] at found
          split at found
          · exact (Option.some.inj found).symm
          · exact held node feed found
      intro node feed found
      rw [queued (entryNodes graph) ∅ (fun _ _ found => by simp at found) node feed found]
      exact fun claim member => ⟨claim, member, rfl⟩
    exact (foldlM_invariant (fun _ => TraversalState.Within _) start (fun _ _ _ _ _ _ held stepped => visitNode_within held stepped)
      visited).final claimant decided

theorem size_of_decided {final : BTreeMap ClaimantId Decision} (run : traverseFinalDecisions regexes graph claims = .ok final)
    (decided : ∀ claim ∈ claims, claim.claimantId ∈ final) : final.size = claims.length := by
  have distinct : (claims.map (·.claimantId)).Nodup := by
    obtain ⟨⟨entries, last⟩, traversed, -⟩ := bind_eq_ok.1 run
    obtain ⟨⟨⟩, validated, -⟩ := bind_eq_ok.1 traversed
    exact (validateGovernanceClaims_eq_ok.1 validated).2
  have keys : (final.toList.map Prod.fst).Perm (claims.map (·.claimantId)) := by
    refine (List.perm_ext_iff_of_nodup (nodup_keys final) distinct).2 fun claimant => ?_
    rw [Std.ExtTreeMap.map_fst_toList_eq_keys, Std.ExtTreeMap.mem_keys, List.mem_map]
    constructor
    · exact exists_claim_of_decided run
    · rintro ⟨claim, member, rfl⟩
      exact decided claim member
  rw [← Std.ExtTreeMap.length_toList, ← List.length_map (Prod.fst : ClaimantId × Decision → ClaimantId), keys.length_eq, List.length_map]

end

end Legitimacy
