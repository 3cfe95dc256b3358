import Legitimacy.TraversalDecisions

namespace Legitimacy

open ExceptRun

section

variable {regexes : RegexEngine} {graph : GovernanceGraph} {claims : List GovernanceClaim}

theorem plain_of_loop {merge : FeedMerger} {order : List NodeId} {start final : TraversalState} (legal : graph.LegalOrder order)
    (looped : order.foldlM (visitNode graph (evaluateNodeValidated regexes) merge) start = .ok final) : graph.Plain := by
  have visited : ∀ node ∈ order, ∀ governanceNode, graph.nodes[node]? = some governanceNode → isProportional governanceNode = false := by
    refine foldlM_invariant (fun done (_ : TraversalState) => ∀ node ∈ done, ∀ governanceNode, graph.nodes[node]? = some governanceNode →
      isProportional governanceNode = false) (by simp) ?_ looped
    intro done node rest state next _ earlier stepped other member governanceNode atOther
    rcases List.mem_append.1 member with before | last
    · exact earlier other before governanceNode atOther
    · obtain rfl : other = node := by simpa using last
      unfold visitNode at stepped
      rw [atOther] at stepped
      obtain ⟨decisions, evaluated, -⟩ := bind_eq_ok.1 stepped
      cases governanceNode with
      | proportional => cases evaluated
      | _ => rfl
  intro key governanceNode atKey
  exact visited key ((legal.complete key).2 (mem_iff_lookup.2 ⟨governanceNode, atKey⟩)) governanceNode atKey

/-- What a successful traversal says about the flow of the claims through the graph. -/
structure Traversed (regexes : RegexEngine) (graph : GovernanceGraph) (claims : List GovernanceClaim) (result : TraversalResult)
    (flow : NodeId → Set GovernanceClaim) : Prop where
  closed : graph.Closed
  acyclic : graph.Acyclic
  batch : ValidBatch claims
  nonempty : graph.nodes.isEmpty = false
  isFlow : (claimNetwork regexes graph claims).IsFlow flow
  evaluable : Evaluable regexes graph flow
  records : Records result.finalDecisions (decidedOn regexes graph flow (· ∈ graph.nodes))

theorem exists_traversed (closed : graph.Closed) (acyclic : graph.Acyclic) {result : TraversalResult}
    (traversed : traverse regexes graph claims = .ok result) : ∃ flow, Traversed regexes graph claims result flow := by
  obtain ⟨⟨entries, final⟩, run, made⟩ := bind_eq_ok.1 traversed
  obtain rfl := Except.ok.inj made
  obtain ⟨validated, nonempty, order, legal, looped⟩ := traverseClaims_run closed acyclic run
  have batch := validBatch_of_validated validated
  obtain ⟨flow, isFlow⟩ := exists_claimFlow regexes claims acyclic
  have inv := run_sound (traversal_parts regexes batch) legal (plain_of_loop legal looped) isFlow (claimNetwork_within acyclic isFlow) batch
    true looped
  exact ⟨flow, closed, acyclic, batch, nonempty, isFlow, evaluable_of_invariant legal inv, final_of_invariant legal inv⟩

theorem Decides.arrived {node : NodeId} {arrived : Set GovernanceClaim} {claim : GovernanceClaim} {decision : Decision}
    (decides : Decides regexes graph node arrived claim decision) : claim ∈ arrived := by
  obtain ⟨governanceNode, cohort, -, isCohort, member, -⟩ := decides
  exact (isCohort.mem_iff claim).1 member

namespace Traversed

variable {result : TraversalResult} {flow : NodeId → Set GovernanceClaim}

variable {claim : GovernanceClaim}

section

variable (run : Traversed regexes graph claims result flow)

include run

theorem arrives_entry {node : NodeId} (entry : graph.IsEntry node) (listed : claim ∈ claims) : claim ∈ flow node := by
  rw [run.isFlow node]
  exact Or.inl ⟨entry, listed⟩

theorem flow_entry {node : NodeId} (entry : graph.IsEntry node) :
    flow node = {claim | claim ∈ claims} := by
  refine Set.Subset.antisymm (claimNetwork_within run.acyclic run.isFlow node) fun claim listed => run.arrives_entry entry listed

theorem arrives_next {node next : NodeId} (link : graph.Edge node next)
    (decides : Decides regexes graph node (flow node) claim .escalate) : claim ∈ flow next := by
  rw [run.isFlow next]
  exact Or.inr ⟨node, trivial, link, decides.arrived, decides⟩

theorem inGraph {node : NodeId} (arrived : claim ∈ flow node) : node ∈ graph.nodes := by
  rw [run.isFlow node] at arrived
  rcases arrived with ⟨entry, -⟩ | ⟨previous, -, link, -⟩
  · exact entry.1
  · exact (run.closed.ends link).2

theorem listed {node : NodeId} (arrived : claim ∈ flow node) : claim ∈ claims :=
  claimNetwork_within run.acyclic run.isFlow node arrived

theorem of_permitted (permitted : result.finalDecisions[claim.claimantId]? = some .permit) {node : NodeId} {decision : Decision}
    (decides : Decides regexes graph node (flow node) claim decision) :
    decision ≠ .deny ∧ (decision = .escalate → ∃ next, graph.Edge node next) := by
  have least := (run.records claim.claimantId .permit).1 permitted
  have inGraph := run.inGraph decides.arrived
  have counted : ¬(decision = .escalate ∧ ∃ next, graph.Edge node next) → decision = .permit := by
    intro settles
    have bound := least.2 decision ⟨node, inGraph, claim, rfl, decides, settles⟩
    cases decision with
    | permit => rfl
    | deny => exact absurd bound (by decide)
    | escalate => exact absurd bound (by decide)
  constructor
  · rintro rfl
    cases counted (by simp)
  · rintro rfl
    by_contra leaf
    cases counted fun both => leaf both.2

/-- A claim that only meets nodes which do not deny it, and which escalate it onwards if at all, is permitted. -/
theorem permitted_of_tracked (listed : claim ∈ claims) (tracked : NodeId → Prop) (entries : ∀ node, graph.IsEntry node → tracked node)
    (steps : ∀ node decision, tracked node → Decides regexes graph node (flow node) claim decision → decision ≠ .deny ∧
      (decision = .escalate → (∃ next, graph.Edge node next) ∧ ∀ next, graph.Edge node next → tracked next)) :
    result.finalDecisions[claim.claimantId]? = some .permit := by
  have reached : ∀ node, claim ∈ flow node → tracked node := by
    intro node
    induction node using run.acyclic.wellFounded.induction with
    | _ node ih =>
      intro arrived
      rw [run.isFlow node] at arrived
      rcases arrived with ⟨entry, -⟩ | ⟨previous, -, link, there, decides⟩
      · exact entries node entry
      · exact ((steps previous .escalate (ih previous link there) decides).2 rfl).2 node link
  have settled : ∀ decision ∈ decidedOn regexes graph flow (· ∈ graph.nodes) claim.claimantId, decision = .permit := by
    rintro decision ⟨node, -, other, sameId, decides, counts⟩
    obtain rfl : other = claim := run.batch.eq_of_id (run.listed decides.arrived) listed sameId
    obtain ⟨undenied, onwards⟩ := steps node decision (reached node decides.arrived) decides
    cases decision with
    | permit => rfl
    | deny => exact absurd rfl undenied
    | escalate => exact absurd ⟨rfl, (onwards rfl).1⟩ counts
  obtain ⟨decision, made⟩ := (decidedOn_nonempty_iff run.closed run.acyclic run.nonempty run.isFlow run.evaluable).2
    ⟨claim, listed, rfl⟩
  refine (run.records claim.claimantId .permit).2 ⟨settled decision made ▸ made, fun other member => ?_⟩
  rw [settled other member]

theorem exists_claim {claimant : ClaimantId} {decision : Decision}
    (decided : result.finalDecisions[claimant]? = some decision) : ∃ claim ∈ claims, claim.claimantId = claimant := by
  obtain ⟨⟨node, -, claim, sameId, decides, -⟩, -⟩ := (run.records claimant decision).1 decided
  exact ⟨claim, run.listed decides.arrived, sameId⟩

end

end Traversed

end

section

variable {regexes : RegexEngine} {claim : GovernanceClaim}

def isPeerRelative : Gate → Bool
  | .peerRelative .. => true
  | _ => false

/-- The node compares no claim with its cohort. -/
def CohortFree : GovernanceNode → Prop
  | .binary _ _ gates _ _ => ∀ gate ∈ gates, isPeerRelative gate = false
  | _ => True

instance decidableCohortFree : (node : GovernanceNode) → Decidable (CohortFree node)
  | .binary _ _ gates _ _ => inferInstanceAs (Decidable (∀ gate ∈ gates, isPeerRelative gate = false))
  | .threshold .. | .proportional .. => isTrue trivial

theorem gateMatches_cohortFree {gate : Gate} (free : isPeerRelative gate = false) (claims cohort : List GovernanceClaim) :
    gateMatches regexes claim claims gate = gateMatches regexes claim cohort gate := by
  cases gate with
  | peerRelative => cases free
  | _ => rfl

theorem evaluateFirstMatch_congr {claims cohort : List GovernanceClaim} {default : Decision} {gates : List Gate}
    (same : ∀ gate ∈ gates, gateMatches regexes claim claims gate = gateMatches regexes claim cohort gate) :
    evaluateFirstMatch regexes claim claims default gates = evaluateFirstMatch regexes claim cohort default gates := by
  induction gates with
  | nil => rfl
  | cons gate rest ih =>
    rw [evaluateFirstMatch, evaluateFirstMatch, same gate List.mem_cons_self,
      ih fun other member => same other (List.mem_cons_of_mem gate member)]

theorem matchedDecisions_congr {claims cohort : List GovernanceClaim} {gates : List Gate}
    (same : ∀ gate ∈ gates, gateMatches regexes claim claims gate = gateMatches regexes claim cohort gate) :
    matchedDecisions regexes claim claims gates = matchedDecisions regexes claim cohort gates := by
  induction gates with
  | nil => rfl
  | cons gate rest ih =>
    rw [matchedDecisions, matchedDecisions, same gate List.mem_cons_self,
      ih fun other member => same other (List.mem_cons_of_mem gate member)]

theorem allMustPassLoop_congr {claims cohort : List GovernanceClaim} {gates : List Gate} {matchedCount : Nat} {sawEscalate : Bool}
    (same : ∀ gate ∈ gates, gateMatches regexes claim claims gate = gateMatches regexes claim cohort gate) :
    allMustPassLoop regexes claim claims gates matchedCount sawEscalate =
      allMustPassLoop regexes claim cohort gates matchedCount sawEscalate := by
  induction gates generalizing matchedCount sawEscalate with
  | nil => rfl
  | cons gate rest ih =>
    have later := fun matchedCount sawEscalate => @ih matchedCount sawEscalate fun other member =>
      same other (List.mem_cons_of_mem gate member)
    rw [allMustPassLoop, allMustPassLoop, same gate List.mem_cons_self]
    simp only [later]

theorem claimDecision_cohortFree {node : GovernanceNode} (free : CohortFree node) (claims cohort : List GovernanceClaim) :
    claimDecision regexes node claims claim = claimDecision regexes node cohort claim := by
  cases node with
  | threshold id name threshold field => rfl
  | proportional id name rule classes => rfl
  | binary id name gates default combination =>
    have same : ∀ gate ∈ gates, gateMatches regexes claim claims gate = gateMatches regexes claim cohort gate :=
      fun gate member => gateMatches_cohortFree (free gate member) claims cohort
    cases combination with
    | firstMatch => exact evaluateFirstMatch_congr same
    | anyMustPass =>
      simp only [claimDecision, binaryDecision, evaluateAnyMustPass, matchedDecisions_congr same]
    | allMustPass =>
      simp only [claimDecision, binaryDecision, evaluateAllMustPass, allMustPassLoop_congr same]

end

end Legitimacy
