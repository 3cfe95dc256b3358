import Legitimacy.AppendedStage
import Legitimacy.GraphPolicy

namespace Legitimacy

open ExceptRun

namespace Paradox

def reviewPercentiles : List Float := [0.60, 2.0 / 3.0, 0.75, 0.90]

def sinkNodes (graph : GovernanceGraph) : List NodeId :=
  sorted (graph.nodes.keys.filter fun node => !graph.edges.any fun edge => edge.fromNode = node)

def firstWorsening (before after : BTreeMap ClaimantId Decision) (claims : List GovernanceClaim) :
    Option (ClaimantId × Decision × Decision) :=
  (claimantIds claims).findSome? fun claimantId =>
    let original := (before[claimantId]?).getD .escalate
    let perturbed := (after[claimantId]?).getD .escalate
    if decisionRank perturbed < decisionRank original then some (claimantId, original, perturbed) else none

def sanitizeNodeId (value : String) : String :=
  let sanitized := value.toList.map fun character =>
    if character.isAlphanum || character = '-' || character = '_' then character else '-'
  if sanitized.all (· = '-') then "graph-review" else String.ofList sanitized

def candidateName (base : String) (suffix : Nat) : String := if suffix = 0 then base else base ++ "-" ++ toString suffix

/-- Tries one suffix after the other; `fuel` bounds the turns of the loop, which never come to its end. -/
def freshNodeIdLoop (graph : GovernanceGraph) (base : String) : Nat → Nat → Except LegitimacyError NodeId
  | 0, suffix => NodeId.new (candidateName base suffix)
  | fuel + 1, suffix => do
    let nodeId ← NodeId.new (candidateName base suffix)
    if ¬graph.nodes.contains nodeId then .ok nodeId else freshNodeIdLoop graph base fuel (suffix + 1)

def freshNodeId (graph : GovernanceGraph) (namePrefix : String) : Except LegitimacyError NodeId :=
  freshNodeIdLoop graph (sanitizeNodeId namePrefix) (graph.nodes.size + 1) 0

def reviewNode (reviewId sink : NodeId) (percentile : Float) : GovernanceNode :=
  .binary reviewId ("peer-review-" ++ sink.asStr ++ "-" ++ FloatText.fixed 2 percentile) [.peerRelative "strength" percentile .permit]
    .deny .anyMustPass

def appendReview (graph : GovernanceGraph) (sink : NodeId) (percentile : Float) : Except LegitimacyError (NodeId × GovernanceGraph) := do
  let reviewId ← freshNodeId graph (sink.asStr ++ "-review")
  let edge ← GovernanceEdge.new sink reviewId .passThrough
  .ok (reviewId, { nodes := graph.nodes.insert reviewId (reviewNode reviewId sink percentile), edges := graph.edges ++ [edge] })

def worseningViolation (reviewId sink : NodeId) (percentile : Float) (baseline candidate : BTreeMap ClaimantId Decision)
    (claimantId : ClaimantId) (before after : Decision) : GraphParadoxViolation where
  paradoxType := .compositionalAlabama
  description := "Appending peer-review node '" ++ reviewId.asStr ++ "' after '" ++ sink.asStr ++ "' at percentile " ++
    FloatText.fixed 2 percentile ++ " worsened '" ++ claimantId ++ "' from " ++ before.debug ++ " to " ++ after.debug
  originalDecisions := baseline
  perturbedDecisions := candidate

def probeReview (regexes : RegexEngine) (graph : GovernanceGraph) (claims : List GovernanceClaim) (baseline : BTreeMap ClaimantId Decision)
    (probe : NodeId × Float) : Except LegitimacyError (Option GraphParadoxViolation) := do
  let (sink, percentile) := probe
  let (reviewId, perturbed) ← appendReview graph sink percentile
  let candidate ← traverseFinalDecisions regexes perturbed claims
  match firstWorsening baseline candidate claims with
  | some (claimantId, before, after) =>
    .ok (some (worseningViolation reviewId sink percentile baseline candidate claimantId before after))
  | none => .ok none

def compositionalAlabama (regexes : RegexEngine) (graph : GovernanceGraph) (claims : List GovernanceClaim) :
    Except LegitimacyError (Option GraphParadoxViolation) := do
  let baseline ← traverseFinalDecisions regexes graph claims
  let probes := (sinkNodes graph).flatMap fun sink => reviewPercentiles.map fun percentile => (sink, percentile)
  probes.findSomeM? (probeReview regexes graph claims baseline)

section

variable {graph : GovernanceGraph}

theorem visible_of_alphanum {character : Char} (alphanum : character.isAlphanum = true) : isWhitespace character = false := by
  delta Char.isAlphanum Char.isAlpha Char.isUpper Char.isLower Char.isDigit at alphanum
  simp only [Bool.or_eq_true, Bool.and_eq_true, decide_eq_true_eq, ge_iff_le, UInt32.le_iff_toNat_le] at alphanum
  have upper : 'A'.val.toNat = 65 ∧ 'Z'.val.toNat = 90 := ⟨rfl, rfl⟩
  have lower : 'a'.val.toNat = 97 ∧ 'z'.val.toNat = 122 := ⟨rfl, rfl⟩
  have digits : '0'.val.toNat = 48 ∧ '9'.val.toNat = 57 := ⟨rfl, rfl⟩
  have point : character.toNat = character.val.toNat := rfl
  simp only [isWhitespace, Bool.or_eq_false_iff, Bool.and_eq_false_iff, decide_eq_false_iff_not, beq_eq_false_iff_ne]
  omega

theorem sanitizeNodeId_nonBlank (value : String) : isBlank (sanitizeNodeId value) = false := by
  unfold isBlank sanitizeNodeId
  dsimp only
  split
  · decide
  · rename_i mixed
    rw [String.toList_ofList, List.all_eq_false]
    rw [List.all_eq_true] at mixed
    push Not at mixed
    obtain ⟨character, listed, -⟩ := mixed
    refine ⟨character, listed, ?_⟩
    obtain ⟨original, -, rfl⟩ := List.mem_map.1 listed
    split
    · rename_i keeps
      simp only [Bool.or_eq_true, decide_eq_true_eq] at keeps
      rcases keeps with (alphanum | rfl) | rfl
      · simp [visible_of_alphanum alphanum]
      · decide
      · decide
    · decide

theorem candidateName_nonBlank {base : String} (visible : isBlank base = false) (suffix : Nat) : isBlank (candidateName base suffix) = false :=
  suffixed_nonBlank "-" visible suffix

theorem candidateName_injective {base : String} {first second : Nat} (same : candidateName base first = candidateName base second) :
    first = second := suffixed_injective (by decide : 0 < "-".length) same

def candidateId (namePrefix : String) (suffix : Nat) : NodeId :=
  ⟨candidateName (sanitizeNodeId namePrefix) suffix, candidateName_nonBlank (sanitizeNodeId_nonBlank namePrefix) suffix⟩

theorem newCandidate_eq (namePrefix : String) (suffix : Nat) :
    NodeId.new (candidateName (sanitizeNodeId namePrefix) suffix) = .ok (candidateId namePrefix suffix) :=
  newNodeId_eq _

theorem freshNodeIdLoop_eq {namePrefix : String} (turns : Nat) {start fuel : Nat}
    (taken : ∀ index < turns, candidateId namePrefix (start + index) ∈ graph.nodes)
    (free : candidateId namePrefix (start + turns) ∉ graph.nodes) (enough : turns < fuel) :
    freshNodeIdLoop graph (sanitizeNodeId namePrefix) fuel start = .ok (candidateId namePrefix (start + turns)) := by
  induction turns generalizing start fuel with
  | zero =>
    obtain ⟨rest, rfl⟩ := Nat.exists_eq_succ_of_ne_zero (by omega : fuel ≠ 0)
    refine bind_eq_ok.2 ⟨_, newCandidate_eq namePrefix start, ?_⟩
    rw [if_pos (by simpa using free)]
    rfl
  | succ turns ih =>
    obtain ⟨rest, rfl⟩ := Nat.exists_eq_succ_of_ne_zero (by omega : fuel ≠ 0)
    refine bind_eq_ok.2 ⟨_, newCandidate_eq namePrefix start, ?_⟩
    have here : candidateId namePrefix start ∈ graph.nodes := taken 0 (by omega)
    have shift : ∀ index, start + 1 + index = start + (index + 1) := fun index => by omega
    rw [if_neg (by simpa using here)]
    have later := @ih (start + 1) rest (fun index below => shift index ▸ taken (index + 1) (by omega)) (shift turns ▸ free) (by omega)
    rw [later, shift]

theorem freshNodeId_eq (graph : GovernanceGraph) (namePrefix : String) : ∃ suffix, candidateId namePrefix suffix ∉ graph.nodes ∧
    (∀ earlier < suffix, candidateId namePrefix earlier ∈ graph.nodes) ∧
      freshNodeId graph namePrefix = .ok (candidateId namePrefix suffix) := by
  classical
  have injective : Function.Injective (candidateId namePrefix) := fun first second same =>
    candidateName_injective (congrArg NodeId.asStr same)
  obtain ⟨index, bound, free⟩ := exists_free_id graph injective
  have some : ∃ suffix, candidateId namePrefix suffix ∉ graph.nodes := ⟨index, free⟩
  have earlier : ∀ other < Nat.find some, candidateId namePrefix other ∈ graph.nodes := fun other below => not_not.1 (Nat.find_min some below)
  have first : Nat.find some ≤ index := Nat.find_min' some free
  refine ⟨Nat.find some, Nat.find_spec some, earlier, ?_⟩
  have found := @freshNodeIdLoop_eq graph namePrefix (Nat.find some) 0 (graph.nodes.size + 1)
  rw [Nat.zero_add] at found
  exact found (fun other below => (Nat.zero_add other).symm ▸ earlier other below) (Nat.find_spec some) (by omega)

end

section

variable {regexes : RegexEngine} {graph : GovernanceGraph} {claims : List GovernanceClaim} {sink reviewId : NodeId} {percentile : Float}
  {decisions : BTreeMap ClaimantId Decision}

theorem mem_sinkNodes : sink ∈ sinkNodes graph ↔ sink ∈ graph.nodes ∧ ∀ next, ¬graph.Edge sink next := by
  unfold sinkNodes
  rw [mem_sorted, List.mem_filter, Std.ExtTreeMap.mem_keys, Bool.not_eq_true', List.any_eq_false]
  refine and_congr_right fun _ => ?_
  constructor
  · rintro leaf next ⟨edge, listed, source, -⟩
    exact leaf edge listed (decide_eq_true source)
  · intro leaf edge listed source
    exact leaf edge.toNode ⟨edge, listed, of_decide_eq_true source, rfl⟩

theorem appendReview_eq (isSink : sink ∈ sinkNodes graph) (percentile : Float) :
    ∃ reviewId, StageAfter graph [sink] (reviewNode reviewId sink percentile) ∧
      appendReview graph sink percentile = .ok (reviewId, graph.withStage [sink] (reviewNode reviewId sink percentile)) := by
  obtain ⟨known, leaf⟩ := mem_sinkNodes.1 isSink
  obtain ⟨suffix, fresh, -, found⟩ := freshNodeId_eq graph (sink.asStr ++ "-review")
  refine ⟨_, ⟨?_, ?_, List.cons_ne_nil _ _, fresh, rfl⟩, bind_eq_ok.2 ⟨_, found, rfl⟩⟩
  · intro exit isExit
    exact List.mem_singleton.1 isExit ▸ known
  · intro exit isExit
    exact List.mem_singleton.1 isExit ▸ leaf

theorem reviewNode_decides (cohort : List GovernanceClaim) (claim : GovernanceClaim) :
    ∃ decision, claimDecision regexes (reviewNode reviewId sink percentile) cohort claim = .ok decision ∧ decision ≠ .escalate := by
  have gate : ∃ hit, gateMatches regexes claim cohort (.peerRelative "strength" percentile .permit) = .ok hit :=
    ⟨_, evaluatePeerRelative_strength claim cohort percentile⟩
  obtain ⟨hit, matched⟩ := gate
  have gates : matchedDecisions regexes claim cohort [.peerRelative "strength" percentile .permit] =
      .ok (if hit then [.permit] else []) := bind_eq_ok.2 ⟨hit, matched, rfl⟩
  cases hit with
  | true => exact ⟨.permit, bind_eq_ok.2 ⟨_, gates, rfl⟩, by decide⟩
  | false => exact ⟨.deny, bind_eq_ok.2 ⟨_, gates, rfl⟩, by decide⟩

/-- What a review after a sink leaves as it was. -/
structure TouchesEscalations (before after : BTreeMap ClaimantId Decision) : Prop where
  keeps : ∀ (claimant : ClaimantId) decision, before[claimant]? = some decision → decision ≠ .escalate → after[claimant]? = some decision
  unknown : ∀ claimant : ClaimantId, before[claimant]? = none → after[claimant]? = none

theorem review_touches (closed : graph.Closed) (acyclic : graph.Acyclic) (stage : StageAfter graph [sink] (reviewNode reviewId sink percentile))
    (run : traverseFinalDecisions regexes graph claims = .ok decisions) {flow : NodeId → Set GovernanceClaim}
    (isFlow : (claimNetwork regexes graph claims).IsFlow flow) :
    ∃ after, traverseFinalDecisions regexes (graph.withStage [sink] (reviewNode reviewId sink percentile)) claims = .ok after ∧
      TouchesEscalations decisions after ∧
      ((∀ claim, ¬Decides regexes graph sink (flow sink) claim .escalate) → after = decisions) := by
  obtain ⟨other, after, isOther, ⟨cohort, -, feed⟩, records, traversed, newRecords⟩ := traverseFinalDecisions_staged stage closed acyclic
    (fun cohort _ claim _ => (reviewNode_decides cohort claim).imp fun _ both => both.1) run
  obtain rfl := isFlow.unique acyclic.wellFounded isOther
  have sinkLeaf := stage.leaf sink (List.mem_singleton_self sink)
  have sinkKnown := stage.known sink (List.mem_singleton_self sink)
  -- what reaches the review was an escalation that counted
  have reviewed : ∀ {claimant : ClaimantId} {decision : Decision}, (∃ claim, claim.claimantId = claimant ∧
      Decides regexes (graph.withStage [sink] (reviewNode reviewId sink percentile)) reviewId (escalatedAt regexes graph flow [sink]) claim
        decision) → decision ≠ .escalate ∧ .escalate ∈ decidedOn regexes graph flow (· ∈ graph.nodes) claimant ∧
          ∃ claim, Decides regexes graph sink (flow sink) claim .escalate := by
    rintro claimant decision ⟨claim, sameId, decides⟩
    obtain ⟨member, made⟩ := (decides_iff staged_stage feed).1 decides
    obtain ⟨exit, isExit, -, escalates⟩ := (feed.mem_iff claim).1 member
    obtain rfl := List.mem_singleton.1 isExit
    obtain ⟨settled, again, stays⟩ := @reviewNode_decides regexes exit reviewId percentile cohort claim
    obtain rfl := Except.ok.inj (made.symm.trans again)
    exact ⟨stays, ⟨exit, sinkKnown, claim, sameId, escalates, fun both => both.2.elim sinkLeaf⟩, claim, escalates⟩
  have keptOf : ∀ {claimant : ClaimantId} {decision : Decision}, decision ≠ .escalate →
      decision ∈ decidedOn regexes graph flow (· ∈ graph.nodes) claimant → decision ∈ keptDecisions regexes graph flow [sink] claimant := by
    rintro claimant decision stays ⟨node, inGraph, claim, sameId, decides, -⟩
    exact ⟨node, inGraph, claim, sameId, decides, fun both => stays both.1⟩
  have ofKept : ∀ {claimant : ClaimantId} {decision : Decision}, decision ∈ keptDecisions regexes graph flow [sink] claimant →
      decision ∈ decidedOn regexes graph flow (· ∈ graph.nodes) claimant := by
    rintro claimant decision ⟨node, inGraph, claim, sameId, decides, counts⟩
    exact ⟨node, inGraph, claim, sameId, decides, fun both => counts ⟨both.1, Or.inl both.2⟩⟩
  refine ⟨after, traversed, ⟨?_, ?_⟩, ?_⟩
  · intro claimant decision found stays
    have least := (records claimant decision).1 found
    refine (newRecords claimant decision).2 ⟨Or.inl (keptOf stays least.1), ?_⟩
    rintro other (kept | atReview)
    · exact least.2 other (ofKept kept)
    · obtain ⟨-, escalated, -⟩ := reviewed atReview
      -- an escalation that counted leaves only the denial as the least decision
      have below := least.2 .escalate escalated
      cases decision with
      | deny => exact Nat.zero_le _
      | escalate => exact absurd rfl stays
      | permit => exact absurd below (by decide)
  · intro claimant found
    have nothing := records.none_iff.1 found
    refine newRecords.none_iff.2 (Set.eq_empty_of_forall_notMem ?_)
    rintro decision (kept | atReview)
    · exact Set.notMem_empty decision (nothing ▸ ofKept kept)
    · exact Set.notMem_empty Decision.escalate (nothing ▸ (reviewed atReview).2.1)
  · intro none
    refine (newRecords.congr fun claimant decision => ?_).unique records
    constructor
    · rintro (kept | atReview)
      · exact ofKept kept
      · obtain ⟨claim, escalates⟩ := (reviewed atReview).2.2
        exact absurd escalates (none claim)
    · rintro ⟨node, inGraph, claim, sameId, decides, counts⟩
      refine Or.inl ⟨node, inGraph, claim, sameId, decides, ?_⟩
      rintro ⟨rfl, ⟨next, link⟩ | isExit⟩
      · exact counts ⟨rfl, next, link⟩
      · exact none claim (List.mem_singleton.1 isExit ▸ decides)

theorem firstWorsening_self (decisions : BTreeMap ClaimantId Decision) (claims : List GovernanceClaim) :
    firstWorsening decisions decisions claims = none := by
  simp [firstWorsening]

theorem TouchesEscalations.worsening {before after : BTreeMap ClaimantId Decision} (touches : TouchesEscalations before after)
    {claimant : ClaimantId} {original perturbed : Decision} (found : firstWorsening before after claims = some (claimant, original, perturbed)) :
    original = .escalate ∧ perturbed = .deny ∧ before[claimant]? = some .escalate ∧ after[claimant]? = some .deny := by
  obtain ⟨other, -, compared⟩ := List.exists_of_findSome?_eq_some found
  dsimp only at compared
  split at compared
  · rename_i lower
    obtain ⟨rfl, rfl, rfl⟩ := Option.some.inj compared
    cases atBefore : before[claimant]? with
    | none =>
      rw [atBefore, touches.unknown claimant atBefore] at lower
      exact absurd lower (by decide)
    | some decision =>
      by_cases escalated : decision = .escalate
      · subst escalated
        rw [atBefore] at lower
        cases atAfter : after[claimant]? with
        | none =>
          rw [atAfter] at lower
          exact absurd lower (by decide)
        | some settled =>
          rw [atAfter] at lower
          cases settled with
          | deny => exact ⟨rfl, rfl, rfl, rfl⟩
          | escalate => exact absurd lower (by decide)
          | permit => exact absurd lower (by decide)
      · rw [atBefore, touches.keeps claimant decision atBefore escalated] at lower
        exact absurd lower (Nat.lt_irrefl _)
  · cases compared

theorem captured_of_traversal (closed : graph.Closed) (acyclic : graph.Acyclic) {flow : NodeId → Set GovernanceClaim}
    (isFlow : (claimNetwork regexes graph claims).IsFlow flow) {result : TraversalResult} (run : traverse regexes graph claims = .ok result)
    {node : NodeId} (known : node ∈ graph.nodes) :
    ∃ decisions, result.nodeDecisions[node]? = some decisions ∧ DecisionsOf regexes graph node (flow node) decisions := by
  have plain := plain_of_traversal closed acyclic (traverse_final run)
  obtain ⟨⟨entries, final⟩, traversed, made⟩ := bind_eq_ok.1 run
  obtain rfl := Except.ok.inj made
  obtain ⟨validated, -, order, legal, looped⟩ := traverseClaims_run closed acyclic traversed
  have batch := validBatch_of_validated validated
  have inv := run_sound (traversal_parts regexes batch) legal plain isFlow (claimNetwork_within acyclic isFlow) batch true looped
  obtain ⟨captured, held⟩ := Option.isSome_iff_exists.1 (captures_run looped)
  obtain ⟨decisions, found, decided⟩ := (inv.captured captured held node).1 ((legal.complete node).2 known)
  exact ⟨decisions, by simpa [held] using found, decided⟩

theorem probeReview_ok (closed : graph.Closed) (acyclic : graph.Acyclic)
    (run : traverseFinalDecisions regexes graph claims = .ok decisions) (isSink : sink ∈ sinkNodes graph) (percentile : Float) :
    ∃ reviewId perturbed after, appendReview graph sink percentile = .ok (reviewId, perturbed) ∧
      traverseFinalDecisions regexes perturbed claims = .ok after ∧ TouchesEscalations decisions after ∧
      ∃ outcome, probeReview regexes graph claims decisions (sink, percentile) = .ok outcome ∧ ∀ violation, outcome = some violation →
        ∃ claimant, decisions[claimant]? = some .escalate ∧ after[claimant]? = some .deny ∧
          violation = worseningViolation reviewId sink percentile decisions after claimant .escalate .deny := by
  obtain ⟨reviewId, stage, appended⟩ := appendReview_eq isSink percentile
  obtain ⟨flow, isFlow⟩ := exists_claimFlow regexes claims acyclic
  obtain ⟨after, traversed, touches, -⟩ := review_touches closed acyclic stage run isFlow
  refine ⟨reviewId, _, after, appended, traversed, touches, ?_⟩
  cases found : firstWorsening decisions after claims with
  | none =>
    refine ⟨none, bind_eq_ok.2 ⟨_, appended, bind_eq_ok.2 ⟨_, traversed, ?_⟩⟩, nofun⟩
    rw [found]
  | some worsening =>
    obtain ⟨claimant, original, perturbed⟩ := worsening
    obtain ⟨rfl, rfl, atBefore, atAfter⟩ := touches.worsening found
    refine ⟨some (worseningViolation reviewId sink percentile decisions after claimant .escalate .deny),
      bind_eq_ok.2 ⟨_, appended, bind_eq_ok.2 ⟨_, traversed, ?_⟩⟩, ?_⟩
    · rw [found]
    · intro violation same
      exact ⟨claimant, atBefore, atAfter, (Option.some.inj same).symm⟩

theorem compositionalAlabama_ok (closed : graph.Closed) (acyclic : graph.Acyclic)
    (run : traverseFinalDecisions regexes graph claims = .ok decisions) :
    ∃ outcome, compositionalAlabama regexes graph claims = .ok outcome ∧ ∀ violation, outcome = some violation →
      ∃ sink ∈ sinkNodes graph, ∃ percentile ∈ reviewPercentiles,
        probeReview regexes graph claims decisions (sink, percentile) = .ok (some violation) := by
  have probes : ∀ probe ∈ (sinkNodes graph).flatMap fun sink => reviewPercentiles.map fun percentile => (sink, percentile),
      probe.1 ∈ sinkNodes graph ∧ probe.2 ∈ reviewPercentiles := by
    intro probe listed
    obtain ⟨sink, isSink, listed⟩ := List.mem_flatMap.1 listed
    obtain ⟨percentile, isPercentile, rfl⟩ := List.mem_map.1 listed
    exact ⟨isSink, isPercentile⟩
  obtain ⟨outcome, searched⟩ := @exists_findSomeM _ _ _ (probeReview regexes graph claims decisions) _ fun probe listed => by
    obtain ⟨-, -, -, -, -, -, outcome, probed, -⟩ := probeReview_ok closed acyclic run (probes probe listed).1 probe.2
    exact ⟨outcome, probed⟩
  refine ⟨outcome, bind_eq_ok.2 ⟨decisions, run, searched⟩, ?_⟩
  rintro violation rfl
  obtain ⟨probe, listed, probed⟩ := findSomeM_some searched
  exact ⟨probe.1, (probes probe listed).1, probe.2, (probes probe listed).2, probed⟩

/-- A review appended to a sink touches escalations only, so a reported violation is an escalation that became a denial. -/
theorem appended_review_touches_escalations (regexes : RegexEngine) (graph : GovernanceGraph) (claims : List GovernanceClaim)
    (result : TraversalResult) (valid : validateGovernanceGraph regexes graph = .ok ()) (acyclic : graph.Acyclic)
    (run : traverse regexes graph claims = .ok result) :
    (∀ sink ∈ sinkNodes graph, ∀ percentile ∈ reviewPercentiles, ∃ reviewId perturbed after,
      appendReview graph sink percentile = .ok (reviewId, perturbed) ∧ traverse regexes perturbed claims = .ok after ∧
        ∀ (claimant : ClaimantId) (decision : Decision), result.finalDecisions[claimant]? = some decision →
          decision = .permit ∨ decision = .deny →
          after.finalDecisions[claimant]? = some decision) ∧
    (∃ outcome, compositionalAlabama regexes graph claims = .ok outcome ∧
      (∀ violation, outcome = some violation → ∃ sink ∈ sinkNodes graph, ∃ percentile ∈ reviewPercentiles, ∃ reviewId after claimant,
        violation = worseningViolation reviewId sink percentile result.finalDecisions after claimant .escalate .deny ∧
          result.finalDecisions[claimant]? = some .escalate ∧ after[claimant]? = some .deny) ∧
      ((∀ sink ∈ sinkNodes graph, ∀ decisions, result.nodeDecisions[sink]? = some decisions →
        ∀ decision ∈ decisions, decision.decision ≠ .escalate) → outcome = none)) ∧
    ∀ namePrefix, ∃ suffix, candidateId namePrefix suffix ∉ graph.nodes ∧
      (∀ earlier < suffix, candidateId namePrefix earlier ∈ graph.nodes) ∧
        freshNodeId graph namePrefix = .ok (candidateId namePrefix suffix) := by
  have closed := closed_of_valid valid
  have final := traverse_final run
  refine ⟨?_, ?_, freshNodeId_eq graph⟩
  · intro sink isSink percentile _
    obtain ⟨reviewId, perturbed, decisions, appended, traversed, touches, -⟩ := probeReview_ok closed acyclic final isSink percentile
    obtain ⟨after, afterRun, rfl⟩ := exists_traversal traversed
    refine ⟨reviewId, perturbed, after, appended, afterRun, fun claimant decision found settled => touches.keeps claimant decision found ?_⟩
    rcases settled with rfl | rfl <;> decide
  · obtain ⟨outcome, searched, reported⟩ := compositionalAlabama_ok closed acyclic final
    refine ⟨outcome, searched, ?_, ?_⟩
    · intro violation found
      obtain ⟨sink, isSink, percentile, isPercentile, probed⟩ := reported violation found
      obtain ⟨reviewId, -, after, -, -, -, outcome, again, worsened⟩ := probeReview_ok closed acyclic final isSink percentile
      obtain ⟨claimant, atBefore, atAfter, same⟩ := worsened violation (Except.ok.inj (again.symm.trans probed))
      exact ⟨sink, isSink, percentile, isPercentile, reviewId, after, claimant, same, atBefore, atAfter⟩
    · intro settled
      cases outcome with
      | none => rfl
      | some violation =>
        obtain ⟨sink, isSink, percentile, -, probed⟩ := reported violation rfl
        obtain ⟨flow, isFlow⟩ := exists_claimFlow regexes claims acyclic
        obtain ⟨decisions, captured, decided⟩ := captured_of_traversal closed acyclic isFlow run (mem_sinkNodes.1 isSink).1
        have none : ∀ claim, ¬Decides regexes graph sink (flow sink) claim .escalate := fun claim escalates =>
          settled sink isSink decisions captured _ ((decided.mem_iff _ _).2 ⟨claim, rfl, escalates⟩) rfl
        obtain ⟨reviewId, stage, appended⟩ := appendReview_eq isSink percentile
        obtain ⟨after, traversed, -, unchanged⟩ := review_touches closed acyclic stage final isFlow
        have nothing : probeReview regexes graph claims result.finalDecisions (sink, percentile) = .ok Option.none := by
          refine bind_eq_ok.2 ⟨_, appended, bind_eq_ok.2 ⟨_, traversed, ?_⟩⟩
          rw [unchanged none, firstWorsening_self]
        cases probed.symm.trans nothing

theorem appended_review_touches_escalations_fork :
    ∃ outcome, compositionalAlabama .error forkGraph [plainClaim "a" 0.25, plainClaim "b" 0.5, plainClaim "c" 1] = .ok outcome := by
  obtain ⟨result, run⟩ := exists_of_toBool (show (traverse .error forkGraph
    [plainClaim "a" 0.25, plainClaim "b" 0.5, plainClaim "c" 1]).toBool = true by decide +kernel)
  obtain ⟨-, ⟨outcome, searched, -⟩, -⟩ := appended_review_touches_escalations .error forkGraph _ result (by decide +kernel)
    (acyclic_of_ascending (by decide)) run
  exact ⟨outcome, searched⟩

end

end Paradox

end Legitimacy
