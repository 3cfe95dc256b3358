import Legitimacy.Extract.AxiomAudit
import Legitimacy.Sacrifice
import Legitimacy.TraversalOutcome

namespace Legitimacy

open ExceptRun

section

open Diagnostics Protocol

variable {regexes : RegexEngine} {graph : GovernanceGraph} {claims : List GovernanceClaim}

def Ends (regexes : RegexEngine) (graph : GovernanceGraph) (claims : List GovernanceClaim) (claimantId : ClaimantId)
    (decision : Decision) : Prop :=
  ∃ result, traverse regexes graph claims = .ok result ∧ result.finalDecisions[claimantId]? = some decision

theorem Ends.unique {claimantId : ClaimantId} {first second : Decision} (left : Ends regexes graph claims claimantId first)
    (right : Ends regexes graph claims claimantId second) : first = second := by
  obtain ⟨result, run, found⟩ := left
  obtain ⟨other, run', found'⟩ := right
  obtain rfl := Except.ok.inj (run.symm.trans run')
  exact Option.some.inj (found.symm.trans found')

theorem ends_of_final {claimantId : ClaimantId} {decision : Decision} {decisions : BTreeMap ClaimantId Decision}
    (run : traverseFinalDecisions regexes graph claims = .ok decisions) (found : decisions[claimantId]? = some decision) :
    Ends regexes graph claims claimantId decision := by
  obtain ⟨result, traversed, rfl⟩ := exists_traversal run
  exact ⟨result, traversed, found⟩

/-- The claim at `index` does better than `trueDecision` when it reports another strength. -/
def Gains (regexes : RegexEngine) (graph : GovernanceGraph) (claims : List GovernanceClaim) (claimantId : ClaimantId) (index : Nat)
    (trueDecision : Decision) (reported : Float) : Prop :=
  ∃ decision, Ends regexes graph (misreport claims index reported) claimantId decision ∧ decisionRank trueDecision < decisionRank decision

def MisreportPays (regexes : RegexEngine) (graph : GovernanceGraph) (claims : List GovernanceClaim) (reports : Float → List Float) : Prop :=
  ∃ claim index trueDecision reported, (claim, index) ∈ claims.zipIdx ∧ Ends regexes graph claims claim.claimantId trueDecision ∧
    reported ∈ reports claim.strength ∧ Gains regexes graph claims claim.claimantId index trueDecision reported

/-- The strengths that the audit tries: the true one moved by a delta, as far as it stays a positive number. -/
def movedReports (deltas : List Float) (strength : Float) : List Float :=
  (deltas.map (strength + ·)).filter fun reported => reported.isFinite && !decide (reported ≤ 0)

/-- The strengths that the protocol and the compilation try. -/
def scaledReports (factors : List Float) (strength : Float) : List Float := factors.map (strength * ·)

theorem deltaLoop_some {original : Baseline} {misreporter : GovernanceClaim} {index : Nat} {trueDecision : Decision} {deltas : List Float}
    {tested tested' : Nat} {found : Option Counterexample}
    (run : deltaLoop regexes graph claims original misreporter index trueDecision deltas tested = .ok (found, tested')) :
    found ≠ none ↔ ∃ reported ∈ movedReports deltas misreporter.strength,
      Gains regexes graph claims misreporter.claimantId index trueDecision reported := by
  induction deltas generalizing tested with
  | nil =>
    obtain ⟨rfl, -⟩ := Prod.mk.inj (Except.ok.inj run)
    simp [movedReports]
  | cons delta rest ih =>
    unfold deltaLoop at run
    dsimp only at run
    unfold movedReports at ih ⊢
    rw [List.map_cons, List.filter_cons]
    by_cases refused : ¬(misreporter.strength + delta).isFinite ∨ misreporter.strength + delta ≤ 0
    · rw [if_pos refused] at run
      rw [if_neg (by simpa [or_iff_not_imp_left] using refused)]
      exact ih run
    · rw [if_neg refused] at run
      rw [if_pos (by simpa [not_or] using refused)]
      obtain ⟨decisions, traversed, run⟩ := bind_eq_ok.1 run
      obtain ⟨allocation, -, run⟩ := bind_eq_ok.1 run
      obtain ⟨decision, looked, run⟩ := bind_eq_ok.1 run
      have ends := ends_of_final traversed (decisionOf_eq_ok looked)
      by_cases improves : decisionRank trueDecision < decisionRank decision
      · rw [if_pos improves] at run
        obtain ⟨counterexample, -, made⟩ := bind_eq_ok.1 run
        obtain ⟨rfl, -⟩ := Prod.mk.inj (Except.ok.inj made)
        exact ⟨fun _ => ⟨_, List.mem_cons_self, decision, ends, improves⟩, fun _ => nofun⟩
      · rw [if_neg improves] at run
        rw [ih run]
        constructor
        · rintro ⟨reported, member, gains⟩
          exact ⟨reported, List.mem_cons_of_mem _ member, gains⟩
        · rintro ⟨reported, member, gains⟩
          rcases List.mem_cons.1 member with rfl | later
          · obtain ⟨other, ends', better⟩ := gains
            exact absurd (ends.unique ends' ▸ better) improves
          · exact ⟨reported, later, gains⟩

theorem misreporterLoop_rejected {original : Baseline} {misreporters : List (GovernanceClaim × Nat)} {tested : Nat} {verdict : Verdict}
    (decided : traverseFinalDecisions regexes graph claims = .ok original.decisions)
    (run : misreporterLoop regexes graph claims original misreporters tested = .ok verdict) :
    verdictAxiom verdict = "graph strategyproofness" ∧
      ((∃ axiomName counterexample, verdict = .rejected axiomName counterexample) ↔
        ∃ claim index trueDecision reported, (claim, index) ∈ misreporters ∧ Ends regexes graph claims claim.claimantId trueDecision ∧
          reported ∈ movedReports misreportDeltas claim.strength ∧
          Gains regexes graph claims claim.claimantId index trueDecision reported) := by
  induction misreporters generalizing tested with
  | nil =>
    obtain rfl := Except.ok.inj run
    exact ⟨rfl, nofun, nofun⟩
  | cons first rest ih =>
    obtain ⟨misreporter, index⟩ := first
    obtain ⟨trueDecision, looked, run⟩ := bind_eq_ok.1 run
    obtain ⟨⟨found, count⟩, searched, run⟩ := bind_eq_ok.1 run
    have ends := ends_of_final decided (decisionOf_eq_ok looked)
    have here := deltaLoop_some searched
    cases found with
    | some counterexample =>
      obtain rfl := Except.ok.inj run
      obtain ⟨reported, offered, gains⟩ := here.1 nofun
      exact ⟨rfl, fun _ => ⟨misreporter, index, trueDecision, reported, List.mem_cons_self, ends, offered, gains⟩,
        fun _ => ⟨_, counterexample, rfl⟩⟩
    | none =>
      obtain ⟨named, later⟩ := ih run
      refine ⟨named, later.trans ⟨?_, ?_⟩⟩
      · rintro ⟨claim, position, decision, reported, member, rest⟩
        exact ⟨claim, position, decision, reported, List.mem_cons_of_mem _ member, rest⟩
      · rintro ⟨claim, position, decision, reported, member, ends', offered, gains⟩
        rcases List.mem_cons.1 member with same | member
        · obtain ⟨rfl, rfl⟩ := Prod.mk.inj same
          obtain rfl := ends.unique ends'
          exact absurd rfl (here.2 ⟨reported, offered, gains⟩)
        · exact ⟨claim, position, decision, reported, member, ends', offered, gains⟩

theorem checkGraphStrategyproofness_rejected {verdict : Verdict} (checked : checkGraphStrategyproofness regexes graph claims = .ok verdict) :
    verdictAxiom verdict = "graph strategyproofness" ∧
      ((∃ axiomName counterexample, verdict = .rejected axiomName counterexample) ↔
        MisreportPays regexes graph claims (movedReports misreportDeltas)) := by
  obtain ⟨original, based, looped⟩ := bind_eq_ok.1 checked
  obtain ⟨decisions, decided, based⟩ := bind_eq_ok.1 based
  obtain ⟨allocation, -, based⟩ := bind_eq_ok.1 based
  obtain ⟨converted, -, based⟩ := bind_eq_ok.1 based
  obtain ⟨estate, -, made⟩ := bind_eq_ok.1 based
  obtain rfl := Except.ok.inj made
  exact misreporterLoop_rejected decided looped

theorem strictlyImproves_ranks (candidate base : Decision) :
    strictlyImproves (decisionRank candidate).toFloat (decisionRank base).toFloat = decide (decisionRank base < decisionRank candidate) := by
  cases candidate <;> cases base <;> decide +kernel

theorem scoreFor_final {decisions : BTreeMap ClaimantId Decision} {claimantId : ClaimantId} {context : String} {score : Float}
    (scored : scoreFor (finalDecisionScores decisions) claimantId context = .ok score) :
    ∃ decision, decisions[claimantId]? = some decision ∧ score = (decisionRank decision).toFloat := by
  unfold scoreFor finalDecisionScores at scored
  rw [Std.ExtTreeMap.getElem?_map] at scored
  cases known : decisions[claimantId]? with
  | none =>
    rw [known] at scored
    cases scored
  | some decision =>
    rw [known] at scored
    exact ⟨decision, rfl, (Except.ok.inj scored).symm⟩

theorem misreportLoop_some {claim : GovernanceClaim} {index : Nat} {trueDecision : Decision} {factors : List Float}
    {found : Option StrategyproofnessVerdict}
    (run : misreportLoop regexes graph claims claim index (decisionRank trueDecision).toFloat factors = .ok found) :
    (found = none ∨ ∃ verdict, found = some verdict ∧ verdict.witness ≠ none) ∧
      (found ≠ none ↔ ∃ reported ∈ scaledReports factors claim.strength,
        Gains regexes graph claims claim.claimantId index trueDecision reported) := by
  induction factors with
  | nil =>
    obtain rfl := Except.ok.inj run
    simp [scaledReports]
  | cons factor rest ih =>
    unfold misreportLoop at run
    obtain ⟨manipulated, traversed, run⟩ := bind_eq_ok.1 run
    obtain ⟨score, scored, run⟩ := bind_eq_ok.1 run
    obtain ⟨decision, looked, rfl⟩ := scoreFor_final scored
    have ends : Ends regexes graph (misreport claims index (claim.strength * factor)) claim.claimantId decision :=
      ⟨manipulated, traversed, looked⟩
    rw [strictlyImproves_ranks] at run
    by_cases improves : decisionRank trueDecision < decisionRank decision
    · rw [if_pos (decide_eq_true improves)] at run
      obtain rfl := Except.ok.inj run
      exact ⟨.inr ⟨_, rfl, nofun⟩, fun _ => ⟨_, List.mem_cons_self, decision, ends, improves⟩, fun _ => nofun⟩
    · rw [if_neg (by simpa using improves)] at run
      obtain ⟨shape, later⟩ := ih run
      refine ⟨shape, later.trans ⟨?_, ?_⟩⟩
      · rintro ⟨reported, member, gains⟩
        exact ⟨reported, List.mem_cons_of_mem _ member, gains⟩
      · rintro ⟨reported, member, gains⟩
        rcases List.mem_cons.1 member with rfl | member
        · obtain ⟨other, ends', better⟩ := gains
          exact absurd (ends.unique ends' ▸ better) improves
        · exact ⟨reported, member, gains⟩

theorem manipulationLoop_manipulable {result : TraversalResult} {manipulators : List (GovernanceClaim × Nat)}
    {verdict : StrategyproofnessVerdict} (decided : traverse regexes graph claims = .ok result)
    (run : manipulationLoop regexes graph claims (finalDecisionScores result.finalDecisions) manipulators = .ok verdict) :
    verdict.witness ≠ none ↔
      ∃ claim index trueDecision reported, (claim, index) ∈ manipulators ∧ Ends regexes graph claims claim.claimantId trueDecision ∧
        reported ∈ scaledReports misreportFactors claim.strength ∧
        Gains regexes graph claims claim.claimantId index trueDecision reported := by
  induction manipulators with
  | nil =>
    obtain rfl := Except.ok.inj run
    exact ⟨fun manipulable => absurd rfl manipulable, nofun⟩
  | cons first rest ih =>
    obtain ⟨claim, index⟩ := first
    obtain ⟨score, scored, run⟩ := bind_eq_ok.1 run
    obtain ⟨trueDecision, looked, rfl⟩ := scoreFor_final scored
    obtain ⟨found, searched, run⟩ := bind_eq_ok.1 run
    have ends : Ends regexes graph claims claim.claimantId trueDecision := ⟨result, decided, looked⟩
    obtain ⟨shape, here⟩ := misreportLoop_some searched
    rcases shape with rfl | ⟨manipulable, rfl, witnessed⟩
    · refine (ih run).trans ⟨?_, ?_⟩
      · rintro ⟨other, position, decision, reported, member, rest⟩
        exact ⟨other, position, decision, reported, List.mem_cons_of_mem _ member, rest⟩
      · rintro ⟨other, position, decision, reported, member, ends', offered, gains⟩
        rcases List.mem_cons.1 member with same | member
        · obtain ⟨rfl, rfl⟩ := Prod.mk.inj same
          obtain rfl := ends.unique ends'
          exact absurd rfl (here.2 ⟨reported, offered, gains⟩)
        · exact ⟨other, position, decision, reported, member, ends', offered, gains⟩
    · obtain rfl := Except.ok.inj run
      obtain ⟨reported, offered, gains⟩ := here.1 nofun
      exact ⟨fun _ => ⟨claim, index, trueDecision, reported, List.mem_cons_self, ends, offered, gains⟩, fun _ => witnessed⟩

theorem checkGraphStrategyproofnessVerdict_manipulable {verdict : StrategyproofnessVerdict}
    (checked : checkGraphStrategyproofnessVerdict regexes graph claims = .ok verdict) :
    verdict.witness ≠ none ↔ MisreportPays regexes graph claims (scaledReports misreportFactors) := by
  obtain ⟨result, decided, looped⟩ := bind_eq_ok.1 checked
  exact manipulationLoop_manipulable decided looped

end

section

open Protocol

variable {regexes : RegexEngine} {graph : GovernanceGraph} {claims : List GovernanceClaim}

variable {outcome : AxiomVerdict} {verdict : Verdict}

theorem requireProtocolKernelVerdict_eq_ok :
    requireProtocolKernelVerdict outcome = .ok verdict ↔ outcome.toVerdict = some verdict := by
  cases outcome <;> simp [requireProtocolKernelVerdict, AxiomVerdict.toVerdict]

theorem requireGraphKernelVerdict_eq_ok :
    Sacrifice.requireGraphKernelVerdict outcome = .ok verdict ↔ outcome.toVerdict = some verdict := by
  cases outcome <;> simp [Sacrifice.requireGraphKernelVerdict, AxiomVerdict.toVerdict]

/-- The outcomes of the eight checks that all three surfaces make; a skip has none. -/
def sharedChecks (regexes : RegexEngine) (graph : GovernanceGraph) (claims : List GovernanceClaim) :
    List (Except LegitimacyError (Option Verdict)) :=
  [(Diagnostics.checkGraphConsistency regexes graph claims).map some,
    (Diagnostics.checkGraphSolidarity regexes graph claims (graphShocks claims)).map some,
    (Diagnostics.monotonicityCheckViaPolaritySchema regexes graph claims (graphDeltas claims)
      Diagnostics.auditMetricPolaritySchema).map some,
    (checkGraphCertifiability regexes graph claims).map AxiomVerdict.toVerdict,
    (Observable.checkGraphObservableDeterminacy regexes graph claims).map AxiomVerdict.toVerdict,
    (checkGraphCorrigibility regexes graph claims).map AxiomVerdict.toVerdict,
    (checkGraphCompositionalSafety regexes graph claims).map AxiomVerdict.toVerdict,
    (checkGraphNonvacuity regexes graph claims).map AxiomVerdict.toVerdict]

theorem map_some_of_ok {checked : Except LegitimacyError Verdict} (passed : checked = .ok verdict) :
    checked.map some = .ok (some verdict) := by
  rw [passed]
  rfl

theorem map_toVerdict_of_ok {checked : Except LegitimacyError AxiomVerdict}
    (passed : checked = .ok outcome) (known : outcome.toVerdict = some verdict) :
    checked.map AxiomVerdict.toVerdict = .ok (some verdict) := by
  rw [passed, ← known]
  rfl

theorem verdict_of_map_some {checked : Except LegitimacyError Verdict} {first second : Verdict} (passed : checked = .ok first)
    (mapped : .ok (some second) = checked.map some) : second = first := by
  rw [passed] at mapped
  exact Option.some.inj (Except.ok.inj mapped)

theorem toVerdict_of_map {checked : Except LegitimacyError AxiomVerdict}
    (passed : checked = .ok outcome) (mapped : .ok (some verdict) = checked.map AxiomVerdict.toVerdict) :
    outcome.toVerdict = some verdict := by
  rw [passed] at mapped
  exact (Except.ok.inj mapped).symm

theorem evaluateGraph_checks {evaluation : GraphEvaluation} (evaluated : evaluateGraph regexes graph claims = .ok evaluation) :
    sharedChecks regexes graph claims = evaluation.axiomVerdicts.map (fun verdict => .ok (some verdict)) ∧
      checkGraphStrategyproofnessVerdict regexes graph claims = .ok evaluation.strategyproofness := by
  obtain ⟨consistency, consistent, evaluated⟩ := bind_eq_ok.1 evaluated
  obtain ⟨solidarity, solid, evaluated⟩ := bind_eq_ok.1 evaluated
  obtain ⟨monotonicity, monotone, evaluated⟩ := bind_eq_ok.1 evaluated
  obtain ⟨certifiability, certifiable, evaluated⟩ := bind_eq_ok.1 evaluated
  obtain ⟨certifiability', certified, evaluated⟩ := bind_eq_ok.1 evaluated
  obtain ⟨observable, observed, evaluated⟩ := bind_eq_ok.1 evaluated
  obtain ⟨observable', determined, evaluated⟩ := bind_eq_ok.1 evaluated
  obtain ⟨corrigibility, corrigible, evaluated⟩ := bind_eq_ok.1 evaluated
  obtain ⟨corrigibility', corrected, evaluated⟩ := bind_eq_ok.1 evaluated
  obtain ⟨compositional, composed, evaluated⟩ := bind_eq_ok.1 evaluated
  obtain ⟨compositional', safe, evaluated⟩ := bind_eq_ok.1 evaluated
  obtain ⟨nonvacuity, live, evaluated⟩ := bind_eq_ok.1 evaluated
  obtain ⟨nonvacuity', nonvacuous, evaluated⟩ := bind_eq_ok.1 evaluated
  obtain ⟨strategyproofness, manipulation, made⟩ := bind_eq_ok.1 evaluated
  obtain rfl := Except.ok.inj made
  refine ⟨?_, lift_eq_ok.1 manipulation⟩
  simp only [sharedChecks, List.map_cons, List.map_nil, map_some_of_ok (lift_eq_ok.1 consistent), map_some_of_ok (lift_eq_ok.1 solid),
    map_some_of_ok (lift_eq_ok.1 monotone),
    map_toVerdict_of_ok (lift_eq_ok.1 certifiable) (requireProtocolKernelVerdict_eq_ok.1 certified),
    map_toVerdict_of_ok (lift_eq_ok.1 observed) (requireProtocolKernelVerdict_eq_ok.1 determined),
    map_toVerdict_of_ok (lift_eq_ok.1 corrigible) (requireProtocolKernelVerdict_eq_ok.1 corrected),
    map_toVerdict_of_ok (lift_eq_ok.1 composed) (requireProtocolKernelVerdict_eq_ok.1 safe),
    map_toVerdict_of_ok (lift_eq_ok.1 live) (requireProtocolKernelVerdict_eq_ok.1 nonvacuous)]

theorem compileGraphPayload_checks {unixTimestamp : Except LegitimacyError String} {compiled : Sacrifice.CompiledGraph}
    (run : Sacrifice.compileGraphPayload regexes graph claims unixTimestamp = .ok compiled) :
    sharedChecks regexes graph claims = compiled.axiomVerdicts.map (fun verdict => .ok (some verdict)) ∧
      checkGraphStrategyproofnessVerdict regexes graph claims = .ok compiled.strategyproofness := by
  obtain ⟨consistency, consistent, run⟩ := bind_eq_ok.1 run
  obtain ⟨solidarity, solid, run⟩ := bind_eq_ok.1 run
  obtain ⟨monotonicity, monotone, run⟩ := bind_eq_ok.1 run
  obtain ⟨certifiability, certifiable, run⟩ := bind_eq_ok.1 run
  obtain ⟨certifiability', certified, run⟩ := bind_eq_ok.1 run
  obtain ⟨observable, observed, run⟩ := bind_eq_ok.1 run
  obtain ⟨observable', determined, run⟩ := bind_eq_ok.1 run
  obtain ⟨corrigibility, corrigible, run⟩ := bind_eq_ok.1 run
  obtain ⟨corrigibility', corrected, run⟩ := bind_eq_ok.1 run
  obtain ⟨compositional, composed, run⟩ := bind_eq_ok.1 run
  obtain ⟨compositional', safe, run⟩ := bind_eq_ok.1 run
  obtain ⟨nonvacuity, live, run⟩ := bind_eq_ok.1 run
  obtain ⟨nonvacuity', nonvacuous, run⟩ := bind_eq_ok.1 run
  obtain ⟨strategyproofness, manipulation, run⟩ := bind_eq_ok.1 run
  obtain ⟨compiledAt, -, made⟩ := bind_eq_ok.1 run
  obtain rfl := Except.ok.inj made
  refine ⟨?_, manipulation⟩
  simp only [sharedChecks, List.map_cons, List.map_nil, map_some_of_ok consistent, map_some_of_ok solid, map_some_of_ok monotone,
    map_toVerdict_of_ok certifiable (requireGraphKernelVerdict_eq_ok.1 certified),
    map_toVerdict_of_ok observed (requireGraphKernelVerdict_eq_ok.1 determined),
    map_toVerdict_of_ok corrigible (requireGraphKernelVerdict_eq_ok.1 corrected),
    map_toVerdict_of_ok composed (requireGraphKernelVerdict_eq_ok.1 safe),
    map_toVerdict_of_ok live (requireGraphKernelVerdict_eq_ok.1 nonvacuous)]

theorem eq_of_checks {checks : List (Except LegitimacyError (Option Verdict))} {first second : List Verdict}
    (left : checks = first.map (fun verdict => .ok (some verdict))) (right : checks = second.map (fun verdict => .ok (some verdict))) :
    first = second :=
  (List.map_inj_right fun _ _ same => Option.some.inj (Except.ok.inj same)).1 (left.symm.trans right)

def resultOf (verdict : Verdict) : Extract.ExtractionAxiomResult := ⟨verdictAxiom verdict, some verdict, none⟩

theorem kernelAxiomResult_of_toVerdict (known : outcome.toVerdict = some verdict) :
    Extract.kernelAxiomResult outcome = resultOf verdict := by
  cases outcome <;> cases known <;> rfl

/-- Where the protocol gets its eight verdicts, the audit reports them, with its own verdict on manipulation in the fourth place. -/
theorem runGraphAxiomChecks_results {probeCycles : List (List NodeId) → Except LegitimacyError AxiomVerdict}
    {results : List Extract.ExtractionAxiomResult} {verdicts : List Verdict}
    (audited : Extract.runGraphAxiomChecks regexes probeCycles graph claims false = .ok results)
    (checks : sharedChecks regexes graph claims = verdicts.map (fun verdict => .ok (some verdict))) :
    ∃ strategyproofness, Diagnostics.checkGraphStrategyproofness regexes graph claims = .ok strategyproofness ∧
      results = (verdicts.insertIdx 3 strategyproofness).map resultOf := by
  obtain ⟨certifiability, certifiable, audited⟩ := bind_eq_ok.1 audited
  obtain ⟨observable, observed, audited⟩ := bind_eq_ok.1 audited
  obtain ⟨corrigibility, corrigible, audited⟩ := bind_eq_ok.1 audited
  obtain ⟨compositional, composed, audited⟩ := bind_eq_ok.1 audited
  obtain ⟨nonvacuity, live, audited⟩ := bind_eq_ok.1 audited
  obtain ⟨consistency, consistent, audited⟩ := bind_eq_ok.1 audited
  obtain ⟨solidarity, solid, audited⟩ := bind_eq_ok.1 audited
  obtain ⟨monotonicity, monotone, audited⟩ := bind_eq_ok.1 audited
  obtain ⟨strategyproofness, manipulation, made⟩ := bind_eq_ok.1 audited
  obtain rfl := Except.ok.inj made
  refine ⟨strategyproofness, manipulation, ?_⟩
  obtain ⟨first, verdicts, rfl, atFirst, rest⟩ := List.map_eq_cons_iff.1 checks.symm
  obtain ⟨second, verdicts, rfl, atSecond, rest⟩ := List.map_eq_cons_iff.1 rest
  obtain ⟨third, verdicts, rfl, atThird, rest⟩ := List.map_eq_cons_iff.1 rest
  obtain ⟨fourth, verdicts, rfl, atFourth, rest⟩ := List.map_eq_cons_iff.1 rest
  obtain ⟨fifth, verdicts, rfl, atFifth, rest⟩ := List.map_eq_cons_iff.1 rest
  obtain ⟨sixth, verdicts, rfl, atSixth, rest⟩ := List.map_eq_cons_iff.1 rest
  obtain ⟨seventh, verdicts, rfl, atSeventh, rest⟩ := List.map_eq_cons_iff.1 rest
  obtain ⟨eighth, verdicts, rfl, atEighth, rest⟩ := List.map_eq_cons_iff.1 rest
  obtain rfl := List.map_eq_nil_iff.1 rest
  obtain rfl := verdict_of_map_some consistent atFirst
  obtain rfl := verdict_of_map_some solid atSecond
  obtain rfl := verdict_of_map_some monotone atThird
  rw [kernelAxiomResult_of_toVerdict (toVerdict_of_map certifiable atFourth), kernelAxiomResult_of_toVerdict (toVerdict_of_map observed atFifth),
    kernelAxiomResult_of_toVerdict (toVerdict_of_map corrigible atSixth), kernelAxiomResult_of_toVerdict (toVerdict_of_map composed atSeventh),
    kernelAxiomResult_of_toVerdict (toVerdict_of_map live atEighth)]
  show _ = [resultOf _, resultOf _, resultOf _, resultOf strategyproofness, _, _, _, _, _]
  simp only [resultOf, (checkGraphConsistency_checked consistent).name_eq, (checkGraphSolidarity_checked solid).name_eq,
    (monotonicityCheck_checked monotone).name_eq, (checkGraphStrategyproofness_rejected manipulation).1]

def Rejected (verdicts : List Verdict) (property : GovernanceProperty) : Prop :=
  ∃ counterexample, .rejected (axiomOfProperty property) counterexample ∈ verdicts

theorem auditRejects_iff {judged : List Verdict} {property : GovernanceProperty} :
    Extract.AuditRejects (judged.map resultOf) property ↔ Rejected judged property := by
  constructor
  · rintro ⟨result, member, named, axiomName, counterexample, rejected⟩
    obtain ⟨verdict, listed, rfl⟩ := List.mem_map.1 member
    obtain rfl := Option.some.inj rejected
    obtain rfl : axiomName = axiomOfProperty property := named
    exact ⟨counterexample, listed⟩
  · rintro ⟨counterexample, listed⟩
    exact ⟨_, List.mem_map_of_mem listed, rfl, _, counterexample, rfl⟩

theorem axiomOfProperty_injective {left right : GovernanceProperty} (same : axiomOfProperty left = axiomOfProperty right) : left = right :=
  Option.some.inj ((propertyForAxiom_eq_some.2 rfl).symm.trans ((congrArg propertyForAxiom same).trans (propertyForAxiom_eq_some.2 rfl)))

/-- The eight shared verdicts say nothing about manipulation, and the ninth nothing else. -/
theorem rejected_insert {verdicts : List Verdict} {strategyproofness : Verdict} (axioms : verdicts.map verdictAxiom = requiredAxioms)
    (named : verdictAxiom strategyproofness = "graph strategyproofness") (property : GovernanceProperty) :
    Rejected (verdicts.insertIdx 3 strategyproofness) property ↔
      if property = .strategyproofness then ∃ axiomName counterexample, strategyproofness = .rejected axiomName counterexample
      else Rejected verdicts property := by
  have long : 3 ≤ verdicts.length := by
    rw [← List.length_map verdictAxiom, axioms]
    decide
  unfold Rejected
  simp only [List.mem_insertIdx long]
  by_cases same : property = .strategyproofness
  · subst same
    rw [if_pos rfl]
    constructor
    · rintro ⟨counterexample, rfl | listed⟩
      · exact ⟨_, counterexample, rfl⟩
      · have required : axiomOfProperty .strategyproofness ∈ requiredAxioms := axioms ▸ List.mem_map_of_mem listed
        exact absurd required (by decide)
    · rintro ⟨axiomName, counterexample, rfl⟩
      obtain rfl : axiomName = axiomOfProperty .strategyproofness := named
      exact ⟨counterexample, .inl rfl⟩
  · rw [if_neg same]
    constructor
    · rintro ⟨counterexample, rfl | listed⟩
      · exact absurd (axiomOfProperty_injective (show axiomOfProperty property = axiomOfProperty .strategyproofness from named)) same
      · exact ⟨counterexample, listed⟩
    · rintro ⟨counterexample, listed⟩
      exact ⟨counterexample, .inr listed⟩

theorem violations_contains {evaluation : GraphEvaluation} (evaluated : evaluateGraph regexes graph claims = .ok evaluation)
    (property : GovernanceProperty) :
    evaluation.violations.contains property.asStr = true ↔
      Rejected evaluation.axiomVerdicts property ∨ (property = .strategyproofness ∧ evaluation.strategyproofness.witness ≠ none) := by
  rw [Std.ExtTreeMap.contains_eq_isSome_getElem?, Option.isSome_iff_exists]
  simp only [violations_eq_some evaluated]
  constructor
  · rintro ⟨violation, fails⟩
    cases fails with
    | rejected listed named => exact .inl ⟨_, propertyForAxiom_eq_some.1 named ▸ listed⟩
    | manipulable found => exact .inr ⟨rfl, by rw [found]; nofun⟩
  · rintro (⟨counterexample, listed⟩ | ⟨rfl, manipulable⟩)
    · exact ⟨_, .rejected listed (propertyForAxiom_eq_some.2 rfl)⟩
    · obtain ⟨witness, found⟩ := Option.ne_none_iff_exists'.1 manipulable
      exact ⟨_, .manipulable found⟩

theorem sacrifice_propertyForAxiom : ∀ axiomName ∈ requiredAxioms, Sacrifice.propertyForAxiom axiomName = propertyForAxiom axiomName := by
  decide

theorem sacrifices_iff {compiled : Sacrifice.CompiledGraph} (axioms : compiled.axiomVerdicts.map verdictAxiom = requiredAxioms)
    (property : GovernanceProperty) :
    Sacrifice.Sacrifices ⟨compiled, Sacrifice.sacrificesFromGraph compiled⟩ property ↔
      Rejected compiled.axiomVerdicts property ∨ (property = .strategyproofness ∧ compiled.strategyproofness.witness ≠ none) := by
  have known : ∀ axiomName counterexample, .rejected axiomName counterexample ∈ compiled.axiomVerdicts →
      (Sacrifice.propertyForAxiom axiomName = some property ↔ axiomName = axiomOfProperty property) := by
    intro axiomName counterexample listed
    rw [sacrifice_propertyForAxiom axiomName (axioms ▸ List.mem_map_of_mem listed), propertyForAxiom_eq_some]
  unfold Sacrifice.Sacrifices Sacrifice.sacrificesFromGraph
  simp only [List.mem_append, List.mem_filterMap, Option.mem_toList, Option.map_eq_some_iff]
  constructor
  · rintro ⟨sacrifice, ⟨verdict, listed, made⟩ | ⟨witness, found, rfl⟩, sacrificed⟩
    · cases verdict with
      | admissible axiomName tested => cases made
      | rejected axiomName counterexample =>
        obtain ⟨given, named, rfl⟩ := Option.map_eq_some_iff.1 made
        obtain rfl : given = property := sacrificed
        exact .inl ⟨counterexample, (known _ _ listed).1 named ▸ listed⟩
    · exact .inr ⟨sacrificed.symm, found ▸ Option.some_ne_none witness⟩
  · rintro (⟨counterexample, listed⟩ | ⟨rfl, manipulable⟩)
    · refine ⟨_, .inl ⟨_, listed, Option.map_eq_some_iff.2 ⟨property, (known _ _ listed).2 rfl, rfl⟩⟩, rfl⟩
    · obtain ⟨witness, found⟩ := Option.ne_none_iff_exists'.1 manipulable
      exact ⟨_, .inr ⟨witness, found, rfl⟩, rfl⟩

theorem compileGraphWithSacrifices_eq_ok {recordDeclaredSacrifices : Sacrifice.GraphCertificate → Except LegitimacyError Unit}
    {unixTimestamp : Except LegitimacyError String} {certificate : Sacrifice.GraphCertificate}
    (run : Sacrifice.compileGraphWithSacrifices regexes recordDeclaredSacrifices graph claims unixTimestamp = .ok certificate) :
    ∃ compiled, Sacrifice.compileGraphPayload regexes graph claims unixTimestamp = .ok compiled ∧
      certificate = ⟨compiled, Sacrifice.sacrificesFromGraph compiled⟩ := by
  obtain ⟨compiled, payload, issued⟩ := bind_eq_ok.1 run
  refine ⟨compiled, payload, ?_⟩
  unfold Sacrifice.issueCertificate at issued
  dsimp only at issued
  split at issued
  · exact (Except.ok.inj issued).symm
  · obtain ⟨⟨⟩, -, made⟩ := bind_eq_ok.1 issued
    exact (Except.ok.inj made).symm

/-- The three surfaces find the same properties violated, except that the audit takes other misreports for its verdict on manipulation. -/
theorem surfaces_agree {probeCycles : List (List NodeId) → Except LegitimacyError AxiomVerdict}
    {recordDeclaredSacrifices : Sacrifice.GraphCertificate → Except LegitimacyError Unit} {unixTimestamp : Except LegitimacyError String}
    {results : List Extract.ExtractionAxiomResult} {evaluation : GraphEvaluation} {certificate : Sacrifice.GraphCertificate}
    (audited : Extract.runGraphAxiomChecks regexes probeCycles graph claims false = .ok results)
    (evaluated : evaluateGraph regexes graph claims = .ok evaluation)
    (compiled : Sacrifice.compileGraphWithSacrifices regexes recordDeclaredSacrifices graph claims unixTimestamp = .ok certificate) :
    (∀ property, property ≠ .strategyproofness →
      (Extract.AuditRejects results property ↔ evaluation.violations.contains property.asStr = true)) ∧
    (∀ property, Sacrifice.Sacrifices certificate property ↔ evaluation.violations.contains property.asStr = true) ∧
    (Extract.AuditRejects results .strategyproofness ↔
      MisreportPays regexes graph claims (movedReports Diagnostics.misreportDeltas)) ∧
    (evaluation.violations.contains GovernanceProperty.strategyproofness.asStr = true ↔
      MisreportPays regexes graph claims (scaledReports misreportFactors)) := by
  obtain ⟨axioms, -⟩ := evaluateGraph_axioms evaluated
  obtain ⟨checks, manipulation⟩ := evaluateGraph_checks evaluated
  obtain ⟨strategyproofness, moved, rfl⟩ := runGraphAxiomChecks_results audited checks
  obtain ⟨named, rejected⟩ := checkGraphStrategyproofness_rejected moved
  obtain ⟨payload, run, rfl⟩ := compileGraphWithSacrifices_eq_ok compiled
  obtain ⟨checks', manipulation'⟩ := compileGraphPayload_checks run
  have sameVerdicts : payload.axiomVerdicts = evaluation.axiomVerdicts := eq_of_checks checks' checks
  have sameManipulation : payload.strategyproofness = evaluation.strategyproofness := Except.ok.inj (manipulation'.symm.trans manipulation)
  have noShared : ¬Rejected evaluation.axiomVerdicts .strategyproofness := by
    rintro ⟨counterexample, listed⟩
    have required : axiomOfProperty .strategyproofness ∈ requiredAxioms := axioms ▸ List.mem_map_of_mem listed
    exact absurd required (by decide)
  refine ⟨fun property other => ?_, fun property => ?_, ?_, ?_⟩
  · rw [auditRejects_iff, rejected_insert axioms named, if_neg other, violations_contains evaluated]
    simp [other]
  · rw [sacrifices_iff (sameVerdicts ▸ axioms), violations_contains evaluated, sameVerdicts, sameManipulation]
  · rw [auditRejects_iff, rejected_insert axioms named, if_pos rfl, rejected]
  · rw [violations_contains evaluated, ← checkGraphStrategyproofnessVerdict_manipulable manipulation]
    simp [noShared]

theorem not_auditRejects_of_canCompile {results : List Extract.ExtractionAxiomResult} {hasCycles : Bool}
    (can : Extract.protocolCanExtractCompile results hasCycles = true) (property : GovernanceProperty) :
    ¬Extract.AuditRejects results property := by
  rintro ⟨result, member, -, axiomName, counterexample, rejected⟩
  have none : (results.any fun result => Extract.isRejection result.verdict) = false := by
    simpa using (Bool.and_eq_true_iff.1 can).2
  have passed := List.any_eq_false.1 none result member
  rw [rejected] at passed
  exact passed rfl

theorem strengthGate_named : isBlank "gate" = false := by decide

def strengthGate : GovernanceGraph where
  nodes := Std.ExtTreeMap.ofList
    [(⟨"gate", strengthGate_named⟩, .binary ⟨"gate", strengthGate_named⟩ "gate" [.thresholdGate "strength" 1.6 .permit] .deny .firstMatch)] compare
  edges := []

def gateClaims : List GovernanceClaim := [⟨"agent", 1, none, none, none, none, ∅⟩, ⟨"steward", 2, none, none, none, none, ∅⟩]

def noRegexes : RegexEngine := fun _ => .error "no regex"

theorem strengthGate_judged : ∃ results evaluation certificate,
    Extract.runGraphAxiomChecks noRegexes (fun _ => .ok (.pass .nonVacuous 0)) strengthGate gateClaims false = .ok results ∧
      evaluateGraph noRegexes strengthGate gateClaims = .ok evaluation ∧
      Sacrifice.compileGraphWithSacrifices noRegexes (fun _ => .ok ()) strengthGate gateClaims (.ok "0") = .ok certificate ∧
      Extract.protocolCanExtractCompile results false = true ∧
      evaluation.violations.contains GovernanceProperty.strategyproofness.asStr = true := by
  have audit : (match Extract.runGraphAxiomChecks noRegexes (fun _ => .ok (.pass .nonVacuous 0)) strengthGate gateClaims false with
      | .ok results => Extract.protocolCanExtractCompile results false
      | .error _ => false) = true := by decide +kernel
  have protocol : (match evaluateGraph noRegexes strengthGate gateClaims with
      | .ok evaluation => evaluation.violations.contains GovernanceProperty.strategyproofness.asStr
      | .error _ => false) = true := by decide +kernel
  have compilation : (Sacrifice.compileGraphWithSacrifices noRegexes (fun _ => .ok ()) strengthGate gateClaims (.ok "0")).toBool = true := by
    decide +kernel
  obtain ⟨certificate, compiled⟩ := exists_of_toBool compilation
  split at audit
  · next results audited =>
    split at protocol
    · next evaluation evaluated => exact ⟨results, evaluation, certificate, audited, evaluated, compiled, audit, protocol⟩
    · cases protocol
  · cases audit

/-- An audit without a rejection, and a compilation of the same graph that gives strategyproofness up. -/
theorem surfaces_differ : ∃ results evaluation certificate,
    validateGovernanceGraph noRegexes strengthGate = .ok () ∧ detectCycles strengthGate = .ok [] ∧
      Extract.runGraphAxiomChecks noRegexes (fun _ => .ok (.pass .nonVacuous 0)) strengthGate gateClaims false = .ok results ∧
      evaluateGraph noRegexes strengthGate gateClaims = .ok evaluation ∧
      Sacrifice.compileGraphWithSacrifices noRegexes (fun _ => .ok ()) strengthGate gateClaims (.ok "0") = .ok certificate ∧
      (∀ property, ¬Extract.AuditRejects results property) ∧
      evaluation.violations.contains GovernanceProperty.strategyproofness.asStr = true ∧
      ∃ sacrifice ∈ certificate.sacrifices, sacrifice.sacrificedProperty = .strategyproofness := by
  obtain ⟨results, evaluation, certificate, audited, evaluated, compiled, can, violated⟩ := strengthGate_judged
  obtain ⟨payload, run, rfl⟩ := compileGraphWithSacrifices_eq_ok compiled
  obtain ⟨checks, manipulation⟩ := evaluateGraph_checks evaluated
  obtain ⟨checks', manipulation'⟩ := compileGraphPayload_checks run
  have sameVerdicts := eq_of_checks checks' checks
  have sameManipulation := Except.ok.inj (manipulation'.symm.trans manipulation)
  have axioms := (evaluateGraph_axioms evaluated).1
  refine ⟨results, evaluation, _, evaluateGraph_valid evaluated, ?_, audited, evaluated, compiled, not_auditRejects_of_canCompile can, violated, ?_⟩
  · decide +kernel
  · exact (sacrifices_iff (sameVerdicts ▸ axioms) _).2 (by rw [sameVerdicts, sameManipulation]; exact (violations_contains evaluated _).1 violated)

theorem surfaces_agree_strengthGate : ∃ results evaluation certificate,
    Extract.runGraphAxiomChecks noRegexes (fun _ => .ok (.pass .nonVacuous 0)) strengthGate gateClaims false = .ok results ∧
      evaluateGraph noRegexes strengthGate gateClaims = .ok evaluation ∧
      Sacrifice.compileGraphWithSacrifices noRegexes (fun _ => .ok ()) strengthGate gateClaims (.ok "0") = .ok certificate ∧
      ∀ property, Sacrifice.Sacrifices certificate property ↔ evaluation.violations.contains property.asStr = true := by
  obtain ⟨results, evaluation, certificate, audited, evaluated, compiled, -, -⟩ := strengthGate_judged
  exact ⟨results, evaluation, certificate, audited, evaluated, compiled, (surfaces_agree audited evaluated compiled).2.1⟩

end

end Legitimacy
