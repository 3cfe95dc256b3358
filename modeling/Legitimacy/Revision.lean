import Legitimacy.Lifecycle

namespace Legitimacy.Protocol

open ExceptRun

def Operation.leavesSession : Operation → Bool
  | .declare .. => true
  | .proposeRevision .. => true
  | _ => false

section

variable {host : ProtocolHost}

theorem chainTail_append {start middle : Option String} {certificates others : List PromotionCertificate}
    (tail : chainTail host start certificates = .ok middle) :
    chainTail host start (certificates ++ others) = chainTail host middle others := by
  induction certificates generalizing start with
  | nil =>
    obtain rfl := Except.ok.inj tail
    rfl
  | cons certificate rest ih =>
    obtain ⟨linked, later⟩ := guard_eq_ok.1 tail
    rw [List.cons_append, chainTail, if_neg linked]
    exact ih later

structure Continues (host : ProtocolHost) (before after : ProtocolLedger) : Prop where
  certificates : ∃ issued, after.certificates = before.certificates ++ issued ∧ chainTail host before.headHash issued = .ok after.headHash
  driftAlerts : before.driftAlerts <+: after.driftAlerts

theorem Continues.refl (host : ProtocolHost) (ledger : ProtocolLedger) : Continues host ledger ledger :=
  ⟨⟨[], by simp, rfl⟩, List.prefix_rfl⟩

theorem Continues.trans {first second third : ProtocolLedger} (earlier : Continues host first second) (later : Continues host second third) :
    Continues host first third := by
  obtain ⟨issued, grown, tail⟩ := earlier.certificates
  obtain ⟨added, grownAgain, tailAgain⟩ := later.certificates
  refine ⟨⟨issued ++ added, ?_, ?_⟩, earlier.driftAlerts.trans later.driftAlerts⟩
  · rw [grownAgain, grown, List.append_assoc]
  · rw [chainTail_append tail, tailAgain]

theorem Continues.chain {ledger : ProtocolLedger} (continues : Continues host emptyLedger ledger) :
    chainTail host none ledger.certificates = .ok ledger.headHash := by
  obtain ⟨issued, grown, tail⟩ := continues.certificates
  rw [grown]
  exact tail

end

section

variable {host : ProtocolHost} {state next : ProtocolState} {operation : Operation}

theorem step_leaves (stepped : step host state operation = .ok next) (leaves : operation.leavesSession = true) : next.ledger? = none := by
  cases operation with
  | declare graph sacrifices now =>
    obtain ⟨evaluation, declaration, -, -, -, -, rfl⟩ := declareWithMetadata_eq_ok stepped
    rfl
  | proposeRevision newGraph revisedSacrifices =>
    obtain ⟨driftReport, monitorSession, ledger, declaration, -, rfl⟩ := proposeRevision_eq_ok stepped
    rfl
  | _ => cases leaves

theorem step_activates {config : MonitorConfig} (stepped : step host state (.activate config) = .ok next) :
    state.ledger? = none ∧ next.ledger? = some emptyLedger := by
  obtain ⟨riskReport, factorExposure, compiledGraph, sacrificeCerts, declaration, claims, interval, rfl, rfl⟩ := activate_eq_ok stepped
  exact ⟨rfl, rfl⟩

theorem step_continues (stepped : step host state operation = .ok next) (stays : operation.leavesSession = false)
    {before : ProtocolLedger} (held : state.ledger? = some before) : ∃ after, next.ledger? = some after ∧ Continues host before after := by
  cases operation with
  | declare => cases stays
  | proposeRevision => cases stays
  | compile now =>
    obtain ⟨graph, sacrifices, declaration, evaluation, compiledGraph, rfl, -⟩ := compile_eq_ok stepped
    cases held
  | measure representativeClaims =>
    obtain ⟨riskReport, factorExposure, compiledGraph, sacrificeCerts, declaration, rfl, -⟩ := measure_eq_ok stepped
    cases held
  | activate monitorConfig =>
    rw [(step_activates stepped).1] at held
    cases held
  | recompile declaredAt compiledAt =>
    obtain ⟨proposedGraph, sacrifices, declaration, declared, rfl, -, -⟩ := recompile_eq_ok stepped
    cases held
  | checkDecision claim order now =>
    obtain ⟨⟨result, issued⟩, checked, made⟩ := bind_eq_ok.1 stepped
    obtain rfl := Except.ok.inj made
    obtain ⟨monitorSession, ledger, declaration, claims, alerts, rfl, follows, rfl⟩ := checkDecision_eq_ok checked
    obtain rfl := Option.some.inj held
    refine ⟨_, rfl, ⟨[issued], rfl, ?_⟩, List.prefix_append _ _⟩
    rw [chainTail, if_neg (not_not.2 follows)]
    rfl
  | reportDrift violation =>
    obtain ⟨monitorSession, ledger, declaration, rfl, rfl⟩ := reportDrift_eq_ok stepped
    obtain rfl := Option.some.inj held
    exact ⟨_, rfl, ⟨[], by simp, rfl⟩, List.prefix_append _ _⟩
  | supervise action reason now =>
    obtain ⟨graph, monitorSession, ledger, declaration, directive, intervention, active, -, -, -, -, -, rfl⟩ := supervise_eq_ok stepped
    refine ⟨ledger, rfl, ?_⟩
    rcases activeOverlay_eq_ok active with ⟨rfl, -⟩ | ⟨intervention, rfl, -⟩
    · exact Option.some.inj held ▸ Continues.refl host ledger
    · exact Option.some.inj held ▸ Continues.refl host ledger

theorem steps_continue {operations : List Operation} (stepped : operations.foldlM (step host) state = .ok next)
    (stays : ∀ operation ∈ operations, operation.leavesSession = false) {before : ProtocolLedger} (held : state.ledger? = some before) :
    ∃ after, next.ledger? = some after ∧ Continues host before after := by
  induction operations generalizing state before with
  | nil =>
    obtain rfl := Except.ok.inj stepped
    exact ⟨before, held, Continues.refl host before⟩
  | cons operation rest ih =>
    rw [List.foldlM_cons] at stepped
    obtain ⟨middle, first, later⟩ := bind_eq_ok.1 stepped
    obtain ⟨carried, atMiddle, grown⟩ := step_continues first (stays operation List.mem_cons_self) held
    obtain ⟨after, atNext, grownAgain⟩ := ih later (fun other listed => stays other (List.mem_cons_of_mem operation listed)) atMiddle
    exact ⟨after, atNext, grown.trans grownAgain⟩

/-- The ledger of a reached state is what its session has recorded since its activation. -/
theorem run_since_activation {operations : List Operation} (reached : run host operations = .ok state) {ledger : ProtocolLedger}
    (held : state.ledger? = some ledger) :
    ∃ done config rest, operations = done ++ .activate config :: rest ∧ (∀ operation ∈ rest, operation.leavesSession = false) ∧
      Continues host emptyLedger ledger := by
  unfold run at reached
  induction operations using List.reverseRecOn generalizing state ledger with
  | nil =>
    obtain rfl := Except.ok.inj reached
    cases held
  | append_singleton operations last ih =>
    rw [List.foldlM_append] at reached
    obtain ⟨middle, before, single⟩ := bind_eq_ok.1 reached
    rw [List.foldlM_cons] at single
    obtain ⟨next, stepped, made⟩ := bind_eq_ok.1 single
    obtain rfl := Except.ok.inj made
    cases leaves : last.leavesSession with
    | true =>
      rw [step_leaves stepped leaves] at held
      cases held
    | false =>
      cases atMiddle : middle.ledger? with
      | some earlier =>
        obtain ⟨done, config, rest, split, stays, grown⟩ := ih before atMiddle
        obtain ⟨after, atNext, carried⟩ := step_continues stepped leaves atMiddle
        obtain rfl := Option.some.inj (held.symm.trans atNext)
        refine ⟨done, config, rest ++ [last], by simp [split], fun operation listed => ?_, grown.trans carried⟩
        rcases List.mem_append.1 listed with inRest | isLast
        · exact stays operation inRest
        · rw [List.mem_singleton.1 isLast]
          exact leaves
      | none =>
        -- of the operations that stay, only an activation enters a session
        cases last with
        | activate config =>
          rw [(step_activates stepped).2] at held
          obtain rfl := Option.some.inj held
          exact ⟨operations, config, [], rfl, List.forall_mem_nil _, Continues.refl host emptyLedger⟩
        | declare => cases leaves
        | proposeRevision => cases leaves
        | compile now =>
          obtain ⟨graph, sacrifices, declaration, evaluation, compiledGraph, -, -, -, -, -, -, -, rfl⟩ := compile_eq_ok stepped
          cases held
        | measure representativeClaims =>
          obtain ⟨riskReport, factorExposure, compiledGraph, sacrificeCerts, declaration, -, rfl⟩ := measure_eq_ok stepped
          cases held
        | recompile declaredAt compiledAt =>
          obtain ⟨proposedGraph, sacrifices, declaration, declared, -, -, compiled⟩ := recompile_eq_ok stepped
          obtain ⟨graph, sacrifices, declaration, evaluation, compiledGraph, -, -, -, -, -, -, -, rfl⟩ := compile_eq_ok compiled
          cases held
        | checkDecision claim order now =>
          obtain ⟨⟨result, issued⟩, checked, -⟩ := bind_eq_ok.1 stepped
          obtain ⟨monitorSession, ledger, declaration, claims, alerts, rfl, -⟩ := checkDecision_eq_ok checked
          cases atMiddle
        | reportDrift violation =>
          obtain ⟨monitorSession, ledger, declaration, rfl, -⟩ := reportDrift_eq_ok stepped
          cases atMiddle
        | supervise action reason now =>
          obtain ⟨graph, monitorSession, ledger, declaration, directive, intervention, active, -⟩ := supervise_eq_ok stepped
          rcases activeOverlay_eq_ok active with ⟨rfl, -⟩ | ⟨intervention, rfl, -⟩ <;> cases atMiddle

end

/-- Until a revision the history of a session is carried on and its chain never restarted; a revision leaves it, and the next
activation begins an empty one. -/
theorem history_until_revision (host : ProtocolHost) (operations : List Operation) (state : ProtocolState)
    (reached : run host operations = .ok state) :
    (∀ before (later : List Operation) next, state.ledger? = some before → later.foldlM (step host) state = .ok next →
      (∀ operation ∈ later, operation.leavesSession = false) →
        ∃ after, next.ledger? = some after ∧ Grows before after ∧ Continues host before after) ∧
    (∀ ledger, state.ledger? = some ledger → (∃ done config rest, operations = done ++ .activate config :: rest ∧
      ∀ operation ∈ rest, operation.leavesSession = false) ∧ chainTail host none ledger.certificates = .ok ledger.headHash) ∧
    (∀ newGraph revisedSacrifices next, step host state (.proposeRevision newGraph revisedSacrifices) = .ok next →
      next.ledger? = none) ∧
    ∀ config next, step host state (.activate config) = .ok next → next.ledger? = some emptyLedger := by
  refine ⟨fun before later next held stepped stays => ?_, fun ledger held => ?_, fun newGraph revisedSacrifices next stepped => ?_,
    fun config next stepped => (step_activates stepped).2⟩
  · obtain ⟨after, atNext, carried⟩ := steps_continue stepped stays held
    obtain ⟨issued, grown, -⟩ := carried.certificates
    exact ⟨after, atNext, ⟨grown ▸ List.prefix_append _ _, carried.driftAlerts⟩, carried⟩
  · obtain ⟨done, config, rest, split, stays, recorded⟩ := run_since_activation reached held
    exact ⟨⟨done, config, rest, split, stays⟩, recorded.chain⟩
  · exact step_leaves stepped rfl

def revisionOperations : List Operation :=
  [.reportDrift ⟨"manual", .consistency, 0, 0, ∅, "recompile"⟩, .proposeRevision (soloGraph .permit) [],
    .recompile (.ok "2026-01-01T00:00:03Z") (.ok "2026-01-01T00:00:04Z"), .measure [soloClaim], .activate ⟨60, 60, 0⟩]

def liveCertificates : Except ProtocolError ProtocolState → Option Nat
  | .ok (.live _ ledger _) => some ledger.certificates.length
  | _ => none

theorem live_of_certificates {outcome : Except ProtocolError ProtocolState} {count : Nat} (counted : liveCertificates outcome = some count) :
    ∃ monitorSession ledger declaration, outcome = .ok (.live monitorSession ledger declaration) ∧ ledger.certificates.length = count := by
  unfold liveCertificates at counted
  split at counted
  · exact ⟨_, _, _, rfl, Option.some.inj counted⟩
  · cases counted

theorem history_until_revision_solo : ∃ state, run plainHost (soloOperations .permit []) = .ok state ∧
    ∀ ledger, state.ledger? = some ledger → chainTail plainHost none ledger.certificates = .ok ledger.headHash := by
  obtain ⟨state, reached⟩ := exists_of_toBool (show (run plainHost (soloOperations .permit [])).toBool = true by decide +kernel)
  exact ⟨state, reached, fun ledger held => ((history_until_revision plainHost _ state reached).2.1 ledger held).2⟩

/-- After one decision, a revision and a second activation the certificate of the first session is gone. -/
theorem revision_drops_history : ∃ earlier later monitorSession before declaration laterSession after laterDeclaration,
    run plainHost earlier = .ok (.live monitorSession before declaration) ∧
    run plainHost (earlier ++ later) = .ok (.live laterSession after laterDeclaration) ∧
    ¬before.certificates <+: after.certificates := by
  have certified : liveCertificates (run plainHost (soloOperations .permit [])) = some 1 := by decide +kernel
  have revised : liveCertificates (run plainHost (soloOperations .permit [] ++ revisionOperations)) = some 0 := by decide +kernel
  obtain ⟨monitorSession, before, declaration, live, one⟩ := live_of_certificates certified
  obtain ⟨laterSession, after, laterDeclaration, laterLive, none⟩ := live_of_certificates revised
  refine ⟨_, _, monitorSession, before, declaration, laterSession, after, laterDeclaration, live, laterLive, fun kept => ?_⟩
  have shorter := kept.length_le
  omega

end Legitimacy.Protocol
