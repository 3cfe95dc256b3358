import Legitimacy.NodeEvaluation

namespace Legitimacy.Extract

open ExceptRun

/-- `binary_node`, which every lane has under this name. -/
def binaryNode (id : String) (gates : List Gate) (default : Decision) : Except LegitimacyError GovernanceNode := do
  let nodeId ← NodeId.new id
  .ok (.binary nodeId id gates default .firstMatch)

def outcomeGates {δ : Type} (literal : δ → String) (toGraph : δ → Decision) (outcomes : List δ) : List Gate :=
  outcomes.map fun outcome => .exactMatch (literal outcome) (toGraph outcome)

section

inductive RustHookCoreDecision
  | allow
  | deny
  | ask
  | block

structure RustHookCoreHook where
  name : String
  decisions : List RustHookCoreDecision
  defaultDecision : Option RustHookCoreDecision

def RustHookCoreDecision.literal : RustHookCoreDecision → String
  | .allow => "allow"
  | .deny => "deny"
  | .ask => "ask"
  | .block => "block"

/-- Here `ask` permits. -/
def RustHookCoreDecision.toGraph : RustHookCoreDecision → Decision
  | .allow | .ask => .permit
  | .deny | .block => .deny

def hookNodeId (path : String) (hook : RustHookCoreHook) : String := s!"{path}::{hook.name}"

def hookDecisionGates (hook : RustHookCoreHook) : List Gate :=
  outcomeGates RustHookCoreDecision.literal RustHookCoreDecision.toGraph hook.decisions

def hookNode (path : String) (hook : RustHookCoreHook) : Except LegitimacyError GovernanceNode :=
  binaryNode (hookNodeId path hook) (hookDecisionGates hook) ((hook.defaultDecision.map RustHookCoreDecision.toGraph).getD .permit)

end

section

inductive PythonHookCoreDecision
  | allow
  | deny
  | ask
  | block

structure PythonHookCoreCallback where
  name : String
  decisions : List PythonHookCoreDecision
  defaultDecision : Option PythonHookCoreDecision

def PythonHookCoreDecision.literal : PythonHookCoreDecision → String
  | .allow => "allow"
  | .deny => "deny"
  | .ask => "ask"
  | .block => "block"

def PythonHookCoreDecision.toGraph : PythonHookCoreDecision → Decision
  | .allow => .permit
  | .deny | .block => .deny
  | .ask => .escalate

def callbackDecisionGates (callback : PythonHookCoreCallback) : List Gate :=
  outcomeGates PythonHookCoreDecision.literal PythonHookCoreDecision.toGraph callback.decisions

def callbackNode (path : String) (callback : PythonHookCoreCallback) : Except LegitimacyError GovernanceNode :=
  binaryNode s!"{path}::{callback.name}" (callbackDecisionGates callback)
    ((callback.defaultDecision.map PythonHookCoreDecision.toGraph).getD .escalate)

end

section

inductive TypeScriptApprovalCoreApprovalResult
  | allow
  | deny
  | ask
  | escalate

structure TypeScriptApprovalCoreHandler where
  name : String
  results : List TypeScriptApprovalCoreApprovalResult
  defaultResult : Option TypeScriptApprovalCoreApprovalResult

def TypeScriptApprovalCoreApprovalResult.literal : TypeScriptApprovalCoreApprovalResult → String
  | .allow => "allow"
  | .deny => "deny"
  | .ask => "ask"
  | .escalate => "escalate"

def TypeScriptApprovalCoreApprovalResult.toGraph : TypeScriptApprovalCoreApprovalResult → Decision
  | .allow => .permit
  | .ask | .escalate => .escalate
  | .deny => .deny

def handlerDecisionGates (handler : TypeScriptApprovalCoreHandler) : List Gate :=
  outcomeGates TypeScriptApprovalCoreApprovalResult.literal TypeScriptApprovalCoreApprovalResult.toGraph handler.results

def handlerNode (path : String) (handler : TypeScriptApprovalCoreHandler) : Except LegitimacyError GovernanceNode :=
  binaryNode s!"{path}::{handler.name}" (handlerDecisionGates handler)
    ((handler.defaultResult.map TypeScriptApprovalCoreApprovalResult.toGraph).getD .escalate)

end

section

/-- The required normalization of a source outcome. -/
def latticeDecision (outcome : String) : Option Decision :=
  if outcome ∈ ["allow", "permit"] then some .permit
  else if outcome ∈ ["deny", "block"] then some .deny
  else if outcome ∈ ["ask", "review", "defer", "escalate"] then some .escalate
  else none

/-- What a claim comes to under a list of outcomes and a default. Where the source has neither, it does not authorize the claim. -/
def normalizedDecision (outcomes : List String) (default : Option String) (claim : GovernanceClaim) : Option Decision :=
  match outcomes.find? fun outcome => claim.action == some outcome with
  | some outcome => latticeDecision outcome
  | none =>
    match default with
    | some outcome => latticeDecision outcome
    | none => some .escalate

end

section

variable {δ : Type} {literal : δ → String} {toGraph : δ → Decision}

theorem evaluateFirstMatch_outcomeGates (regexes : RegexEngine) (claim : GovernanceClaim) (claims : List GovernanceClaim) (default : Decision)
    (outcomes : List δ) :
    evaluateFirstMatch regexes claim claims default (outcomeGates literal toGraph outcomes) =
      .ok (((outcomes.find? fun outcome => claim.action == some (literal outcome)).map toGraph).getD default) := by
  induction outcomes with
  | nil => rfl
  | cons outcome rest ih =>
    rw [List.find?_cons]
    show (do if ← gateMatches regexes claim claims (.exactMatch (literal outcome) (toGraph outcome)) then _ else _) = _
    cases hit : claim.action == some (literal outcome) with
    | true =>
      simp only [gateMatches, hit]
      rfl
    | false =>
      simp only [gateMatches, hit]
      exact ih

theorem claimDecision_binaryNode {id : String} {gates : List Gate} {default : Decision} {node : GovernanceNode}
    (made : binaryNode id gates default = .ok node) (regexes : RegexEngine) (claims : List GovernanceClaim) (claim : GovernanceClaim) :
    claimDecision regexes node claims claim = evaluateFirstMatch regexes claim claims default gates := by
  obtain ⟨nodeId, -, same⟩ := bind_eq_ok.1 made
  cases same
  rfl

theorem lane_normalized {outcomes : List δ} {fallback : Option δ} {missing : Decision} {words : List String} {default : Option String}
    (spelled : outcomes.map literal = words) (spelledDefault : fallback.map literal = default)
    (table : ∀ outcome, outcome ∈ outcomes ∨ fallback = some outcome → latticeDecision (literal outcome) = some (toGraph outcome))
    (escalates : fallback = none → missing = .escalate) (regexes : RegexEngine) (claims : List GovernanceClaim) (claim : GovernanceClaim) :
    ∃ decision, evaluateFirstMatch regexes claim claims ((fallback.map toGraph).getD missing) (outcomeGates literal toGraph outcomes) =
      .ok decision ∧ normalizedDecision words default claim = some decision := by
  subst spelled spelledDefault
  refine ⟨_, evaluateFirstMatch_outcomeGates .., ?_⟩
  unfold normalizedDecision
  rw [List.find?_map]
  cases found : outcomes.find? ((fun outcome => claim.action == some outcome) ∘ literal) with
  | some outcome =>
    have same : (outcomes.find? fun outcome => claim.action == some (literal outcome)) = some outcome := found
    rw [same]
    exact table outcome (.inl (List.mem_of_find?_eq_some found))
  | none =>
    have same : (outcomes.find? fun outcome => claim.action == some (literal outcome)) = none := found
    rw [same]
    cases fallback with
    | some outcome => exact table outcome (.inr rfl)
    | none =>
      rw [escalates rfl]
      rfl

end

section

structure SameOutcomes (words : List String) (default : Option String) (hook : RustHookCoreHook) (callback : PythonHookCoreCallback)
    (handler : TypeScriptApprovalCoreHandler) : Prop where
  hookWords : hook.decisions.map RustHookCoreDecision.literal = words
  callbackWords : callback.decisions.map PythonHookCoreDecision.literal = words
  handlerWords : handler.results.map TypeScriptApprovalCoreApprovalResult.literal = words
  hookDefault : hook.defaultDecision.map RustHookCoreDecision.literal = default
  callbackDefault : callback.defaultDecision.map PythonHookCoreDecision.literal = default
  handlerDefault : handler.defaultResult.map TypeScriptApprovalCoreApprovalResult.literal = default
  known : ∀ word, word ∈ words ∨ default = some word → word ∈ ["allow", "deny", "ask"]

/-- The three nodes give every claim of every cohort the same decision, which is that of the table. -/
def LanesAgree (words : List String) (default : Option String) (rust python typescript : GovernanceNode) : Prop :=
  ∀ regexes claims claim, ∃ decision, claimDecision regexes rust claims claim = .ok decision ∧
    claimDecision regexes python claims claim = .ok decision ∧ claimDecision regexes typescript claims claim = .ok decision ∧
    normalizedDecision words default claim = some decision

theorem python_table (outcome : PythonHookCoreDecision) : latticeDecision outcome.literal = some outcome.toGraph := by
  cases outcome <;> decide

theorem typescript_table (outcome : TypeScriptApprovalCoreApprovalResult) : latticeDecision outcome.literal = some outcome.toGraph := by
  cases outcome <;> decide

theorem rust_table {outcome : RustHookCoreDecision} : latticeDecision outcome.literal = some outcome.toGraph ↔ outcome.literal ≠ "ask" := by
  cases outcome <;> decide

def claimOf (action : Option String) : GovernanceClaim := ⟨"claimant", 1, none, none, action, none, ∅⟩

variable {words : List String} {default : Option String} {hook : RustHookCoreHook} {callback : PythonHookCoreCallback}
  {handler : TypeScriptApprovalCoreHandler} {rustPath pythonPath typescriptPath : String} {rust python typescript : GovernanceNode}

theorem rust_permits (same : SameOutcomes words default hook callback handler) (made : hookNode rustPath hook = .ok rust)
    (regexes : RegexEngine) (claims : List GovernanceClaim) (claim : GovernanceClaim)
    (escalates : normalizedDecision words default claim = some .escalate) : claimDecision regexes rust claims claim = .ok .permit := by
  have forwarding : ∀ outcome : RustHookCoreDecision, latticeDecision outcome.literal = some .escalate → outcome.toGraph = .permit := by
    intro outcome
    cases outcome <;> decide
  rw [claimDecision_binaryNode made, hookDecisionGates, evaluateFirstMatch_outcomeGates]
  obtain ⟨rfl, rfl⟩ := And.intro same.hookWords same.hookDefault
  unfold normalizedDecision at escalates
  rw [List.find?_map] at escalates
  cases found : hook.decisions.find? ((fun outcome => claim.action == some outcome) ∘ RustHookCoreDecision.literal) with
  | some outcome =>
    have first : (hook.decisions.find? fun outcome => claim.action == some outcome.literal) = some outcome := found
    rw [found] at escalates
    rw [first]
    exact congrArg Except.ok (forwarding outcome escalates)
  | none =>
    have first : (hook.decisions.find? fun outcome => claim.action == some outcome.literal) = none := found
    rw [found] at escalates
    rw [first]
    cases fallback : hook.defaultDecision with
    | none => rfl
    | some outcome =>
      rw [fallback] at escalates
      exact congrArg Except.ok (forwarding outcome escalates)

/-- The three lanes agree exactly where no outcome asks, and a default is given that does not ask. -/
theorem lanesAgree_iff (same : SameOutcomes words default hook callback handler) (rustNode : hookNode rustPath hook = .ok rust)
    (pythonNode : callbackNode pythonPath callback = .ok python) (typescriptNode : handlerNode typescriptPath handler = .ok typescript) :
    LanesAgree words default rust python typescript ↔ "ask" ∉ words ∧ default ≠ none ∧ default ≠ some "ask" := by
  constructor
  · intro agree
    have apart : ∀ claim, normalizedDecision words default claim ≠ some .escalate := by
      intro claim escalates
      obtain ⟨decision, atRust, -, -, normalized⟩ := agree (fun _ => .error "") [] claim
      rw [rust_permits same rustNode _ _ claim escalates] at atRust
      rw [escalates] at normalized
      cases atRust
      cases normalized
    have unmatched : words.find? (fun outcome => (claimOf none).action == some outcome) = none := List.find?_eq_none.2 fun _ _ => nofun
    refine ⟨fun asks => ?_, fun missing => ?_, fun asks => ?_⟩
    · have first : ∃ word, words.find? (fun outcome => (claimOf (some "ask")).action == some outcome) = some word ∧ word = "ask" := by
        cases found : words.find? (fun outcome => (claimOf (some "ask")).action == some outcome) with
        | none => exact absurd (List.find?_eq_none.1 found "ask" asks) (by simp [claimOf])
        | some word =>
          have spelled := List.find?_some found
          exact ⟨word, rfl, (Option.some.inj (beq_iff_eq.1 spelled)).symm⟩
      obtain ⟨word, found, rfl⟩ := first
      exact apart (claimOf (some "ask")) (by unfold normalizedDecision; rw [found]; rfl)
    · exact apart (claimOf none) (by unfold normalizedDecision; rw [unmatched, missing])
    · exact apart (claimOf none) (by unfold normalizedDecision; rw [unmatched, asks]; rfl)
  · rintro ⟨noAsk, given, noDefaultAsk⟩ regexes claims claim
    have rustTable : ∀ outcome, outcome ∈ hook.decisions ∨ hook.defaultDecision = some outcome →
        latticeDecision outcome.literal = some outcome.toGraph := by
      intro outcome used
      refine rust_table.2 fun asks => ?_
      rcases used with listed | fallback
      · exact noAsk (by rw [← asks, ← same.hookWords]; exact List.mem_map_of_mem listed)
      · exact noDefaultAsk (by rw [← asks, ← same.hookDefault, fallback]; rfl)
    have supplied : hook.defaultDecision ≠ none := fun missing => given (by rw [← same.hookDefault, missing]; rfl)
    obtain ⟨decision, atRust, normalized⟩ := lane_normalized same.hookWords same.hookDefault rustTable
      (fun missing => absurd missing supplied) regexes claims claim
    obtain ⟨second, atPython, normalized'⟩ := lane_normalized same.callbackWords same.callbackDefault
      (fun outcome _ => python_table outcome) (fun _ => rfl) regexes claims claim
    obtain ⟨third, atTypescript, normalized''⟩ := lane_normalized same.handlerWords same.handlerDefault
      (fun outcome _ => typescript_table outcome) (fun _ => rfl) regexes claims claim
    obtain rfl := Option.some.inj (normalized'.symm.trans normalized)
    obtain rfl := Option.some.inj (normalized''.symm.trans normalized)
    refine ⟨_, ?_, ?_, ?_, normalized⟩
    · rw [claimDecision_binaryNode rustNode]
      exact atRust
    · rw [claimDecision_binaryNode pythonNode]
      exact atPython
    · rw [claimDecision_binaryNode typescriptNode]
      exact atTypescript

section

def askingHook : RustHookCoreHook := ⟨"gate", [.deny, .ask], some .allow⟩

def askingCallback : PythonHookCoreCallback := ⟨"gate", [.deny, .ask], some .allow⟩

def askingHandler : TypeScriptApprovalCoreHandler := ⟨"gate", [.deny, .ask], some .allow⟩

/-- A claim to act by `ask` is permitted by the Rust node and escalated by the other two. -/
theorem asking_lanes_differ : ∃ rust python typescript, hookNode "hooks.rs" askingHook = .ok rust ∧
    callbackNode "hooks.py" askingCallback = .ok python ∧ handlerNode "hooks.ts" askingHandler = .ok typescript ∧
    claimDecision (fun _ => .error "") rust [] (claimOf (some "ask")) = .ok .permit ∧
    claimDecision (fun _ => .error "") python [] (claimOf (some "ask")) = .ok .escalate ∧
    claimDecision (fun _ => .error "") typescript [] (claimOf (some "ask")) = .ok .escalate ∧
    normalizedDecision ["deny", "ask"] (some "allow") (claimOf (some "ask")) = some .escalate :=
  ⟨_, _, _, rfl, rfl, rfl, rfl, rfl, rfl, rfl⟩

def plainHook : RustHookCoreHook := ⟨"gate", [.deny, .allow], some .deny⟩

def plainCallback : PythonHookCoreCallback := ⟨"gate", [.deny, .allow], some .deny⟩

def plainHandler : TypeScriptApprovalCoreHandler := ⟨"gate", [.deny, .allow], some .deny⟩

theorem plainSources_same : SameOutcomes ["deny", "allow"] (some "deny") plainHook plainCallback plainHandler := by
  refine ⟨rfl, rfl, rfl, rfl, rfl, rfl, fun word spelled => ?_⟩
  rcases spelled with listed | default
  · simp only [List.mem_cons, List.not_mem_nil, or_false] at listed ⊢
    rcases listed with rfl | rfl <;> simp
  · rw [← Option.some.inj default]
    simp

theorem lanesAgree_plain : ∃ rust python typescript, hookNode "hooks.rs" plainHook = .ok rust ∧
    callbackNode "hooks.py" plainCallback = .ok python ∧ handlerNode "hooks.ts" plainHandler = .ok typescript ∧
    LanesAgree ["deny", "allow"] (some "deny") rust python typescript := by
  have rustNode : hookNode "hooks.rs" plainHook = .ok _ := rfl
  have pythonNode : callbackNode "hooks.py" plainCallback = .ok _ := rfl
  have typescriptNode : handlerNode "hooks.ts" plainHandler = .ok _ := rfl
  have agree := (lanesAgree_iff plainSources_same rustNode pythonNode typescriptNode).2 ⟨by simp, by simp, by simp⟩
  exact ⟨_, _, _, rustNode, pythonNode, typescriptNode, agree⟩

end

end

end Legitimacy.Extract
