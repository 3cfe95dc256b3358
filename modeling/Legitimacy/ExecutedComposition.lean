import Legitimacy.ExceptRun
import Mathlib.Data.List.Induction

namespace Legitimacy.ExecutedComposition

def policy : String :=
  "\x7b\"identity\":\"legitimacy.controlled-release.v1\",\"forbidden\":\"Legitimacy.boolJointForbiddenList\",\"effect\":\"both distinct synthetic fragments delivered to public\"" ++
  ",\"scope\":\"principal,channel,payload,task\",\"task\":\"synthetic-release\",\"channels\":[\"public\",\"vault\"],\"principals\":2" ++
  ",\"order\":\"host-sequential\",\"guard\":\"local authorization AND preserve original forbidden-property exclusion\"\x7d\n"

def property : String := "Legitimacy.boolJointForbiddenList"

inductive Channel where
  | publicChannel
  | vaultChannel
deriving DecidableEq

inductive Payload where
  | fragment
  | summary
deriving DecidableEq

inductive Decision where
  | permit
  | deny
  | review
deriving DecidableEq

inductive Knowledge where
  | safe
  | violated
  | inconclusive
  | invalid
deriving DecidableEq

structure Grant where
  principal : String
  channel : Channel
  payload : Payload
  task : String

structure Event where
  index : Nat
  principal : Option String
  channel : Option Channel
  payload : Option Payload
  authenticated : Option Bool
  locally : Decision
  decision : Decision
  /-- The delivered bytes; the empty text means no delivery. -/
  effect : Option String
deriving DecidableEq

structure Run where
  format : String
  id : String
  policy : String
  guarded : Bool
  complete : Bool
  principals : Option (Vector String 2)
  grants : Option (List Grant)
  events : List Event
  publicSink : Option (List String)
  vaultSink : Option (List String)

structure Report where
  id : String
  property : String
  captureAuthenticated : Bool
  knowledge : Knowledge
  governance : Decision
  perCallBaseline : Decision
  fullContextBaseline : Decision
  firstForbiddenEvent : Option Nat
  participatingEvents : List Nat
  exposure : Option (Vector Bool 2)
  reason : String

/-- A row of the generated table: its index, both verdicts and the next state in either mode. -/
structure TransitionRow where
  index : Nat
  locally : Nat
  guarded : Nat
  nextUnguarded : Fin 4
  nextGuarded : Fin 4

def table : Vector TransitionRow 128 := #v[
  ⟨0, 0, 0, 0, 0⟩, ⟨1, 0, 0, 0, 0⟩, ⟨2, 0, 0, 0, 0⟩, ⟨3, 1, 1, 0, 0⟩,
  ⟨4, 0, 0, 0, 0⟩, ⟨5, 0, 0, 0, 0⟩, ⟨6, 0, 0, 0, 0⟩, ⟨7, 1, 1, 0, 0⟩,
  ⟨8, 0, 0, 0, 0⟩, ⟨9, 0, 0, 0, 0⟩, ⟨10, 0, 0, 0, 0⟩, ⟨11, 1, 1, 0, 0⟩,
  ⟨12, 0, 0, 0, 0⟩, ⟨13, 0, 0, 0, 0⟩, ⟨14, 0, 0, 0, 0⟩, ⟨15, 1, 1, 2, 2⟩,
  ⟨16, 0, 0, 0, 0⟩, ⟨17, 0, 0, 0, 0⟩, ⟨18, 0, 0, 0, 0⟩, ⟨19, 1, 1, 0, 0⟩,
  ⟨20, 0, 0, 0, 0⟩, ⟨21, 0, 0, 0, 0⟩, ⟨22, 0, 0, 0, 0⟩, ⟨23, 1, 1, 0, 0⟩,
  ⟨24, 0, 0, 0, 0⟩, ⟨25, 0, 0, 0, 0⟩, ⟨26, 0, 0, 0, 0⟩, ⟨27, 1, 1, 0, 0⟩,
  ⟨28, 0, 0, 0, 0⟩, ⟨29, 0, 0, 0, 0⟩, ⟨30, 0, 0, 0, 0⟩, ⟨31, 1, 1, 1, 1⟩,
  ⟨32, 0, 0, 1, 1⟩, ⟨33, 0, 0, 1, 1⟩, ⟨34, 0, 0, 1, 1⟩, ⟨35, 1, 1, 1, 1⟩,
  ⟨36, 0, 0, 1, 1⟩, ⟨37, 0, 0, 1, 1⟩, ⟨38, 0, 0, 1, 1⟩, ⟨39, 1, 1, 1, 1⟩,
  ⟨40, 0, 0, 1, 1⟩, ⟨41, 0, 0, 1, 1⟩, ⟨42, 0, 0, 1, 1⟩, ⟨43, 1, 1, 1, 1⟩,
  ⟨44, 0, 0, 1, 1⟩, ⟨45, 0, 0, 1, 1⟩, ⟨46, 0, 0, 1, 1⟩, ⟨47, 1, 0, 3, 1⟩,
  ⟨48, 0, 0, 1, 1⟩, ⟨49, 0, 0, 1, 1⟩, ⟨50, 0, 0, 1, 1⟩, ⟨51, 1, 1, 1, 1⟩,
  ⟨52, 0, 0, 1, 1⟩, ⟨53, 0, 0, 1, 1⟩, ⟨54, 0, 0, 1, 1⟩, ⟨55, 1, 1, 1, 1⟩,
  ⟨56, 0, 0, 1, 1⟩, ⟨57, 0, 0, 1, 1⟩, ⟨58, 0, 0, 1, 1⟩, ⟨59, 1, 1, 1, 1⟩,
  ⟨60, 0, 0, 1, 1⟩, ⟨61, 0, 0, 1, 1⟩, ⟨62, 0, 0, 1, 1⟩, ⟨63, 1, 1, 1, 1⟩,
  ⟨64, 0, 0, 2, 2⟩, ⟨65, 0, 0, 2, 2⟩, ⟨66, 0, 0, 2, 2⟩, ⟨67, 1, 1, 2, 2⟩,
  ⟨68, 0, 0, 2, 2⟩, ⟨69, 0, 0, 2, 2⟩, ⟨70, 0, 0, 2, 2⟩, ⟨71, 1, 1, 2, 2⟩,
  ⟨72, 0, 0, 2, 2⟩, ⟨73, 0, 0, 2, 2⟩, ⟨74, 0, 0, 2, 2⟩, ⟨75, 1, 1, 2, 2⟩,
  ⟨76, 0, 0, 2, 2⟩, ⟨77, 0, 0, 2, 2⟩, ⟨78, 0, 0, 2, 2⟩, ⟨79, 1, 1, 2, 2⟩,
  ⟨80, 0, 0, 2, 2⟩, ⟨81, 0, 0, 2, 2⟩, ⟨82, 0, 0, 2, 2⟩, ⟨83, 1, 1, 2, 2⟩,
  ⟨84, 0, 0, 2, 2⟩, ⟨85, 0, 0, 2, 2⟩, ⟨86, 0, 0, 2, 2⟩, ⟨87, 1, 1, 2, 2⟩,
  ⟨88, 0, 0, 2, 2⟩, ⟨89, 0, 0, 2, 2⟩, ⟨90, 0, 0, 2, 2⟩, ⟨91, 1, 1, 2, 2⟩,
  ⟨92, 0, 0, 2, 2⟩, ⟨93, 0, 0, 2, 2⟩, ⟨94, 0, 0, 2, 2⟩, ⟨95, 1, 0, 3, 2⟩,
  ⟨96, 0, 0, 3, 3⟩, ⟨97, 0, 0, 3, 3⟩, ⟨98, 0, 0, 3, 3⟩, ⟨99, 1, 0, 3, 3⟩,
  ⟨100, 0, 0, 3, 3⟩, ⟨101, 0, 0, 3, 3⟩, ⟨102, 0, 0, 3, 3⟩, ⟨103, 1, 0, 3, 3⟩,
  ⟨104, 0, 0, 3, 3⟩, ⟨105, 0, 0, 3, 3⟩, ⟨106, 0, 0, 3, 3⟩, ⟨107, 1, 0, 3, 3⟩,
  ⟨108, 0, 0, 3, 3⟩, ⟨109, 0, 0, 3, 3⟩, ⟨110, 0, 0, 3, 3⟩, ⟨111, 1, 0, 3, 3⟩,
  ⟨112, 0, 0, 3, 3⟩, ⟨113, 0, 0, 3, 3⟩, ⟨114, 0, 0, 3, 3⟩, ⟨115, 1, 0, 3, 3⟩,
  ⟨116, 0, 0, 3, 3⟩, ⟨117, 0, 0, 3, 3⟩, ⟨118, 0, 0, 3, 3⟩, ⟨119, 1, 0, 3, 3⟩,
  ⟨120, 0, 0, 3, 3⟩, ⟨121, 0, 0, 3, 3⟩, ⟨122, 0, 0, 3, 3⟩, ⟨123, 1, 0, 3, 3⟩,
  ⟨124, 0, 0, 3, 3⟩, ⟨125, 0, 0, 3, 3⟩, ⟨126, 0, 0, 3, 3⟩, ⟨127, 1, 0, 3, 3⟩]

def rowIndex (state : Fin 4) (actor : Fin 2) (payload : Payload) (channel : Channel) (authenticated delegated : Bool) : Nat :=
  state.val * 32 + actor.val * 16 + (decide (payload = .fragment)).toNat * 8 + (decide (channel = .publicChannel)).toNat * 4 +
    authenticated.toNat * 2 + delegated.toNat

theorem rowIndex_lt (state : Fin 4) (actor : Fin 2) (payload : Payload) (channel : Channel) (authenticated delegated : Bool) :
    rowIndex state actor payload channel authenticated delegated < 128 := by
  have isFragment := Bool.toNat_le (decide (payload = .fragment))
  have isPublic := Bool.toNat_le (decide (channel = .publicChannel))
  have isAuthenticated := Bool.toNat_le authenticated
  have isDelegated := Bool.toNat_le delegated
  unfold rowIndex
  omega

def transition (state : Fin 4) (actor : Fin 2) (payload : Payload) (channel : Channel) (authenticated delegated : Bool) :
    TransitionRow :=
  table.get ⟨rowIndex state actor payload channel authenticated delegated,
    rowIndex_lt state actor payload channel authenticated delegated⟩

def decision (value : Nat) : Decision := if value = 1 then .permit else .deny

def fragments : Vector String 2 := #v["SYNTHETIC-ALPHA", "SYNTHETIC-BETA"]

def content (actor : Fin 2) : Payload → String
  | .fragment => fragments[actor]
  | .summary => "SUMMARY: one synthetic fragment processed"

def delegated (grants : List Grant) (principal : String) (channel : Channel) (payload : Payload) : Bool :=
  grants.any fun grant => grant.principal = principal ∧ grant.channel = channel ∧ grant.payload = payload ∧
    grant.task = "synthetic-release"

def report (run : Run) (knowledge : Knowledge) (reason : String) : Report where
  id := run.id
  property := property
  captureAuthenticated := false
  knowledge := knowledge
  governance := .review
  perCallBaseline := .review
  fullContextBaseline := .review
  firstForbiddenEvent := none
  participatingEvents := []
  exposure := none
  reason := reason

structure Observation where
  principal : String
  channel : Channel
  payload : Payload
  authenticated : Bool
  effect : String

def Event.observed (event : Event) : Option Observation := do
  some ⟨← event.principal, ← event.channel, ← event.payload, ← event.authenticated, ← event.effect⟩

def position (principals : Vector String 2) (principal : String) : Option (Fin 2) :=
  if principals[0] = principal then some 0
  else if principals[1] = principal then some 1
  else none

structure Review where
  state : Fin 4
  publicSink : List String
  vaultSink : List String
  exposed : Vector (Option Nat) 2
  first : Option Nat
  localAll : Bool
  permittedAll : Bool
  conventionalAll : Bool

def startReview : Review := ⟨0, [], [], #v[none, none], none, true, true, true⟩

def checkEvent (guarded : Bool) (principals : Vector String 2) (grants : List Grant) (review : Review) : Event × Nat → Except String Review
  | (event, i) =>
    match event.observed with
    -- The source unwraps here, after it has tested every event of the run.
    | none => .error "missing identity/channel/action/authentication/effect"
    | some ⟨principal, channel, payload, auth, effect⟩ =>
      match position principals principal with
      | none => .error "undeclared acting principal"
      | some actor =>
        if event.index ≠ i then .error "host order is not contiguous"
        else
          let scope := delegated grants principal channel payload
          let row := transition review.state actor payload channel auth scope
          let chosen := if guarded then row.guarded else row.locally
          let expected := if chosen = 1 then content actor payload else ""
          if event.locally ≠ decision row.locally ∨ event.decision ≠ decision chosen ∨ effect ≠ expected then
            .error "decision/effect disagrees with scoped request and Lean transition"
          else
            let hypothetical := if channel = .publicChannel ∧ payload = .fragment then review.exposed.set actor (some i) else review.exposed
            let conventional := auth && scope && !(hypothetical[0].isSome && hypothetical[1].isSome)
            let expectedDispatch := if guarded then conventional else auth && scope
            if expectedDispatch ≠ decide (chosen = 1) then .error "full-context baseline disagrees with generated policy"
            else
              let exposed :=
                if chosen = 1 ∧ channel = .publicChannel ∧ payload = .fragment ∧ review.exposed[actor].isNone then
                  review.exposed.set actor (some i)
                else review.exposed
              let state := if guarded then row.nextGuarded else row.nextUnguarded
              let reconstructed := exposed[0].isSome.toNat * 2 + exposed[1].isSome.toNat
              if state.val ≠ reconstructed then .error "effect abstraction/table mismatch"
              else
                .ok {
                  state := state
                  publicSink := if chosen = 1 ∧ channel = .publicChannel then review.publicSink ++ [expected] else review.publicSink
                  vaultSink := if chosen = 1 ∧ channel = .vaultChannel then review.vaultSink ++ [expected] else review.vaultSink
                  exposed := exposed
                  first := if state = 3 ∧ review.first.isNone then some i else review.first
                  localAll := review.localAll && decide (row.locally = 1)
                  permittedAll := review.permittedAll && decide (chosen = 1)
                  conventionalAll := review.conventionalAll && conventional }

def verdict (run : Run) (review : Review) : Report :=
  let violated := review.first.isSome
  { id := run.id
    property := property
    captureAuthenticated := false
    knowledge := if violated then .violated else .safe
    governance := if violated || !review.permittedAll then .deny else .permit
    perCallBaseline := if review.localAll then .permit else .deny
    fullContextBaseline := if review.conventionalAll then .permit else .deny
    firstForbiddenEvent := review.first
    participatingEvents := if violated then review.exposed.toList.filterMap id else []
    exposure := some #v[review.state.val &&& 2 != 0, review.state.val &&& 1 != 0]
    reason :=
      if violated then "locally authorized deliveries jointly expose both fragments"
      else if !review.permittedAll then "executed effects safe; at least one requested action denied"
      else "authorized work completed under the unchanged forbidden property" }

def check (run : Run) : Report :=
  if run.format ≠ "legitimacy.executed-composition.run.v1" ∨ run.policy ≠ policy then
    report run .invalid "unsupported format or substituted policy/property"
  else if run.events.length > 256 ∨ run.id.utf8ByteSize > 512 then report run .invalid "bounded experiment exceeded"
  else
    match run.principals, run.grants, run.publicSink, run.vaultSink with
    | some principals, some grants, some publicSink, some vaultSink =>
      if !run.complete || run.events.isEmpty then report run .inconclusive "host completion or events unavailable"
      else if principals[0] = "" ∨ principals[1] = "" ∨ principals[0] = principals[1] ∨ grants.length > 32 ∨
          grants.any fun grant => grant.principal ∉ principals.toList then
        report run .invalid "invalid declared principal set or grants"
      else if run.events.any fun event => event.observed.isNone then
        report run .inconclusive "missing identity/channel/action/authentication/effect"
      else
        match run.events.zipIdx.foldlM (checkEvent run.guarded principals grants) startReview with
        | .error reason => report run .invalid reason
        | .ok review =>
          if review.publicSink ≠ publicSink ∨ review.vaultSink ≠ vaultSink then
            report run .invalid "sink readback does not match executed deliveries"
          else verdict run review
    | _, _, _, _ => report run .inconclusive "missing identity, scoped authority, or sink evidence"

structure Request where
  actor : Fin 2
  channel : Channel
  payload : Payload
  authenticated : Bool

structure Execution where
  state : Fin 4
  events : List Event
  publicSink : List String
  vaultSink : List String

def startExecution : Execution := ⟨0, [], [], []⟩

def executeRequest (guarded : Bool) (principals : Vector String 2) (grants : List Grant) (execution : Execution) (request : Request) :
    Execution :=
  let scope := delegated grants principals[request.actor] request.channel request.payload
  let row := transition execution.state request.actor request.payload request.channel request.authenticated scope
  let chosen := if guarded then row.guarded else row.locally
  let effect := if chosen = 1 then content request.actor request.payload else ""
  { state := if guarded then row.nextGuarded else row.nextUnguarded
    events := execution.events ++ [{
      index := execution.events.length
      principal := some principals[request.actor]
      channel := some request.channel
      payload := some request.payload
      authenticated := some request.authenticated
      locally := decision row.locally
      decision := decision chosen
      effect := some effect }]
    publicSink := if chosen = 1 ∧ request.channel = .publicChannel then execution.publicSink ++ [effect] else execution.publicSink
    vaultSink := if chosen = 1 ∧ request.channel = .vaultChannel then execution.vaultSink ++ [effect] else execution.vaultSink }

/-- The host loop with its principals and grants as arguments. -/
def executeUnder (principals : Vector String 2) (grants : List Grant) (id : String) (guarded : Bool) (requests : List Request) : Run :=
  let final := requests.foldl (executeRequest guarded principals grants) startExecution
  { format := "legitimacy.executed-composition.run.v1"
    id := id
    policy := policy
    guarded := guarded
    complete := true
    principals := some principals
    grants := some grants
    events := final.events
    publicSink := some final.publicSink
    vaultSink := some final.vaultSink }

def suppliedPrincipals : Vector String 2 := #v["principal-A", "principal-B"]

def suppliedGrants (revokeB : Bool) : List Grant :=
  (List.finRange 2).flatMap fun (actor : Fin 2) =>
    if revokeB = true ∧ actor = 1 then []
    else [.publicChannel, .vaultChannel].flatMap fun channel =>
      [.fragment, .summary].map fun payload => ⟨suppliedPrincipals[actor], channel, payload, "synthetic-release"⟩

def execute (id : String) (guarded : Bool) (requests : List Request) (revokeB : Bool) : Run :=
  executeUnder suppliedPrincipals (suppliedGrants revokeB) id guarded requests

/-- Whether a table state says that the fragment of an actor is out. -/
def exposes (state : Fin 4) (actor : Fin 2) : Bool := state.val &&& (2 - actor.val) != 0

def publishes (request : Request) (actor : Fin 2) : Bool :=
  decide (request.channel = .publicChannel) && decide (request.payload = .fragment) && decide (actor = request.actor)

theorem exposes_zero (actor : Fin 2) : exposes 0 actor = false := by
  revert actor
  decide

theorem eq_three_iff {state : Fin 4} : state = 3 ↔ ∀ actor, exposes state actor = true := by
  revert state
  decide

theorem val_eq_exposed (state : Fin 4) : state.val = (exposes state 0).toNat * 2 + (exposes state 1).toNat := by
  revert state
  decide

def dispatched (guarded : Bool) (row : TransitionRow) : Nat := if guarded then row.guarded else row.locally

def nextState (guarded : Bool) (row : TransitionRow) : Fin 4 := if guarded then row.nextGuarded else row.nextUnguarded

theorem transition_spec (state : Fin 4) (request : Request) (scope : Bool) :
    let row := transition state request.actor request.payload request.channel request.authenticated scope
    (decide (row.locally = 1) = (request.authenticated && scope)) ∧
      (decide (row.guarded = 1) =
        (request.authenticated && scope && !((exposes state 0 || publishes request 0) && (exposes state 1 || publishes request 1)))) ∧
      ∀ guarded actor, exposes (nextState guarded row) actor =
        (exposes state actor || (decide (dispatched guarded row = 1) && publishes request actor)) := by
  obtain ⟨actor, channel, payload, authenticated⟩ := request
  revert state actor
  cases channel <;> cases payload <;> cases authenticated <;> cases scope <;> decide +kernel

def requestScope (principals : Vector String 2) (grants : List Grant) (request : Request) : Bool :=
  delegated grants principals[request.actor] request.channel request.payload

def requestRow (principals : Vector String 2) (grants : List Grant) (state : Fin 4) (request : Request) : TransitionRow :=
  transition state request.actor request.payload request.channel request.authenticated (requestScope principals grants request)

def Exposed (sink : List String) : Prop := ∀ actor : Fin 2, fragments[actor] ∈ sink

def publicDeliveries (events : List Event) : List String :=
  events.filterMap fun event => if event.channel = some .publicChannel ∧ event.decision = .permit then event.effect else none

/-- The public sink once a request has been performed, whatever the guard says. -/
def performed (sink : List String) (request : Request) : List String :=
  if request.channel = .publicChannel then sink ++ [content request.actor request.payload] else sink

theorem content_eq_fragment {actor other : Fin 2} {payload : Payload} :
    content actor payload = fragments[other] ↔ payload = .fragment ∧ other = actor := by
  revert actor other
  cases payload <;> decide

theorem mem_performed {sink : List String} {request : Request} {actor : Fin 2} :
    fragments[actor] ∈ performed sink request ↔ fragments[actor] ∈ sink ∨ publishes request actor = true := by
  unfold performed publishes
  by_cases onPublic : request.channel = .publicChannel
  · rw [if_pos onPublic, List.mem_append, List.mem_singleton, eq_comm, content_eq_fragment]
    simp [onPublic]
  · rw [if_neg onPublic]
    simp [onPublic]

theorem decision_eq_permit {value : Nat} : decision value = .permit ↔ value = 1 := by
  unfold decision
  split <;> simp [*]

section

variable {guarded : Bool} {principals : Vector String 2} {grants : List Grant}

/-- What holds between the state of the host loop and what it has delivered. -/
structure ExecutionInvariant (guarded : Bool) (execution : Execution) : Prop where
  exposes_iff : ∀ actor, exposes execution.state actor = true ↔ fragments[actor] ∈ execution.publicSink
  deliveries : execution.publicSink = publicDeliveries execution.events
  held : guarded = true → execution.state ≠ 3

def executedEvent (guarded : Bool) (principals : Vector String 2) (grants : List Grant) (index : Nat) (state : Fin 4)
    (request : Request) : Event :=
  let row := requestRow principals grants state request
  { index := index
    principal := some principals[request.actor]
    channel := some request.channel
    payload := some request.payload
    authenticated := some request.authenticated
    locally := decision row.locally
    decision := decision (dispatched guarded row)
    effect := some (if dispatched guarded row = 1 then content request.actor request.payload else "") }

theorem executeRequest_events (execution : Execution) (request : Request) :
    (executeRequest guarded principals grants execution request).events =
      execution.events ++ [executedEvent guarded principals grants execution.events.length execution.state request] := rfl

theorem executeRequest_state (execution : Execution) (request : Request) :
    (executeRequest guarded principals grants execution request).state =
      nextState guarded (requestRow principals grants execution.state request) := rfl

theorem executeRequest_publicSink (execution : Execution) (request : Request) :
    (executeRequest guarded principals grants execution request).publicSink =
      if dispatched guarded (requestRow principals grants execution.state request) = 1 then performed execution.publicSink request
      else execution.publicSink := by
  show (if dispatched guarded (requestRow principals grants execution.state request) = 1 ∧ request.channel = .publicChannel then
    execution.publicSink ++ [if dispatched guarded (requestRow principals grants execution.state request) = 1 then
      content request.actor request.payload else ""] else execution.publicSink) = _
  unfold performed
  by_cases sent : dispatched guarded (requestRow principals grants execution.state request) = 1
  · simp [sent]
  · simp [sent]

theorem startExecution_invariant : ExecutionInvariant guarded startExecution := by
  refine ⟨fun actor => ?_, rfl, fun _ => by decide⟩
  show exposes 0 actor = true ↔ fragments[actor] ∈ ([] : List String)
  simp [exposes_zero]

theorem ExecutionInvariant.executeRequest {execution : Execution} (inv : ExecutionInvariant guarded execution) (request : Request) :
    ExecutionInvariant guarded (executeRequest guarded principals grants execution request) := by
  obtain ⟨locally, byGuard, grows⟩ := transition_spec execution.state request (requestScope principals grants request)
  refine ⟨fun actor => ?_, ?_, fun isGuarded => ?_⟩
  · rw [executeRequest_state, executeRequest_publicSink]
    unfold requestRow
    rw [grows guarded actor, Bool.or_eq_true, inv.exposes_iff actor]
    split
    · rename_i sent
      rw [mem_performed]
      simp [sent]
    · rename_i held
      simp [held]
  · have grown := inv.deliveries
    have sent : decision (dispatched guarded (requestRow principals grants execution.state request)) = .permit ↔
        dispatched guarded (requestRow principals grants execution.state request) = 1 := decision_eq_permit
    rw [executeRequest_publicSink]
    show _ = publicDeliveries (execution.events ++ [_])
    unfold publicDeliveries at grown ⊢
    rw [List.filterMap_append, ← grown]
    simp only [List.filterMap_cons, List.filterMap_nil, Option.some.injEq]
    unfold performed
    by_cases delivered : dispatched guarded (requestRow principals grants execution.state request) = 1
    · by_cases onPublic : request.channel = .publicChannel
      · have both := And.intro onPublic (sent.2 delivered)
        simp_all [dispatched, requestRow, requestScope]
      · simp [delivered, onPublic]
    · have notBoth : ¬(request.channel = .publicChannel ∧
          decision (dispatched guarded (requestRow principals grants execution.state request)) = .permit) :=
        fun both => delivered (sent.1 both.2)
      simp_all [dispatched, requestRow, requestScope]
  · have notAll := inv.held isGuarded
    intro isThree
    rw [executeRequest_state, eq_three_iff] at isThree
    unfold requestRow at isThree
    subst isGuarded
    simp only [grows, dispatched, if_true] at isThree
    by_cases sent : (transition execution.state request.actor request.payload request.channel request.authenticated
        (requestScope principals grants request)).guarded = 1
    · simp only [sent, decide_true, Bool.true_and] at isThree byGuard
      simp [isThree 0, isThree 1] at byGuard
    · simp only [sent, decide_false, Bool.false_and, Bool.or_false] at isThree
      exact notAll (eq_three_iff.2 isThree)

end

open ExceptRun

def requestOf (principals : Vector String 2) (event : Event) : Option Request := do
  let facts ← event.observed
  let actor ← position principals facts.principal
  some ⟨actor, facts.channel, facts.payload, facts.authenticated⟩

theorem position_eq_some {principals : Vector String 2} {principal : String} {actor : Fin 2}
    (found : position principals principal = some actor) : principals[actor] = principal := by
  unfold position at found
  split_ifs at found with first second
  · obtain rfl := Option.some.inj found
    exact first
  · obtain rfl := Option.some.inj found
    exact second

theorem position_of_distinct {principals : Vector String 2} (distinct : principals[0] ≠ principals[1]) (actor : Fin 2) :
    position principals principals[actor] = some actor := by
  unfold position
  match actor with
  | 0 => exact if_pos rfl
  | 1 => exact (if_neg distinct).trans (if_pos rfl)

/-- The variables of the loop after an event that agrees with its request. -/
def reviewRequest (guarded : Bool) (principals : Vector String 2) (grants : List Grant) (review : Review) (i : Nat) (request : Request) :
    Review :=
  let row := requestRow principals grants review.state request
  let chosen := dispatched guarded row
  let expected := if chosen = 1 then content request.actor request.payload else ""
  { state := nextState guarded row
    publicSink := if chosen = 1 ∧ request.channel = .publicChannel then review.publicSink ++ [expected] else review.publicSink
    vaultSink := if chosen = 1 ∧ request.channel = .vaultChannel then review.vaultSink ++ [expected] else review.vaultSink
    exposed :=
      if chosen = 1 ∧ request.channel = .publicChannel ∧ request.payload = .fragment ∧ review.exposed[request.actor].isNone then
        review.exposed.set request.actor (some i)
      else review.exposed
    first := if nextState guarded row = 3 ∧ review.first.isNone then some i else review.first
    localAll := review.localAll && decide (row.locally = 1)
    permittedAll := review.permittedAll && decide (chosen = 1)
    conventionalAll := review.conventionalAll && decide (row.guarded = 1) }

section

variable {guarded : Bool} {principals : Vector String 2} {grants : List Grant} {review : Review}

def Review.Consistent (review : Review) : Prop := ∀ actor : Fin 2, review.exposed[actor].isSome = exposes review.state actor

theorem set_isSome (exposed : Vector (Option Nat) 2) (actor other : Fin 2) (i : Nat) (condition : Prop) [Decidable condition] :
    ((if condition then exposed.set actor (some i) else exposed)[other]).isSome =
      (exposed[other].isSome || (decide condition && decide (other = actor))) := by
  by_cases holds : condition
  · by_cases same : other = actor
    · subst same
      simp [holds]
    · have apart : actor.val ≠ other.val := fun equal => same (Fin.ext equal.symm)
      simp [holds, same, apart]
  · simp [holds]

theorem reviewRequest_consistent (consistent : review.Consistent) (i : Nat) (request : Request) :
    (reviewRequest guarded principals grants review i request).Consistent := by
  intro actor
  obtain ⟨-, -, grows⟩ := transition_spec review.state request (requestScope principals grants request)
  unfold reviewRequest
  rw [set_isSome, requestRow, grows guarded actor, ← consistent actor]
  unfold publishes
  by_cases same : actor = request.actor
  · subst same
    have known : review.exposed[request.actor].isNone = !review.exposed[request.actor].isSome := by
      cases review.exposed[request.actor] <;> rfl
    rw [known]
    cases review.exposed[request.actor].isSome <;> simp
  · simp [same]

theorem conventional_eq (consistent : review.Consistent) (i : Nat) (request : Request) (hypothetical : Vector (Option Nat) 2)
    (updated : hypothetical = if request.channel = .publicChannel ∧ request.payload = .fragment then
      review.exposed.set request.actor (some i) else review.exposed) :
    (request.authenticated && requestScope principals grants request && !(hypothetical[0].isSome && hypothetical[1].isSome)) =
      decide ((requestRow principals grants review.state request).guarded = 1) := by
  obtain ⟨-, byGuard, -⟩ := transition_spec review.state request (requestScope principals grants request)
  have atActor : ∀ actor : Fin 2, hypothetical[actor].isSome = (exposes review.state actor || publishes request actor) := by
    intro actor
    rw [updated, set_isSome, consistent actor]
    simp [publishes]
  have first : hypothetical[0].isSome = (exposes review.state 0 || publishes request 0) := atActor 0
  have second : hypothetical[1].isSome = (exposes review.state 1 || publishes request 1) := atActor 1
  rw [first, second]
  exact byGuard.symm

theorem requestOf_eq_some {event : Event} {request : Request} (answered : requestOf principals event = some request) :
    ∃ effect, event.observed = some ⟨principals[request.actor], request.channel, request.payload, request.authenticated, effect⟩ ∧
      position principals principals[request.actor] = some request.actor := by
  unfold requestOf at answered
  obtain ⟨facts, observed, answered⟩ := Option.bind_eq_some_iff.1 answered
  obtain ⟨actor, found, made⟩ := Option.bind_eq_some_iff.1 answered
  obtain rfl := Option.some.inj made
  have same := position_eq_some found
  refine ⟨facts.effect, ?_, ?_⟩
  · rw [observed, same]
  · rw [same]
    exact found

theorem observed_eq_some {event : Event} {facts : Observation} : event.observed = some facts ↔
    event.principal = some facts.principal ∧ event.channel = some facts.channel ∧ event.payload = some facts.payload ∧
      event.authenticated = some facts.authenticated ∧ event.effect = some facts.effect := by
  obtain ⟨index, principal, channel, payload, authenticated, locally, decision, effect⟩ := event
  obtain ⟨expectedPrincipal, expectedChannel, expectedPayload, expectedAuthenticated, expectedEffect⟩ := facts
  unfold Event.observed
  cases principal <;> cases channel <;> cases payload <;> cases authenticated <;> cases effect <;> simp [bind]

/-- On consistent variables the two cross-checks of the loop cannot fail. -/
theorem checkEvent_of_request (consistent : review.Consistent) {event : Event} (i : Nat) {request : Request}
    (answered : requestOf principals event = some request) :
    checkEvent guarded principals grants review (event, i) =
      if event.index ≠ i then .error "host order is not contiguous"
      else if event ≠ executedEvent guarded principals grants i review.state request then
        .error "decision/effect disagrees with scoped request and Lean transition"
      else .ok (reviewRequest guarded principals grants review i request) := by
  obtain ⟨effect, observed, found⟩ := requestOf_eq_some answered
  unfold checkEvent
  simp only [observed, found]
  by_cases contiguous : event.index = i
  · have facts := observed_eq_some.1 observed
    have recorded : event = executedEvent guarded principals grants i review.state request ↔
        event.locally = decision (requestRow principals grants review.state request).locally ∧
          event.decision = decision (dispatched guarded (requestRow principals grants review.state request)) ∧
          effect = if dispatched guarded (requestRow principals grants review.state request) = 1 then
            content request.actor request.payload else "" := by
      obtain ⟨index, principal, channel, payload, authenticated, locally, decided, delivered⟩ := event
      obtain ⟨rfl, rfl, rfl, rfl, rfl⟩ := facts
      obtain rfl : index = i := contiguous
      simp [executedEvent]
    have agrees := @conventional_eq principals grants review consistent i request _ rfl
    have next := @reviewRequest_consistent guarded principals grants review consistent i request
    rw [if_neg (not_not.2 contiguous), if_neg (not_not.2 contiguous)]
    by_cases matching : event = executedEvent guarded principals grants i review.state request
    · obtain ⟨sameLocally, sameDecision, sameEffect⟩ := recorded.1 matching
      have noMismatch : ¬(event.locally ≠ decision (requestRow principals grants review.state request).locally ∨
          event.decision ≠ decision (dispatched guarded (requestRow principals grants review.state request)) ∨
          effect ≠ if dispatched guarded (requestRow principals grants review.state request) = 1 then
            content request.actor request.payload else "") := by
        rintro (differs | differs | differs)
        · exact differs sameLocally
        · exact differs sameDecision
        · exact differs sameEffect
      have dispatches : ∀ conventional : Bool, conventional = decide ((requestRow principals grants review.state request).guarded = 1) →
          ¬((if guarded = true then conventional else request.authenticated && requestScope principals grants request) ≠
            decide (dispatched guarded (requestRow principals grants review.state request) = 1)) := by
        intro conventional same
        rw [not_not, same]
        cases guarded with
        | true => rfl
        | false => exact (transition_spec review.state request (requestScope principals grants request)).1.symm
      have encodes : ¬((nextState guarded (requestRow principals grants review.state request)).val ≠
          (reviewRequest guarded principals grants review i request).exposed[0].isSome.toNat * 2 +
            (reviewRequest guarded principals grants review i request).exposed[1].isSome.toNat) := by
        have first : (reviewRequest guarded principals grants review i request).exposed[0].isSome = _ := next 0
        have second : (reviewRequest guarded principals grants review i request).exposed[1].isSome = _ := next 1
        rw [not_not, first, second]
        exact val_eq_exposed _
      rw [if_neg (not_not.2 matching)]
      refine (if_neg noMismatch).trans ((if_neg (dispatches _ agrees)).trans ((if_neg encodes).trans ?_))
      exact congrArg (fun conventional => Except.ok
        { reviewRequest guarded principals grants review i request with conventionalAll := review.conventionalAll && conventional }) agrees
    · have mismatch : event.locally ≠ decision (requestRow principals grants review.state request).locally ∨
          event.decision ≠ decision (dispatched guarded (requestRow principals grants review.state request)) ∨
          effect ≠ if dispatched guarded (requestRow principals grants review.state request) = 1 then
            content request.actor request.payload else "" := by
        by_contra none
        push Not at none
        exact matching (recorded.2 none)
      rw [if_pos matching]
      exact if_pos mismatch
  · simp only [ne_eq, contiguous, not_false_eq_true, if_true]

theorem checkEvent_answered {event : Event} {i : Nat} {next : Review}
    (checked : checkEvent guarded principals grants review (event, i) = .ok next) : ∃ request, requestOf principals event = some request := by
  unfold checkEvent at checked
  unfold requestOf
  cases observed : event.observed with
  | none => simp [observed] at checked
  | some facts =>
    cases found : position principals facts.principal with
    | none => simp [observed, found] at checked
    | some actor => exact ⟨⟨actor, facts.channel, facts.payload, facts.authenticated⟩, by simp [found]⟩

theorem checkEvent_eq_ok (consistent : review.Consistent) {event : Event} {i : Nat} {next : Review} :
    checkEvent guarded principals grants review (event, i) = .ok next ↔
      ∃ request, requestOf principals event = some request ∧ event = executedEvent guarded principals grants i review.state request ∧
        next = reviewRequest guarded principals grants review i request := by
  constructor
  · intro checked
    obtain ⟨request, answered⟩ := checkEvent_answered checked
    rw [checkEvent_of_request consistent i answered] at checked
    split_ifs at checked with apart differs
    exact ⟨request, answered, not_not.1 differs, (Except.ok.inj checked).symm⟩
  · rintro ⟨request, answered, same, rfl⟩
    have contiguous : event.index = i := by rw [same]; rfl
    rw [checkEvent_of_request consistent i answered, if_neg (not_not.2 contiguous), if_neg (not_not.2 same)]

theorem requestOf_executedEvent (distinct : principals[0] ≠ principals[1]) (i : Nat) (state : Fin 4) (request : Request) :
    requestOf principals (executedEvent guarded principals grants i state request) = some request := by
  have found := position_of_distinct distinct request.actor
  show (position principals principals[request.actor]).bind
    (fun actor => some ⟨actor, request.channel, request.payload, request.authenticated⟩) = some request
  rw [found]
  rfl

end

/-- The event index at which the public deliveries first contain both fragments. -/
def FirstExposure (events : List Event) (i : Nat) : Prop :=
  i < events.length ∧ Exposed (publicDeliveries (events.take (i + 1))) ∧ ¬Exposed (publicDeliveries (events.take i))

theorem publicDeliveries_mono {events longer : List Event} (extends_ : events <+: longer) {text : String}
    (delivered : text ∈ publicDeliveries events) : text ∈ publicDeliveries longer := by
  obtain ⟨rest, rfl⟩ := extends_
  unfold publicDeliveries at delivered ⊢
  rw [List.filterMap_append]
  exact List.mem_append_left _ delivered

theorem FirstExposure.least {events : List Event} {i : Nat} (first : FirstExposure events i) {j : Nat} (earlier : j < i) :
    ¬Exposed (publicDeliveries (events.take (j + 1))) := by
  intro exposed
  have shorter : events.take (j + 1) <+: events.take i := List.take_prefix_take_left (by omega)
  exact first.2.2 fun actor => publicDeliveries_mono shorter (exposed actor)

structure Reviewed (guarded : Bool) (execution : Execution) (review : Review) : Prop where
  invariant : ExecutionInvariant guarded execution
  consistent : review.Consistent
  state : review.state = execution.state
  publicSink : review.publicSink = execution.publicSink
  vaultSink : review.vaultSink = execution.vaultSink
  unexposed : review.first = none → ¬Exposed execution.publicSink
  first : ∀ i, review.first = some i → FirstExposure execution.events i

section

variable {guarded : Bool} {principals : Vector String 2} {grants : List Grant}

theorem start_reviewed : Reviewed guarded startExecution startReview := by
  refine ⟨startExecution_invariant, ?_, rfl, rfl, rfl, fun _ exposed => ?_, fun i found => ?_⟩
  · unfold Review.Consistent
    decide
  · exact absurd (exposed 0) List.not_mem_nil
  · cases found

theorem reviewRequest_first (review : Review) (i : Nat) (request : Request) :
    (reviewRequest guarded principals grants review i request).first =
      if nextState guarded (requestRow principals grants review.state request) = 3 ∧ review.first.isNone then some i else review.first := rfl

theorem Reviewed.request {execution : Execution} {review : Review} (reviewed : Reviewed guarded execution review) (request : Request) :
    Reviewed guarded (executeRequest guarded principals grants execution request)
      (reviewRequest guarded principals grants review execution.events.length request) := by
  have after := @ExecutionInvariant.executeRequest guarded principals grants execution reviewed.invariant request
  have exposedIff : (executeRequest guarded principals grants execution request).state = 3 ↔
      Exposed (executeRequest guarded principals grants execution request).publicSink := by
    rw [eq_three_iff]
    exact forall_congr' after.exposes_iff
  have sameState : nextState guarded (requestRow principals grants review.state request) =
      (executeRequest guarded principals grants execution request).state := by rw [reviewed.state]; rfl
  refine ⟨after, reviewRequest_consistent reviewed.consistent _ request, sameState, ?_, ?_, ?_, ?_⟩
  · unfold reviewRequest
    rw [reviewed.state, reviewed.publicSink]
    rfl
  · unfold reviewRequest
    rw [reviewed.state, reviewed.vaultSink]
    rfl
  · intro none exposed
    rw [reviewRequest_first, sameState, exposedIff.2 exposed] at none
    cases earlier : review.first <;> simp [earlier] at none
  · intro i found
    rw [reviewRequest_first, sameState] at found
    have grown := @executeRequest_events guarded principals grants execution request
    cases earlier : review.first with
    | some known =>
      obtain rfl : known = i := by simpa [earlier] using found
      obtain ⟨inside, exposed, before⟩ := reviewed.first known earlier
      rw [grown]
      refine ⟨by simp; omega, ?_, ?_⟩
      · rw [List.take_append_of_le_length (by omega)]
        exact exposed
      · rw [List.take_append_of_le_length (by omega)]
        exact before
    | none =>
      have hidden := reviewed.unexposed earlier
      rw [reviewed.invariant.deliveries] at hidden
      rw [earlier] at found
      split_ifs at found with complete
      obtain rfl := Option.some.inj found
      have exposed := exposedIff.1 complete.1
      rw [after.deliveries] at exposed
      refine ⟨by simp [grown], ?_, ?_⟩
      · rw [List.take_of_length_le (by simp [grown])]
        exact exposed
      · rw [grown, List.take_left]
        exact hidden

end

section

variable {guarded : Bool} {principals : Vector String 2} {grants : List Grant}

theorem review_executed (distinct : principals[0] ≠ principals[1]) (requests : List Request) :
    ∃ review, (requests.foldl (executeRequest guarded principals grants) startExecution).events.zipIdx.foldlM
        (checkEvent guarded principals grants) startReview = .ok review ∧
      Reviewed guarded (requests.foldl (executeRequest guarded principals grants) startExecution) review := by
  induction requests using List.reverseRecOn with
  | nil => exact ⟨startReview, rfl, start_reviewed⟩
  | append_singleton earlier request ih =>
    obtain ⟨review, run, reviewed⟩ := ih
    rw [List.foldl_append, List.foldl_cons, List.foldl_nil, executeRequest_events]
    refine ⟨_, ?_, reviewed.request request⟩
    rw [List.zipIdx_append, List.foldlM_append, run, Nat.zero_add, ← reviewed.state]
    refine bind_eq_ok.2 ⟨review, rfl, ?_⟩
    exact bind_eq_ok.2 ⟨_, (checkEvent_eq_ok reviewed.consistent).2
      ⟨request, requestOf_executedEvent distinct _ _ request, rfl, rfl⟩, rfl⟩

theorem execution_of_reviewed {events : List Event} {review : Review}
    (run : events.zipIdx.foldlM (checkEvent guarded principals grants) startReview = .ok review) :
    ∃ requests, events.mapM (requestOf principals) = some requests ∧
      (requests.foldl (executeRequest guarded principals grants) startExecution).events = events ∧
      Reviewed guarded (requests.foldl (executeRequest guarded principals grants) startExecution) review := by
  induction events using List.reverseRecOn generalizing review with
  | nil =>
    obtain rfl : startReview = review := Except.ok.inj run
    exact ⟨[], rfl, rfl, start_reviewed⟩
  | append_singleton earlier event ih =>
    rw [List.zipIdx_append, List.foldlM_append] at run
    obtain ⟨middle, before, last⟩ := bind_eq_ok.1 run
    obtain ⟨next, checked, made⟩ := bind_eq_ok.1 last
    obtain rfl : next = review := Except.ok.inj made
    obtain ⟨requests, answered, sameEvents, reviewed⟩ := ih before
    obtain ⟨request, lastAnswered, same, rfl⟩ := (checkEvent_eq_ok reviewed.consistent).1 checked
    refine ⟨requests ++ [request], ?_, ?_, ?_⟩
    · rw [List.mapM_append, answered]
      simp [lastAnswered]
    · rw [List.foldl_append, List.foldl_cons, List.foldl_nil, executeRequest_events, sameEvents]
      rw [reviewed.state, Nat.zero_add] at same
      rw [← same]
    · rw [List.foldl_append, List.foldl_cons, List.foldl_nil, Nat.zero_add, ← sameEvents]
      exact reviewed.request request

theorem executed_length (requests : List Request) :
    (requests.foldl (executeRequest guarded principals grants) startExecution).events.length = requests.length := by
  induction requests using List.reverseRecOn with
  | nil => rfl
  | append_singleton earlier request ih => simp [executeRequest_events, ih]

theorem executed_observed (requests : List Request) :
    ∀ event ∈ (requests.foldl (executeRequest guarded principals grants) startExecution).events, event.observed.isNone = false := by
  induction requests using List.reverseRecOn with
  | nil => exact fun event listed => absurd listed List.not_mem_nil
  | append_singleton earlier request ih =>
    intro event listed
    rw [List.foldl_append, List.foldl_cons, List.foldl_nil, executeRequest_events] at listed
    rcases List.mem_append.1 listed with before | last
    · exact ih event before
    · rw [List.mem_singleton.1 last]
      rfl

theorem executed_extends (before after : List Request) :
    (before.foldl (executeRequest guarded principals grants) startExecution).events <+:
      ((before ++ after).foldl (executeRequest guarded principals grants) startExecution).events := by
  induction after using List.reverseRecOn with
  | nil => simp
  | append_singleton later request ih =>
    rw [← List.append_assoc, List.foldl_append, List.foldl_cons, List.foldl_nil, executeRequest_events]
    exact ih.trans (List.prefix_append _ _)

theorem check_judged {run : Run} (valid : (check run).knowledge ≠ .invalid) (conclusive : (check run).knowledge ≠ .inconclusive) :
    ∃ principals grants review, run = ⟨"legitimacy.executed-composition.run.v1", run.id, policy, run.guarded, true, some principals,
        some grants, run.events, some review.publicSink, some review.vaultSink⟩ ∧
      run.events.zipIdx.foldlM (checkEvent run.guarded principals grants) startReview = .ok review ∧ check run = verdict run review := by
  generalize judged : check run = outcome at valid conclusive ⊢
  unfold check at judged
  split at judged
  · exact absurd (congrArg Report.knowledge judged.symm) valid
  · rename_i wellFormed
    split at judged
    · exact absurd (congrArg Report.knowledge judged.symm) valid
    · split at judged
      · rename_i principals grants publicSink vaultSink havePrincipals haveGrants havePublic haveVault
        split at judged
        · exact absurd (congrArg Report.knowledge judged.symm) conclusive
        · rename_i finished
          split at judged
          · exact absurd (congrArg Report.knowledge judged.symm) valid
          · split at judged
            · exact absurd (congrArg Report.knowledge judged.symm) conclusive
            · split at judged
              · exact absurd (congrArg Report.knowledge judged.symm) valid
              · rename_i review passed
                split at judged
                · exact absurd (congrArg Report.knowledge judged.symm) valid
                · rename_i sinks
                  refine ⟨principals, grants, review, ?_, passed, judged.symm⟩
                  obtain ⟨format, id, runPolicy, guarded, complete, _, _, events, _, _⟩ := run
                  push Not at wellFormed sinks
                  obtain ⟨rfl, rfl⟩ := wellFormed
                  obtain rfl : complete = true := by
                    cases complete
                    · simp at finished
                    · rfl
                  subst havePrincipals haveGrants havePublic haveVault
                  rw [sinks.1, sinks.2]
      · exact absurd (congrArg Report.knowledge judged.symm) conclusive

theorem Reviewed.knowledge_safe {execution : Execution} {review : Review} (reviewed : Reviewed guarded execution review) (run : Run) :
    (verdict run review).knowledge = .safe ↔ ¬Exposed execution.publicSink := by
  show (if review.first.isSome = true then Knowledge.violated else .safe) = .safe ↔ _
  cases found : review.first with
  | none => simp [reviewed.unexposed found]
  | some i =>
    obtain ⟨inside, exposed, -⟩ := reviewed.first i found
    have still : Exposed execution.publicSink := by
      rw [reviewed.invariant.deliveries]
      exact fun actor => publicDeliveries_mono (List.take_prefix _ _) (exposed actor)
    simp [still]

theorem Reviewed.knowledge_violated {execution : Execution} {review : Review} (reviewed : Reviewed guarded execution review) (run : Run) :
    (verdict run review).knowledge = .violated ↔ Exposed execution.publicSink := by
  have safe := reviewed.knowledge_safe run
  rw [← not_iff_not, ← safe]
  show (¬(if review.first.isSome = true then Knowledge.violated else .safe) = .violated) ↔ (if _ then _ else _) = _
  cases review.first <;> simp

end

theorem suppliedGrants_valid (revokeB : Bool) :
    ¬(suppliedPrincipals[0] = "" ∨ suppliedPrincipals[1] = "" ∨ suppliedPrincipals[0] = suppliedPrincipals[1] ∨
      (suppliedGrants revokeB).length > 32 ∨ (suppliedGrants revokeB).any fun grant => grant.principal ∉ suppliedPrincipals.toList) := by
  cases revokeB <;> decide

theorem check_execute {id : String} (guarded : Bool) {requests : List Request} (revokeB : Bool) (admissible : id.utf8ByteSize ≤ 512)
    (nonempty : requests ≠ []) (bounded : requests.length ≤ 256) :
    ∃ review, Reviewed guarded (requests.foldl (executeRequest guarded suppliedPrincipals (suppliedGrants revokeB)) startExecution) review ∧
      check (execute id guarded requests revokeB) = verdict (execute id guarded requests revokeB) review := by
  obtain ⟨review, run, reviewed⟩ := @review_executed guarded suppliedPrincipals (suppliedGrants revokeB) (by decide) requests
  refine ⟨review, reviewed, ?_⟩
  have long := @executed_length guarded suppliedPrincipals (suppliedGrants revokeB) requests
  have observed := @executed_observed guarded suppliedPrincipals (suppliedGrants revokeB) requests
  have small : ¬((execute id guarded requests revokeB).events.length > 256 ∨ id.utf8ByteSize > 512) := by
    show ¬((requests.foldl _ startExecution).events.length > 256 ∨ _)
    omega
  have someEvents : ¬((!true || (execute id guarded requests revokeB).events.isEmpty) = true) := by
    show ¬((!true || (requests.foldl _ startExecution).events.isEmpty) = true)
    rw [List.isEmpty_eq_false_iff.2 fun none => nonempty (List.length_eq_zero_iff.1 (by rw [← long, none]; rfl))]
    decide
  have known : ¬((execute id guarded requests revokeB).events.any fun event => event.observed.isNone) = true := by
    rw [Bool.not_eq_true, List.any_eq_false]
    exact fun event listed => Bool.eq_false_iff.1 (observed event listed)
  have sinks : ¬(review.publicSink ≠ _ ∨ review.vaultSink ≠ _) := not_or.2 ⟨not_not.2 reviewed.publicSink, not_not.2 reviewed.vaultSink⟩
  have supported : ¬((execute id guarded requests revokeB).format ≠ "legitimacy.executed-composition.run.v1" ∨
      (execute id guarded requests revokeB).policy ≠ policy) := not_or.2 ⟨not_not.2 rfl, not_not.2 rfl⟩
  unfold check
  refine (if_neg supported).trans ((if_neg small).trans ((if_neg someEvents).trans ((if_neg (suppliedGrants_valid revokeB)).trans
    ((if_neg known).trans ?_))))
  have reads : (execute id guarded requests revokeB).events.zipIdx.foldlM
      (checkEvent (execute id guarded requests revokeB).guarded suppliedPrincipals (suppliedGrants revokeB)) startReview = .ok review := run
  split
  · next failed => cases reads.symm.trans failed
  · next passed =>
    obtain rfl := Except.ok.inj (reads.symm.trans passed)
    exact if_neg sinks

/-- A request that its principal may make, whatever has been delivered before. -/
def Authorised (revokeB : Bool) (request : Request) : Prop :=
  request.authenticated = true ∧ requestScope suppliedPrincipals (suppliedGrants revokeB) request = true

theorem guard_denies_iff {revokeB : Bool} {before : List Request} {request : Request} (after : List Request)
    (authorised : Authorised revokeB request) :
    ∃ event, ((before ++ request :: after).foldl (executeRequest true suppliedPrincipals (suppliedGrants revokeB)) startExecution).events[before.length]? =
        some event ∧ requestOf suppliedPrincipals event = some request ∧
      (event.decision = .deny ↔ Exposed (performed
        (before.foldl (executeRequest true suppliedPrincipals (suppliedGrants revokeB)) startExecution).publicSink request)) := by
  obtain ⟨review, -, reviewed⟩ := @review_executed true suppliedPrincipals (suppliedGrants revokeB) (by decide) before
  have long := @executed_length true suppliedPrincipals (suppliedGrants revokeB) before
  generalize reached : before.foldl (executeRequest true suppliedPrincipals (suppliedGrants revokeB)) startExecution = execution at reviewed long
  obtain ⟨-, byGuard, -⟩ := transition_spec execution.state request (requestScope suppliedPrincipals (suppliedGrants revokeB) request)
  refine ⟨executedEvent true suppliedPrincipals (suppliedGrants revokeB) before.length execution.state request, ?_,
    requestOf_executedEvent (by decide) _ _ request, ?_⟩
  · obtain ⟨later, whole⟩ := @executed_extends true suppliedPrincipals (suppliedGrants revokeB) (before ++ [request]) after
    rw [List.append_assoc, List.singleton_append, List.foldl_append, List.foldl_cons, List.foldl_nil, reached, executeRequest_events, long] at whole
    rw [← whole, List.append_assoc, List.getElem?_append_right (by omega), long, Nat.sub_self]
    rfl
  · have completes : Exposed (performed execution.publicSink request) ↔
        (exposes execution.state 0 || publishes request 0) = true ∧ (exposes execution.state 1 || publishes request 1) = true := by
      rw [Bool.or_eq_true, Bool.or_eq_true, reviewed.invariant.exposes_iff, reviewed.invariant.exposes_iff, ← mem_performed,
        ← mem_performed]
      exact Fin.forall_fin_two
    have locally : (request.authenticated && requestScope suppliedPrincipals (suppliedGrants revokeB) request) = true := by
      rw [authorised.1, authorised.2]
      rfl
    rw [locally, Bool.true_and] at byGuard
    rw [completes, ← Bool.and_eq_true]
    generalize ((exposes execution.state 0 || publishes request 0) && (exposes execution.state 1 || publishes request 1)) = both at byGuard
    show (if (requestRow suppliedPrincipals (suppliedGrants revokeB) execution.state request).guarded = 1 then Decision.permit
      else .deny) = .deny ↔ both = true
    unfold requestRow
    cases both with
    | true => simp [of_decide_eq_false byGuard]
    | false => simp [of_decide_eq_true byGuard]

/-- The checker never rejects an execution; guarded ones are safe, the others are violated when both fragments went out. -/
theorem executions_judged (id : String) (requests : List Request) (revokeB : Bool) (admissible : id.utf8ByteSize ≤ 512)
    (nonempty : requests ≠ []) (bounded : requests.length ≤ 256) :
    (∀ guarded, (check (execute id guarded requests revokeB)).knowledge ≠ .invalid ∧
      (check (execute id guarded requests revokeB)).knowledge ≠ .inconclusive) ∧
    (check (execute id true requests revokeB)).knowledge = .safe ∧
    ((check (execute id false requests revokeB)).knowledge = .violated ↔
      ∃ sink, (execute id false requests revokeB).publicSink = some sink ∧ Exposed sink) ∧
    ∀ before request after, requests = before ++ request :: after → Authorised revokeB request →
      ∃ event sink, (execute id true requests revokeB).events[before.length]? = some event ∧
        requestOf suppliedPrincipals event = some request ∧ (execute id true before revokeB).publicSink = some sink ∧
        (event.decision = .deny ↔ Exposed (performed sink request)) := by
  refine ⟨fun guarded => ?_, ?_, ?_, fun before request after split authorised => ?_⟩
  · obtain ⟨review, reviewed, judged⟩ := check_execute guarded revokeB admissible nonempty bounded
    rw [judged]
    unfold verdict
    constructor <;> dsimp only <;> split <;> decide
  · obtain ⟨review, reviewed, judged⟩ := check_execute true revokeB admissible nonempty bounded
    rw [judged, reviewed.knowledge_safe]
    intro exposed
    exact reviewed.invariant.held rfl (eq_three_iff.2 fun actor => (reviewed.invariant.exposes_iff actor).2 (exposed actor))
  · obtain ⟨review, reviewed, judged⟩ := check_execute false revokeB admissible nonempty bounded
    rw [judged, reviewed.knowledge_violated]
    exact ⟨fun exposed => ⟨_, rfl, exposed⟩, fun ⟨sink, held, exposed⟩ => Option.some.inj held ▸ exposed⟩
  · subst split
    obtain ⟨event, recorded, answered, denies⟩ := guard_denies_iff after authorised
    exact ⟨event, _, recorded, answered, rfl, denies⟩

theorem executions_judged_joint_release :
    (check (execute "joint" true [⟨0, .publicChannel, .fragment, true⟩, ⟨1, .publicChannel, .fragment, true⟩] false)).knowledge = .safe :=
  (executions_judged "joint" [⟨0, .publicChannel, .fragment, true⟩, ⟨1, .publicChannel, .fragment, true⟩] false (by decide) (by decide)
    (by decide)).2.1

/-- A run judged safe or violated is the execution of its own requests under its own principals and grants, and the judgement is
about its public sink. -/
theorem check_sound (run : Run) :
    ((check run).knowledge = .safe → ∃ sink, run.publicSink = some sink ∧ ¬Exposed sink) ∧
    ((check run).knowledge = .violated → run.guarded = false ∧ ∃ sink i, run.publicSink = some sink ∧ Exposed sink ∧
      (check run).firstForbiddenEvent = some i ∧ i < run.events.length ∧ Exposed (publicDeliveries (run.events.take (i + 1))) ∧
      ∀ j < i, ¬Exposed (publicDeliveries (run.events.take (j + 1)))) ∧
    ((check run).knowledge = .safe ∨ (check run).knowledge = .violated → ∃ principals grants requests,
      run.principals = some principals ∧ run.grants = some grants ∧ run.events.mapM (requestOf principals) = some requests ∧
      run = executeUnder principals grants run.id run.guarded requests) := by
  have judgedRun : (check run).knowledge = .safe ∨ (check run).knowledge = .violated → ∃ principals grants requests review,
      run.principals = some principals ∧ run.grants = some grants ∧ run.events.mapM (requestOf principals) = some requests ∧
      run = executeUnder principals grants run.id run.guarded requests ∧ check run = verdict run review ∧
      Reviewed run.guarded (requests.foldl (executeRequest run.guarded principals grants) startExecution) review := by
    intro judged
    obtain ⟨principals, grants, review, shape, passed, verdictOf⟩ : _ := @check_judged run
      (by rcases judged with safe | violated <;> simp [*]) (by rcases judged with safe | violated <;> simp [*])
    obtain ⟨requests, answered, sameEvents, reviewed⟩ := execution_of_reviewed passed
    refine ⟨principals, grants, requests, review, congrArg Run.principals shape, congrArg Run.grants shape, answered, ?_, verdictOf, reviewed⟩
    rw [reviewed.publicSink, reviewed.vaultSink, ← sameEvents] at shape
    exact shape
  refine ⟨fun safe => ?_, fun violated => ?_, fun judged => ?_⟩
  · obtain ⟨principals, grants, requests, review, -, -, -, same, verdictOf, reviewed⟩ := judgedRun (Or.inl safe)
    rw [verdictOf, reviewed.knowledge_safe] at safe
    exact ⟨_, congrArg Run.publicSink same, safe⟩
  · obtain ⟨principals, grants, requests, review, -, -, -, same, verdictOf, reviewed⟩ := judgedRun (Or.inr violated)
    rw [verdictOf, reviewed.knowledge_violated] at violated
    have sameEvents : run.events = (requests.foldl (executeRequest run.guarded principals grants) startExecution).events :=
      congrArg Run.events same
    obtain ⟨i, found⟩ : ∃ i, review.first = some i := by
      cases first : review.first with
      | none => exact absurd violated (reviewed.unexposed first)
      | some i => exact ⟨i, rfl⟩
    have first := reviewed.first i found
    rw [← sameEvents] at first
    refine ⟨?_, _, i, congrArg Run.publicSink same, violated, ?_, first.1, first.2.1, fun j earlier => first.least earlier⟩
    · by_contra isGuarded
      have held := reviewed.invariant.held (Bool.eq_true_of_not_eq_false isGuarded)
      exact held (eq_three_iff.2 fun actor => (reviewed.invariant.exposes_iff actor).2 (violated actor))
    · rw [verdictOf]
      exact found
  · obtain ⟨principals, grants, requests, review, havePrincipals, haveGrants, answered, same, -, -⟩ := judgedRun judged
    exact ⟨principals, grants, requests, havePrincipals, haveGrants, answered, same⟩

theorem check_sound_joint_release : ∃ i, (check (execute "locally-approved-joint-release" false
    [⟨0, .publicChannel, .fragment, true⟩, ⟨1, .publicChannel, .fragment, true⟩] false)).firstForbiddenEvent = some i := by
  obtain ⟨-, sink, i, -, -, first, -⟩ := (check_sound (execute "locally-approved-joint-release" false
    [⟨0, .publicChannel, .fragment, true⟩, ⟨1, .publicChannel, .fragment, true⟩] false)).2.1 (by decide +kernel)
  exact ⟨i, first⟩

/-- The run of the suite whose authority evidence is withheld. -/
def missingAuthority : Run :=
  { execute "missing-authority-evidence" true [⟨0, .publicChannel, .fragment, true⟩, ⟨1, .vaultChannel, .fragment, true⟩] false with
    grants := none }

/-- Missing evidence makes a run inconclusive, not invalid, and no execution lacks its grants. -/
theorem missingAuthority_not_executed : (check missingAuthority).knowledge ≠ .invalid ∧ ∀ principals grants requests,
    missingAuthority ≠ executeUnder principals grants missingAuthority.id missingAuthority.guarded requests := by
  refine ⟨by decide +kernel, fun principals grants requests same => ?_⟩
  have grantsOf : (none : Option (List Grant)) = some grants := congrArg Run.grants same
  cases grantsOf

end Legitimacy.ExecutedComposition
