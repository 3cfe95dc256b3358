import Legitimacy.Outcomes
import Legitimacy.ProcessCapture.Forest
import Legitimacy.ProcessCapture.Workers

namespace Legitimacy.ProcessCapture

open Outcomes CodexExec

/-- A process number with the pidfd that is held for it, which stands for one process forever. -/
structure OwnedChild where
  number : Nat
  pidfd : Nat
  main : Bool
deriving DecidableEq

inductive Signal
  | term
  | kill
deriving DecidableEq

/-- A signal on its way: the number under which its pidfd is held, and the process that gets it. -/
structure Delivery where
  signal : Signal
  number : Nat
  process : Process

/-- The processes and the children held at one moment, and all processes of which a pidfd was ever held until then. -/
structure Scene where
  forest : Forest
  owned : List OwnedChild
  held : List Nat

/-- What sent the supervision into its cleanup. -/
inductive Trigger
  | spawn
  | uncertain
  | primary
deriving DecidableEq

/-- What a cleanup and the joins after it have returned. -/
structure Closing where
  trigger : Trigger
  cleaned : Bool
  joined : Bool
deriving DecidableEq

/-- The processes, the workers, the variables of the supervisor, and what has happened so far. -/
structure Machine where
  scene : Scene
  workers : Workers
  status : Option ExitStatus
  observedPrimary : PrimaryCaptureFailures
  calls : Nat
  past : List Scene
  sent : List Delivery
  closing : Option Closing

inductive Move
  | process (move : ProcessMove)
  | worker (move : WorkerMove)

/-- What is outside of the supervisor: what happens before each of its operations, which operation fails, how many polls there are before the
deadline, and what the spawned child comes with. -/
structure Host where
  moves : Nat → List Move
  refused : Nat → Bool
  polls : Nat
  stdinPiped : Bool
  stdoutPiped : Bool
  stderrPiped : Bool

inductive Stop
  | failed (code : AdapterErrorCode)
  | blocked
  | panicked
deriving DecidableEq

namespace Machine

/-- Keeps the current scene. -/
def note (machine : Machine) : Machine := { machine with past := machine.scene :: machine.past }

def happen (machine : Machine) : Move → Machine
  | .process move => { machine with scene := { machine.scene with forest := machine.scene.forest.move move } }.note
  | .worker move => { machine with workers := machine.workers.move move }

def settle (machine : Machine) (moves : List Move) : Machine := moves.foldl happen machine

end Machine

/-- An operation that fails, for whatever reason, with what the caller makes of it. -/
abbrev Calls (ε : Type) := Program Machine ε

def operation {α : Type} (host : Host) (perform : Machine → Option (α × Machine)) : Calls Unit α := fun machine =>
  let before := machine.settle (host.moves machine.calls)
  let counted := { before with calls := machine.calls + 1 }
  if host.refused machine.calls then (.error ⟨⟩, counted)
  else match perform counted with
    | some (value, after) => (.ok value, after.note)
    | none => (.error ⟨⟩, counted)

def act {ε α : Type} (host : Host) (perform : Machine → α × Machine) : Calls ε α := fun machine =>
  let before := machine.settle (host.moves machine.calls)
  let (value, after) := perform { before with calls := machine.calls + 1 }
  (.ok value, after.note)

def own {ε α : Type} (read : Machine → α) : Calls ε α := fun machine => (.ok (read machine), machine)

def assign {ε : Type} (change : Machine → Machine) : Calls ε Unit := fun machine => (.ok ⟨⟩, (change machine).note)

section

variable (host : Host)

def insertOwned (child : OwnedChild) : List OwnedChild → List OwnedChild
  | [] => [child]
  | first :: rest => if child.number < first.number then child :: first :: rest else first :: insertOwned child rest

def Scene.adopt (scene : Scene) (child : OwnedChild) : Scene :=
  { scene with owned := insertOwned child scene.owned, held := child.pidfd :: scene.held }

def containsKey (owned : List OwnedChild) (number : Nat) : Bool := owned.any fun child => child.number = number

def directChildPids : Calls Unit (List Nat) := operation host fun machine => some (machine.scene.forest.childNumbers, machine)

def pidfdOpen (number : Nat) : Calls Unit Nat := operation host fun machine =>
  (machine.scene.forest.find number).map fun identity => (identity, machine)

def openMissing : List Nat → Calls Unit Unit
  | [] => pure ⟨⟩
  | number :: rest => do
    let owned ← own fun machine => machine.scene.owned
    if containsKey owned number then openMissing rest
    else do
      let pidfd ← pidfdOpen host number
      assign fun machine => { machine with scene := machine.scene.adopt ⟨number, pidfd, false⟩ }
      openMissing rest

def observeDirect : Calls Unit Unit := do
  let numbers ← directChildPids host
  openMissing host numbers

def pidfdSendSignal (child : OwnedChild) (signal : Signal) : Calls Unit Unit := operation host fun machine =>
  match machine.scene.forest.processes child.pidfd with
  | none => some (⟨⟩, machine)
  | some process => some (⟨⟩, { machine with sent := ⟨signal, child.number, process⟩ :: machine.sent })

def succeeds {ε α : Type} (program : Calls Unit α) : Calls ε Bool := do
  match ← outcome program with
  | .ok _ => pure true
  | .error _ => pure false

def signalLoop (signal : Signal) : List OwnedChild → Bool → Calls Unit Bool
  | [], uncertain => pure uncertain
  | child :: rest, uncertain => do
    let sent ← succeeds (pidfdSendSignal host child signal)
    signalLoop signal rest (uncertain || !sent)

def signalOwned (signal : Signal) : Calls Unit Unit := do
  let owned ← own fun machine => machine.scene.owned
  let uncertain ← signalLoop host signal owned false
  require (uncertain = false) ⟨⟩

def Scene.mainReaped (scene : Scene) : Scene := { scene with owned := scene.owned.filter fun child => !child.main }

def mainReaped {ε : Type} : Calls ε Unit := assign fun machine => { machine with scene := machine.scene.mainReaped }

def reapChild (identity : Nat) (machine : Machine) : Option (Option ExitStatus × Machine) :=
  match machine.scene.forest.processes identity with
  | none => none
  | some process =>
    if process.parent ≠ .supervisor then none
    else match process.life with
      | .running => some (none, machine)
      | .zombie status =>
        some (some status, { machine with scene := { machine.scene with forest := machine.scene.forest.remove identity } })

/-- `Child::try_wait` goes by the number of the main child. -/
def tryWait (main : Nat) : Calls Unit (Option ExitStatus) := operation host fun machine =>
  match machine.scene.forest.find main with
  | none => none
  | some identity => reapChild identity machine

def waitidPidfd (child : OwnedChild) : Calls Unit Bool := operation host fun machine =>
  (reapChild child.pidfd machine).map fun (status, after) => (status.isSome, after)

def reapLoop : List OwnedChild → List Nat → Bool → Calls Unit (List Nat × Bool)
  | [], reaped, uncertain => pure (reaped, uncertain)
  | child :: rest, reaped, uncertain =>
    if child.main then reapLoop rest reaped uncertain
    else do
      match ← outcome (waitidPidfd host child) with
      | .ok gone => reapLoop rest (if gone then reaped ++ [child.number] else reaped) uncertain
      | .error _ => reapLoop rest reaped true

def Scene.forgetReaped (scene : Scene) (reaped : List Nat) : Scene :=
  { scene with owned := scene.owned.filter fun child => child.number ∉ reaped }

def reapAdopted : Calls Unit Unit := do
  let owned ← own fun machine => machine.scene.owned
  let (reaped, uncertain) ← reapLoop host owned [] false
  assign fun machine => { machine with scene := machine.scene.forgetReaped reaped }
  require (uncertain = false) ⟨⟩

def freshAbsence : Calls Unit Bool := do
  observeDirect host
  own fun machine => machine.scene.owned.isEmpty

end

section

variable (host : Host)

/-- Waits for the main child once more, unless its status is known. -/
def waitMain (main : Nat) : Calls Unit Unit := do
  let status ← own Machine.status
  if status.isSome then pure ⟨⟩
  else do
    let observed ← tryWait host main
    if observed.isSome then do
      assign fun machine => { machine with status := observed, scene := machine.scene.mainReaped }
    else pure ⟨⟩

inductive CleanupProgress
  | finished (uncertain : Bool)
  | going (uncertain : Bool)

def cleanupRound (main : Nat) (signal : Signal) (uncertain : Bool) : Calls Unit CleanupProgress := do
  let observed ← succeeds (observeDirect host)
  let signalled ← succeeds (signalOwned host signal)
  let waited ← succeeds (waitMain host main)
  let reaped ← succeeds (reapAdopted host)
  let uncertain := uncertain || !observed || !signalled || !waited || !reaped
  match ← outcome (freshAbsence host) with
  | .ok true => do
    let status ← own Machine.status
    pure (if status.isSome && observed && reaped then .finished uncertain else .going uncertain)
  | .ok false => pure (.going uncertain)
  | .error _ => pure (.going true)

def cleanupRounds (main : Nat) (signal : Signal) : Nat → Bool → Calls Unit CleanupProgress
  | 0, uncertain => pure (.going uncertain)
  | rounds + 1, uncertain => do
    match ← cleanupRound host main signal uncertain with
    | .finished uncertain => pure (.finished uncertain)
    | .going uncertain => cleanupRounds main signal rounds uncertain

def pollIntervalMillis : Nat := 5

def termGraceMillis : Nat := 2000

def cleanupCapMillis : Nat := 10000

def cleanupPhases (main : Nat) : List (Signal × Nat) → Bool → Calls Unit CleanupProgress
  | [], uncertain => pure (.going uncertain)
  | (signal, millis) :: rest, uncertain => do
    match ← cleanupRounds host main signal (millis / pollIntervalMillis) uncertain with
    | .finished uncertain => pure (.finished uncertain)
    | .going uncertain => cleanupPhases main rest uncertain

/-- After the last round there is one more try. -/
def cleanupLast (main : Nat) (uncertain : Bool) : Calls Unit Unit := do
  let observed ← succeeds (observeDirect host)
  let signalled ← succeeds (signalOwned host .kill)
  let waited ← succeeds (waitMain host main)
  let reaped ← succeeds (reapAdopted host)
  let absence ← outcome (freshAbsence host)
  let (absent, unknown) := match absence with
    | .ok value => (value, false)
    | .error _ => (false, true)
  let status ← own Machine.status
  require ((uncertain || !observed || !signalled || !waited || !reaped || unknown) = false ∧ status.isSome ∧ absent) ⟨⟩

/-- A main child whose status is known is no longer in the map. -/
def enterCleanup : Calls Unit Unit := do
  let status ← own Machine.status
  if status.isSome then mainReaped else pure ⟨⟩

def cleanupProcessTree (main : Nat) : Calls Unit Unit := do
  enterCleanup
  match ← cleanupPhases host main [(.term, termGraceMillis), (.kill, cleanupCapMillis)] false with
  | .finished uncertain => require (uncertain = false) ⟨⟩
  | .going uncertain => cleanupLast host main uncertain

end

end Legitimacy.ProcessCapture
