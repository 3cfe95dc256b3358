import Legitimacy.ProcessCapture.Supervisor

namespace Legitimacy.ProcessCapture

open Outcomes CodexExec

inductive ObservedTermination
  | exited (code : Nat)
  | signaled (signal : Nat) (coreDumped : Bool)
deriving DecidableEq

def ObservedTermination.fromStatus : ExitStatus → Except AdapterErrorCode ObservedTermination
  | .code value => if value < 256 then .ok (.exited value) else .error .illegalTermination
  | .signal number coreDumped => if number < 256 then .ok (.signaled number coreDumped) else .error .illegalTermination

structure ExecutionOutput where
  termination : ObservedTermination
  stdout : List UInt8
  stderr : List UInt8

inductive SupervisionDecision
  | cleanupUncertain
  | primary (failure : PrimaryCaptureFailure)
  | success
  | continue
deriving DecidableEq

def selectSupervisionDecision (primary : PrimaryCaptureFailures) (cleanupUncertain successReady : Bool) : SupervisionDecision :=
  if cleanupUncertain then .cleanupUncertain
  else match primary.selected with
    | some failure => .primary failure
    | none => if successReady then .success else .continue

structure JoinedWorkers where
  writer : Option (WorkerCompletion Unit)
  stdout : Option (WorkerCompletion (List UInt8))
  stderr : Option (WorkerCompletion (List UInt8))
  joinUncertain : Bool

inductive SupervisionFailure
  | cleanupUncertain
  | primary
deriving DecidableEq

section

variable (host : Host)

def loadFlag {ε : Type} (flag : WorkerFailureFacts → Bool) : Calls ε Bool := act host fun machine => (flag machine.workers.failures, machine)

def loadEither {ε : Type} (first second : WorkerFailureFacts → Bool) : Calls ε Bool := do
  let set ← loadFlag host first
  if set then pure true else loadFlag host second

def snapshot {ε : Type} : Calls ε PrimaryCaptureFailures := do
  let stdoutOverflow ← loadFlag host WorkerFailureFacts.stdoutOverflow
  let stderrOverflow ← loadFlag host WorkerFailureFacts.stderrOverflow
  let writerFailed ← loadFlag host WorkerFailureFacts.writerFailed
  let streamFailed ← loadEither host WorkerFailureFacts.stdoutFailed WorkerFailureFacts.stderrFailed
  pure ((((PrimaryCaptureFailures.mk 0).insertIf stdoutOverflow .stdoutOverflow).insertIf stderrOverflow .stderrOverflow).insertIf
    writerFailed .stdin |>.insertIf streamFailed .streamState)

/-- Waits for a worker. One that was not spawned has nothing to say. -/
def joinOne {α : Type} (spawned : Workers → Bool) (ended : Workers → Option (Ended α)) : Calls Stop (Option (WorkerCompletion α) × Bool) := do
  let (running, result) ← act host fun machine => ((spawned machine.workers, ended machine.workers), machine)
  if running then
    match result with
    | none => throw .blocked
    | some (.returned completion) => pure (some completion, false)
    | some .panicked => pure (none, true)
  else pure (none, false)

def joinWorkers : Calls Stop JoinedWorkers := do
  let (writer, writerPanic) ← joinOne host (fun workers => workers.writer.isSome) Workers.writerEnd
  let (stdout, stdoutPanic) ← joinOne host (fun workers => workers.stdout.isSome) fun workers => Workers.readerEnd workers.stdout
  let (stderr, stderrPanic) ← joinOne host (fun workers => workers.stderr.isSome) fun workers => Workers.readerEnd workers.stderr
  pure ⟨writer, stdout, stderr, writerPanic || stdoutPanic || stderrPanic⟩

def cancelAndJoin : Calls Stop JoinedWorkers := do
  act host fun machine => (⟨⟩, { machine with workers := { machine.workers with cancel := true } })
  joinWorkers host

/-- What a completion adds to the failures. -/
def insertCompletion {α : Type} (observed : PrimaryCaptureFailures) (completion : Option (WorkerCompletion α)) (cancellationExpected : Bool)
    (failure : PrimaryCaptureFailure) : PrimaryCaptureFailures :=
  match completion with
  | some .failed => observed.insert failure
  | some .cancelled => if cancellationExpected then observed else observed.insert failure
  | _ => observed

def closeWorkerFailureObservation {ε : Type} (observed : PrimaryCaptureFailures) (joined : JoinedWorkers) (cancellationExpected : Bool) :
    Calls ε PrimaryCaptureFailures := do
  let last ← snapshot host
  let observed := insertCompletion (observed.union last) joined.writer cancellationExpected .stdin
  let observed := insertCompletion observed joined.stdout cancellationExpected .streamState
  pure (insertCompletion observed joined.stderr cancellationExpected .streamState)

/-- The cleanup and the joins, of which `closing` keeps what they were for and what they have returned. -/
def cleanupAndJoin (main : Nat) (trigger : Trigger) : Calls Stop (Option JoinedWorkers) := do
  let cleanup ← succeeds (cleanupProcessTree host main)
  assign fun machine => { machine with closing := some ⟨trigger, cleanup, false⟩ }
  let joined ← cancelAndJoin host
  assign fun machine => { machine with closing := some ⟨trigger, cleanup, !joined.joinUncertain⟩ }
  pure (if cleanup && !joined.joinUncertain then some joined else none)

def cleanupAndFail {α : Type} (main : Nat) : Calls Stop α := do
  match ← cleanupAndJoin host main .primary with
  | none => throw (.failed .captureCleanup)
  | some joined => do
    let observedPrimary ← own Machine.observedPrimary
    let closedPrimary ← closeWorkerFailureObservation host observedPrimary joined true
    match closedPrimary.selected with
    | none => throw .panicked
    | some primary => throw (.failed primary.code)

def cleanupUncertainAndFail {α : Type} (main : Nat) : Calls Stop α := do
  let _ ← cleanupAndJoin host main .uncertain
  throw (.failed .captureCleanup)

def cleanupSpawnAndFail {α : Type} (main : Nat) : Calls Stop α := do
  match ← cleanupAndJoin host main .spawn with
  | some _ => throw (.failed .captureSpawn)
  | none => throw (.failed .captureCleanup)

end

section

variable (host : Host)

def fcntl : Calls Unit Unit := operation host fun machine => some (⟨⟩, machine)

def makeNonblocking : Calls Unit Unit := do
  fcntl host
  fcntl host

def spawnWorker (start : Workers → Workers) : Calls Unit Unit := operation host fun machine =>
  some (⟨⟩, { machine with workers := start machine.workers })

def startWorkers (stdinBytes : List UInt8) (stdoutCap stderrCap : Nat) : Calls Unit Unit := do
  require (host.stdinPiped = true) ⟨⟩
  require (host.stdoutPiped = true) ⟨⟩
  require (host.stderrPiped = true) ⟨⟩
  makeNonblocking host
  makeNonblocking host
  makeNonblocking host
  spawnWorker host fun workers => { workers with writer := some ⟨stdinBytes, 0, .head, []⟩ }
  spawnWorker host fun workers => { workers with stdout := some ⟨stdoutCap, [], .head, [], false⟩ }
  spawnWorker host fun workers => { workers with stderr := some ⟨stderrCap, [], .head, [], false⟩ }

def insertObserved {ε : Type} (failures : PrimaryCaptureFailures) : Calls ε Unit := assign fun machine =>
  { machine with observedPrimary := machine.observedPrimary.union failures }

def workersFinished {ε : Type} : Calls ε Bool := do
  let writer ← act host fun machine => (machine.workers.writerEnd.isSome, machine)
  if writer then do
    let stdout ← act host fun machine => ((Workers.readerEnd machine.workers.stdout).isSome, machine)
    if stdout then act host fun machine => ((Workers.readerEnd machine.workers.stderr).isSome, machine)
    else pure false
  else pure false

/-- Looks for what is left of the tree when the main child is reaped: whether this is uncertain, and whether all is done. -/
def observeRest {ε : Type} : Calls ε (Bool × Bool) := do
  match ← outcome (reapAdopted host) with
  | .error _ => pure (true, false)
  | .ok _ => do
    match ← outcome (freshAbsence host) with
    | .ok true => do
      let ready ← workersFinished host
      pure (false, ready)
    | .ok false => do
      insertObserved ((PrimaryCaptureFailures.mk 0).insert .liveDescendant)
      pure (false, false)
    | .error _ => pure (true, false)

/-- Whether the direct children were observed and the main child was waited for without a failure. -/
def observeTree {ε : Type} (main : Nat) : Calls ε Bool := do
  let observed ← succeeds (observeDirect host)
  if observed then succeeds (waitMain host main) else pure false

def observeReaped {ε : Type} (waited : Bool) : Calls ε (Bool × Bool) := do
  let status ← own Machine.status
  if status.isSome && waited then observeRest host else pure (!waited, false)

def supervisionPoll {ε : Type} (main : Nat) (expired : Bool) : Calls ε SupervisionDecision := do
  let waited ← observeTree host main
  let failures ← snapshot host
  insertObserved failures
  insertObserved ((PrimaryCaptureFailures.mk 0).insertIf expired .timeout)
  let (cleanupUncertain, successReady) ← observeReaped host waited
  let primary ← own Machine.observedPrimary
  pure (selectSupervisionDecision primary cleanupUncertain successReady)

/-- Polls until there is a decision. When no poll is left the deadline has passed, and there is one. -/
def supervisionLoop (main : Nat) : Nat → Calls Stop (Option SupervisionFailure)
  | 0 => do
    match ← supervisionPoll host main true with
    | .cleanupUncertain => pure (some .cleanupUncertain)
    | .primary _ => pure (some .primary)
    | .success => pure none
    | .continue => throw .blocked
  | polls + 1 => do
    match ← supervisionPoll host main false with
    | .cleanupUncertain => pure (some .cleanupUncertain)
    | .primary _ => pure (some .primary)
    | .success => pure none
    | .continue => supervisionLoop main polls

def failWith {α : Type} (code : AdapterErrorCode) (program : Calls Unit α) : Calls Stop α := orFail (fun _ => .failed code) program

/-- After a success: the workers are joined and the tree is looked for once more. -/
def superviseEnd : Calls Stop ExecutionOutput := do
  let joined ← joinWorkers host
  require (joined.joinUncertain = false) (.failed .captureCleanup)
  let finalPrimary ← closeWorkerFailureObservation host ⟨0⟩ joined false
  match ← own Machine.status with
  | none => throw (.failed .captureCleanup)
  | some status => do
    failWith .captureCleanup (reapAdopted host)
    let absent ← failWith .captureCleanup (freshAbsence host)
    require (absent = true) (.failed .captureCleanup)
    match finalPrimary.selected with
    | some primary => throw (.failed primary.code)
    | none =>
      match joined.stdout with
      | some (.complete stdout) =>
        match joined.stderr with
        | some (.complete stderr) =>
          match ObservedTermination.fromStatus status with
          | .ok termination => pure ⟨termination, stdout, stderr⟩
          | .error code => throw (.failed code)
        | _ => throw .panicked
      | _ => throw .panicked

def superviseSpawnedChild (main : Nat) (stdinBytes : List UInt8) (stdoutCap stderrCap : Nat) : Calls Stop ExecutionOutput := do
  match ← outcome (startWorkers host stdinBytes stdoutCap stderrCap) with
  | .error _ => cleanupSpawnAndFail host main
  | .ok _ => do
    match ← supervisionLoop host main host.polls with
    | some .cleanupUncertain => cleanupUncertainAndFail host main
    | some .primary => cleanupAndFail host main
    | none => superviseEnd host

end

def Machine.begin (forest : Forest) (main identity : Nat) : Machine :=
  ⟨⟨forest, [⟨main, identity, true⟩], [identity]⟩, {}, none, ⟨0⟩, 0, [⟨forest, [⟨main, identity, true⟩], [identity]⟩], [], none⟩

end Legitimacy.ProcessCapture
