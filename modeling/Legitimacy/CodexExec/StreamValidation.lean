import Legitimacy.ExceptRun
import Legitimacy.Standard
import Mathlib.Algebra.GroupWithZero.Nat
import Mathlib.Algebra.Group.Int.Defs

namespace Legitimacy.CodexExec

inductive AdapterErrorCode
  | unsafeInputPath | unsafeOutputPath | inputOpen | inputType | inputSymlink | inputAlias | inputChanged | inputTooLarge
  | outputSymlink | crossOutputAlias | unsupportedInputProfile | jsonFraming | jsonSyntax | jsonShape | jsonBudget | receiptShape
  | receiptMismatch | trustedContextMismatch | unsupportedAuthority | unsupportedProfile | illegalTermination | streamState
  | unsupportedRecord | mapping | validation | bundleMismatch | lineageSidecarShape | sanitizerRejected | outputExists
  | outputPublish | durabilityUncertain | outputIdentityUncertain | outputIntegrityUncertain | outputRollbackUncertain
  | unsupportedPublicationProfile | entropyUnavailable | publicShareabilityDenied | reservedPolicy | unsupportedPlatform
  | captureSpawn | captureStdin | captureStdoutOverflow | captureStderrOverflow | captureTimeout | captureLiveDescendant
  | captureCleanup
  deriving DecidableEq

structure AdapterError where
  code : AdapterErrorCode
  recordIndex : Option Nat
  structuralPath : Option String
  deriving DecidableEq

def AdapterError.new (code : AdapterErrorCode) : AdapterError := ⟨code, none, none⟩

def AdapterError.record (code : AdapterErrorCode) (index : Nat) (path : String) : AdapterError := ⟨code, some index, some path⟩

inductive Lifecycle
  | started | updated | completed
  deriving DecidableEq

inductive CommandStatus
  | inProgress | completed | failed | declined
  deriving DecidableEq

inductive FileStatus
  | inProgress | completed | failed
  deriving DecidableEq

inductive ChangeKind
  | add | delete | update
  deriving DecidableEq

structure Usage where
  inputTokens : Int
  cachedInputTokens : Int
  outputTokens : Int
  reasoningOutputTokens : Int
  deriving DecidableEq

structure Change where
  path : String
  kind : ChangeKind
  deriving DecidableEq

structure Todo where
  text : String
  completed : Bool
  deriving DecidableEq

inductive Item
  | agentMessage (id text : String)
  | reasoning (id text : String)
  | error (id message : String)
  | command (id command aggregatedOutput : String) (exitCode : Option Int) (status : CommandStatus)
  | fileChange (id : String) (changes : List Change) (status : FileStatus)
  | todoList (id : String) (items : List Todo)
  deriving DecidableEq

inductive ItemClass
  | agentMessage | reasoning | error | command | fileChange | todoList
  deriving DecidableEq

namespace Item

def id : Item → String
  | .agentMessage id _ => id
  | .reasoning id _ => id
  | .error id _ => id
  | .command id _ _ _ _ => id
  | .fileChange id _ _ => id
  | .todoList id _ => id

def itemClass : Item → ItemClass
  | .agentMessage _ _ => .agentMessage
  | .reasoning _ _ => .reasoning
  | .error _ _ => .error
  | .command _ _ _ _ _ => .command
  | .fileChange _ _ _ => .fileChange
  | .todoList _ _ => .todoList

end Item

inductive ParsedRecord
  | threadStarted (threadId : String)
  | turnStarted
  | turnCompleted (usage : Usage)
  | turnFailed (message : String)
  | error (message : String)
  | item (lifecycle : Lifecycle) (item : Item)
  deriving DecidableEq

inductive ProcessTermination
  | exited (code : UInt8)
  | signaled (signal : UInt8) (coreDumped : Bool)
  deriving DecidableEq

open ExceptRun

inductive Terminal
  | completed | failed
  deriving DecidableEq

structure TodoLifecycle where
  id : String
  latestItems : List Todo
  completed : Bool

structure StreamState where
  turnStarted : Bool
  terminal : Option Terminal
  nextItem : Nat
  seenItems : BTreeMap String ItemClass
  active : BTreeMap String Item
  todo : Option TodoLifecycle
  reconcilingAfterTodo : Bool

def StreamState.initial : StreamState := ⟨false, none, 0, ∅, ∅, none, false⟩

def streamError : AdapterError := .new .streamState

def atRecord (index : Nat) (path : String) : AdapterError := .record .streamState index path

def sameActiveItem : Item → Item → Bool
  | .command _ first _ _ .inProgress, .command _ second _ _ status => status != .inProgress && first == second
  | .fileChange _ first .inProgress, .fileChange _ second status => status != .inProgress && first == second
  | .todoList _ _, .todoList _ _ => true
  | _, _ => false

def firstIsLegal : Lifecycle → Item → Bool
  | .completed, .agentMessage _ _ => true
  | .completed, .reasoning _ _ => true
  | .completed, .error _ _ => true
  | .started, .command _ _ _ _ _ => true
  | .started, .fileChange _ _ _ => true
  | .started, .todoList _ _ => true
  | _, _ => false

def itemName (index : Nat) : String := "item_" ++ index.repr

/-- The lifecycle of the todo list that an item with this identifier may still change. -/
def openTodo (id : String) (todo : Option TodoLifecycle) : Option TodoLifecycle :=
  todo.filter fun state => state.id == id && !state.completed

def validateRecurrence (index : Nat) (lifecycle : Lifecycle) (item : Item) (previous : ItemClass) (state : StreamState) :
    Except AdapterError StreamState := do
  if previous ≠ item.itemClass then .error (atRecord index "$.item.id")
  else
    let started ← (state.active[item.id]?).elim (.error (atRecord index "$.item.id")) .ok
    if !sameActiveItem started item then .error (atRecord index "$.item")
    else
      match item, lifecycle with
      | .todoList id items, .updated => do
        let todo ← (openTodo id state.todo).elim (.error (atRecord index "$.item")) .ok
        .ok { state with todo := some { todo with latestItems := items } }
      | .command id _ _ _ _, .completed => .ok { state with active := state.active.erase id }
      | .fileChange id _ _, .completed => .ok { state with active := state.active.erase id }
      | .todoList id items, .completed => do
        let todo ← (openTodo id state.todo).elim (.error (atRecord index "$.item")) .ok
        if todo.latestItems ≠ items then .error (atRecord index "$.item.items")
        else
          .ok { state with
            todo := some { todo with completed := true }
            active := state.active.erase id
            reconcilingAfterTodo := true }
      | _, _ => .error (atRecord index "$.item")

def validateFirst (index : Nat) (lifecycle : Lifecycle) (item : Item) (state : StreamState) : Except AdapterError StreamState :=
  if item.id ≠ itemName state.nextItem then .error (atRecord index "$.item.id")
  -- `checked_add` on a `u64`
  else if 2 ^ 64 ≤ state.nextItem + 1 then .error streamError
  else if !firstIsLegal lifecycle item then .error (atRecord index "$.item")
  else
    let state := { state with
      nextItem := state.nextItem + 1
      seenItems := state.seenItems.insert item.id item.itemClass }
    match item with
    | .todoList id items =>
      if state.todo.isSome then .error (atRecord index "$.item")
      else .ok { state with todo := some ⟨id, items, false⟩, active := state.active.insert id item }
    | .command id _ _ _ _ => .ok { state with active := state.active.insert id item }
    | .fileChange id _ _ => .ok { state with active := state.active.insert id item }
    | .agentMessage _ _ => .ok state
    | .reasoning _ _ => .ok state
    | .error _ _ => .ok state

def validateItemId (index : Nat) (lifecycle : Lifecycle) (item : Item) (state : StreamState) : Except AdapterError StreamState :=
  if 128 < item.id.utf8ByteSize then .error (atRecord index "$.item.id")
  else
    match state.seenItems[item.id]? with
    | some previous => validateRecurrence index lifecycle item previous state
    | none => validateFirst index lifecycle item state

def isReconciliationOrTerminal : ParsedRecord → Bool
  | .item .completed (.command _ _ _ _ _) => true
  | .item .completed (.fileChange _ _ _) => true
  | .turnCompleted _ => true
  | .turnFailed _ => true
  | _ => false

/-- The only item record that may precede the turn. -/
def isItemDiagnostic : Lifecycle → Item → Bool
  | .completed, .error _ _ => true
  | _, _ => false

def finishTurn (index : Nat) (terminal : Terminal) (state : StreamState) : Except AdapterError StreamState :=
  if !state.turnStarted || !state.active.isEmpty then .error (atRecord index "$.type")
  else .ok { state with terminal := some terminal }

/-- The match on the record in the loop of `validate_stream`. -/
def acceptRecord (index : Nat) (state : StreamState) : ParsedRecord → Except AdapterError StreamState
  | .threadStarted _ => if index = 0 then .ok state else .error (atRecord index "$.type")
  | .turnStarted =>
    if !state.turnStarted && decide (0 < index) then .ok { state with turnStarted := true } else .error (atRecord index "$.type")
  | .error _ => .ok state
  | .item lifecycle item =>
    if !state.turnStarted && !isItemDiagnostic lifecycle item then .error (atRecord index "$.item")
    else validateItemId index lifecycle item state
  | .turnCompleted _ => finishTurn index .completed state
  | .turnFailed _ => finishTurn index .failed state

def validateRecord (state : StreamState) (entry : ParsedRecord × Nat) : Except AdapterError StreamState :=
  if state.terminal.isSome then .error (atRecord entry.2 "$.type")
  else if state.reconcilingAfterTodo && !isReconciliationOrTerminal entry.1 then .error (atRecord entry.2 "$.type")
  else acceptRecord entry.2 state entry.1

def validateTermination : Terminal → Option ProcessTermination → Except AdapterError Unit
  | _, none => .ok ⟨⟩
  | .completed, some (.exited code) => if code = 0 ∨ code = 1 then .ok ⟨⟩ else .error (.new .illegalTermination)
  | .failed, some (.exited code) => if code = 1 then .ok ⟨⟩ else .error (.new .illegalTermination)
  | _, some (.signaled _ _) => .error (.new .unsupportedProfile)

def startsThread : List ParsedRecord → Bool
  | .threadStarted _ :: _ => true
  | _ => false

def validateStream (records : List ParsedRecord) (termination : Option ProcessTermination) : Except AdapterError Terminal := do
  if !startsThread records then .error streamError
  else
    let state ← records.zipIdx.foldlM validateRecord .initial
    let terminal ← state.terminal.elim (.error streamError) .ok
    validateTermination terminal termination
    .ok terminal

end Legitimacy.CodexExec
