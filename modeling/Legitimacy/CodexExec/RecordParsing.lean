import Legitimacy.CodexExec.StreamValidation
import Legitimacy.Json
import Mathlib.Data.String.Basic

namespace Legitimacy.CodexExec

open Serde

def maxChangesOrTodos : Nat := 1024

def recordShape (index : Nat) (path : String) : AdapterError := .record .jsonShape index path

section

/-- The fields of an object of which each key keeps its last value. -/
def lastFields (fields : List (String × Json)) : List (String × Json) :=
  fields.foldr (fun field rest => if rest.any fun other => other.1 == field.1 then rest else field :: rest) []

mutual

def valueOf : Json → Json
  | .arr values => .arr (valuesOf values)
  | .obj fields => .obj (lastFields (fieldsOf fields))
  | json => json

def valuesOf : List Json → List Json
  | [] => []
  | value :: rest => valueOf value :: valuesOf rest

def fieldsOf : List (String × Json) → List (String × Json)
  | [] => []
  | (key, value) :: rest => (key, valueOf value) :: fieldsOf rest

end

/-- `as_object`, then `get("type")`, then `as_str`. -/
def typeOf : Json → Option String
  | .obj fields => (fields.lookup "type").bind decodeString
  | _ => none

end

section

def decodeThreadStarted (json : Json) : Option String := do
  match ← structFields ["type", "thread_id"] json with
  | [some type, some threadId] =>
    let _ ← decodeString type
    decodeString threadId
  | _ => none

def decodeTurnStarted (json : Json) : Option Unit := do
  match ← structFields ["type"] json with
  | [some type] =>
    let _ ← decodeString type
    some ⟨⟩
  | _ => none

def decodeUsage (json : Json) : Option Usage := do
  match ← structFields ["input_tokens", "cached_input_tokens", "output_tokens", "reasoning_output_tokens"] json with
  | [some inputTokens, some cachedInputTokens, some outputTokens, some reasoningOutputTokens] =>
    some ⟨← decodeSigned 64 inputTokens, ← decodeSigned 64 cachedInputTokens, ← decodeSigned 64 outputTokens,
      ← decodeSigned 64 reasoningOutputTokens⟩
  | _ => none

def decodeTurnCompleted (json : Json) : Option Usage := do
  match ← structFields ["type", "usage"] json with
  | [some type, some usage] =>
    let _ ← decodeString type
    decodeUsage usage
  | _ => none

def decodeError (json : Json) : Option String := do
  match ← structFields ["message"] json with
  | [some message] => decodeString message
  | _ => none

def decodeTurnFailed (json : Json) : Option String := do
  match ← structFields ["type", "error"] json with
  | [some type, some error] =>
    let _ ← decodeString type
    decodeError error
  | _ => none

def decodeErrorRecord (json : Json) : Option String := do
  match ← structFields ["type", "message"] json with
  | [some type, some message] =>
    let _ ← decodeString type
    decodeString message
  | _ => none

def decodeItemRecord (json : Json) : Option Json := do
  match ← structFields ["type", "item"] json with
  | [some type, some item] =>
    let _ ← decodeString type
    some item
  | _ => none

/-- An item with an identifier and one text, under the name that the text has. -/
def decodeNamedText (field : String) (json : Json) : Option (String × String) := do
  match ← structFields ["id", "type", field] json with
  | [some id, some type, some text] =>
    let id ← decodeString id
    let _ ← decodeString type
    some (id, ← decodeString text)
  | _ => none

def decodeTextItem : Json → Option (String × String) := decodeNamedText "text"

def decodeErrorItem : Json → Option (String × String) := decodeNamedText "message"

structure CommandItemWire where
  id : String
  command : String
  aggregatedOutput : String
  exitCode : Option Int
  status : String

/-- The exit code must be there, if only as null. -/
def decodeCommandItem (json : Json) : Option CommandItemWire := do
  match ← structFields ["id", "type", "command", "aggregated_output", "exit_code", "status"] json with
  | [some id, some type, some command, some aggregatedOutput, some exitCode, some status] =>
    let id ← decodeString id
    let _ ← decodeString type
    some ⟨id, ← decodeString command, ← decodeString aggregatedOutput, ← decodeOption (decodeSigned 32) exitCode, ← decodeString status⟩
  | _ => none

def decodeChange (json : Json) : Option (String × String) := do
  match ← structFields ["path", "kind"] json with
  | [some path, some kind] => some (← decodeString path, ← decodeString kind)
  | _ => none

structure FileItemWire where
  id : String
  changes : List (String × String)
  status : String

def decodeFileItem (json : Json) : Option FileItemWire := do
  match ← structFields ["id", "type", "changes", "status"] json with
  | [some id, some type, some changes, some status] =>
    let id ← decodeString id
    let _ ← decodeString type
    some ⟨id, ← decodeVec decodeChange changes, ← decodeString status⟩
  | _ => none

def decodeTodo (json : Json) : Option Todo := do
  match ← structFields ["text", "completed"] json with
  | [some text, some completed] => some ⟨← decodeString text, ← decodeBool completed⟩
  | _ => none

def decodeTodoItem (json : Json) : Option (String × List Todo) := do
  match ← structFields ["id", "type", "items"] json with
  | [some id, some type, some items] =>
    let id ← decodeString id
    let _ ← decodeString type
    some (id, ← decodeVec decodeTodo items)
  | _ => none

def decoded {α : Type} (decode : Json → Option α) (value : Json) (index : Nat) (path : String) : Except AdapterError α :=
  (decode value).elim (.error (recordShape index path)) .ok

end

section

def parseCommandStatus (value : String) : Option CommandStatus :=
  match value with
  | "in_progress" => some .inProgress
  | "completed" => some .completed
  | "failed" => some .failed
  | "declined" => some .declined
  | _ => none

def parseFileStatus (value : String) : Option FileStatus :=
  match value with
  | "in_progress" => some .inProgress
  | "completed" => some .completed
  | "failed" => some .failed
  | _ => none

def parseChangeKind (value : String) : Option ChangeKind :=
  match value with
  | "add" => some .add
  | "delete" => some .delete
  | "update" => some .update
  | _ => none

def parseChange (index : Nat) (change : String × String) : Except AdapterError Change := do
  let kind ← (parseChangeKind change.2).elim (.error (recordShape index "$.item.changes[].kind")) .ok
  .ok ⟨change.1, kind⟩

def unsorted : List (String × String) → Bool
  | first :: second :: rest => decide (second.1 ≤ first.1) || unsorted (second :: rest)
  | _ => false

def parseItem (value : Json) (index : Nat) : Except AdapterError Item := do
  let itemType ← (typeOf value).elim (.error (recordShape index "$.item.type")) .ok
  match itemType with
  | "agent_message" => do
    let (id, text) ← decoded decodeTextItem value index "$.item"
    .ok (.agentMessage id text)
  | "reasoning" => do
    let (id, text) ← decoded decodeTextItem value index "$.item"
    if isBlank text then .error (recordShape index "$.item.text") else .ok (.reasoning id text)
  | "error" => do
    let (id, message) ← decoded decodeErrorItem value index "$.item"
    .ok (.error id message)
  | "command_execution" => do
    let wire ← decoded decodeCommandItem value index "$.item"
    let status ← (parseCommandStatus wire.status).elim (.error (recordShape index "$.item.status")) .ok
    .ok (.command wire.id wire.command wire.aggregatedOutput wire.exitCode status)
  | "file_change" => do
    let wire ← decoded decodeFileItem value index "$.item"
    if maxChangesOrTodos < wire.changes.length ∨ unsorted wire.changes then .error (recordShape index "$.item.changes")
    else
      let changes ← wire.changes.mapM (parseChange index)
      let status ← (parseFileStatus wire.status).elim (.error (recordShape index "$.item.status")) .ok
      .ok (.fileChange wire.id changes status)
  | "todo_list" => do
    let (id, items) ← decoded decodeTodoItem value index "$.item"
    if maxChangesOrTodos < items.length then .error (recordShape index "$.item.items") else .ok (.todoList id items)
  | _ => .error (.record .unsupportedRecord index "$.item.type")

def parseItemRecord (value : Json) (index : Nat) (lifecycle : Lifecycle) : Except AdapterError ParsedRecord := do
  let wire ← decoded decodeItemRecord value index "$"
  let item ← parseItem wire index
  .ok (.item lifecycle item)

/-- The lifecycles in which an item may stand, and what a started command may already show. -/
def legalLifecycle : Lifecycle → Item → Bool
  | .completed, .agentMessage _ _ => true
  | .completed, .reasoning _ _ => true
  | .completed, .error _ _ => true
  | .started, .command _ _ aggregatedOutput exitCode .inProgress => aggregatedOutput == "" && exitCode.isNone
  | .completed, .command _ _ _ _ status => status != .inProgress
  | .started, .fileChange _ _ .inProgress => true
  | .completed, .fileChange _ _ status => status != .inProgress
  | _, .todoList _ _ => true
  | _, _ => false

def validateLifecycle (record : ParsedRecord) (index : Nat) : Except AdapterError Unit :=
  match record with
  | .item lifecycle item => if legalLifecycle lifecycle item then .ok ⟨⟩ else .error (.record .streamState index "$.item")
  | _ => .ok ⟨⟩

end

def usageNonnegative (usage : Usage) : Bool :=
  0 ≤ usage.inputTokens && 0 ≤ usage.cachedInputTokens && 0 ≤ usage.outputTokens && 0 ≤ usage.reasoningOutputTokens

def uuidByte (place : Nat) (byte : UInt8) : Bool :=
  if place ∈ [8, 13, 18, 23] then byte == 45
  else if place = 14 then byte == 55
  else if place = 19 then byte == 56 || byte == 57 || byte == 97 || byte == 98
  else (48 ≤ byte && byte ≤ 57) || (97 ≤ byte && byte ≤ 102)

def isCanonicalUuidV7 (value : String) : Bool :=
  value.utf8ByteSize == 36 && (Utf8.bytes value).zipIdx.all fun entry => uuidByte entry.2 entry.1

def parseTyped (value : Json) (index : Nat) (recordType : String) : Except AdapterError ParsedRecord :=
  match recordType with
  | "thread.started" => do
    let threadId ← decoded decodeThreadStarted value index "$"
    if !isCanonicalUuidV7 threadId then .error (recordShape index "$.thread_id") else .ok (.threadStarted threadId)
  | "turn.started" => do
    let _ ← decoded decodeTurnStarted value index "$"
    .ok .turnStarted
  | "turn.completed" => do
    let usage ← decoded decodeTurnCompleted value index "$"
    if !usageNonnegative usage then .error (recordShape index "$.usage") else .ok (.turnCompleted usage)
  | "turn.failed" => do
    let message ← decoded decodeTurnFailed value index "$"
    .ok (.turnFailed message)
  | "error" => do
    let message ← decoded decodeErrorRecord value index "$"
    .ok (.error message)
  | "item.started" => parseItemRecord value index .started
  | "item.updated" => parseItemRecord value index .updated
  | "item.completed" => parseItemRecord value index .completed
  | _ => .error (.record .unsupportedRecord index "$.type")

def parseRecord (parse : List UInt8 → Option Json) (entry : List UInt8 × Nat) : Except AdapterError ParsedRecord := do
  let document ← (parse entry.1).elim (.error (.record .jsonSyntax entry.2 "$")) .ok
  let value := valueOf document
  let recordType ← (typeOf value).elim (.error (recordShape entry.2 "$.type")) .ok
  let parsed ← parseTyped value entry.2 recordType
  validateLifecycle parsed entry.2
  .ok parsed

end Legitimacy.CodexExec
