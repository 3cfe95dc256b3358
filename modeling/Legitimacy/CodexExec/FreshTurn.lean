import Legitimacy.CodexExec.StreamValidation
import Mathlib.Data.List.Induction

namespace Legitimacy.CodexExec

def itemRecord : ParsedRecord → Option (Lifecycle × Item)
  | .item lifecycle item => some (lifecycle, item)
  | _ => none

def itemRecords (records : List ParsedRecord) : List (Lifecycle × Item) := records.filterMap itemRecord

def itemIds (records : List ParsedRecord) : List String := (itemRecords records).map fun entry => entry.2.id

/-- The records of one item, in order. -/
def occurrences (id : String) (records : List ParsedRecord) : List (Lifecycle × Item) :=
  (itemRecords records).filter fun entry => entry.2.id == id

def itemCount (records : List ParsedRecord) : Nat := (itemIds records).eraseDups.length

def isDiagnostic : ParsedRecord → Bool
  | .error _ => true
  | .item lifecycle item => isItemDiagnostic lifecycle item
  | _ => false

def terminalOf : ParsedRecord → Option Terminal
  | .turnCompleted _ => some .completed
  | .turnFailed _ => some .failed
  | _ => none

/-- The complete histories of one item. A todo list ends on the vector of its last record. -/
inductive LifeCycle (id : String) : List (Lifecycle × Item) → Prop
  | agentMessage {text} : LifeCycle id [(.completed, .agentMessage id text)]
  | reasoning {text} : LifeCycle id [(.completed, .reasoning id text)]
  | error {message} : LifeCycle id [(.completed, .error id message)]
  | command {command output finalOutput exitCode finalCode status} (ended : status ≠ .inProgress) :
      LifeCycle id [(.started, .command id command output exitCode .inProgress),
        (.completed, .command id command finalOutput finalCode status)]
  | fileChange {changes status} (ended : status ≠ .inProgress) :
      LifeCycle id [(.started, .fileChange id changes .inProgress), (.completed, .fileChange id changes status)]
  | todoList {first} {updates : List (List Todo)} :
      LifeCycle id ((.started, .todoList id first) :: updates.map (fun items => (.updated, .todoList id items)) ++
        [(.completed, .todoList id (updates.getLast?.getD first))])

/-- The fresh-turn rules of the documentation. -/
structure FreshTurn (records : List ParsedRecord) : Prop where
  threadFirst : ∃ threadId rest, records = .threadStarted threadId :: rest ∧ ∀ other, .threadStarted other ∉ rest
  oneTurn : records.count .turnStarted = 1
  beforeTurn : ∀ before after, records = before ++ .turnStarted :: after → ∀ record ∈ before.tail, isDiagnostic record = true
  canonicalIds : ∃ count, (itemIds records).eraseDups = (List.range count).map itemName
  lifeCycles : ∀ id ∈ itemIds records, LifeCycle id (occurrences id records)
  oneTodo : ∀ lifecycle id items lifecycle' id' items', .item lifecycle (.todoList id items) ∈ records →
    .item lifecycle' (.todoList id' items') ∈ records → id = id'
  reconciliation : ∀ before id items after, records = before ++ .item .completed (.todoList id items) :: after →
    ∀ record ∈ after, isReconciliationOrTerminal record = true
  terminalLast : ∃ before last, records = before ++ [last] ∧ (terminalOf last).isSome ∧
    ∀ record ∈ before, terminalOf record = none

/-- The exits a terminal notification may come with. -/
def Terminates (terminal : Terminal) : Option ProcessTermination → Prop
  | none => True
  | some (.exited code) => code = 1 ∨ code = 0 ∧ terminal = .completed
  | some (.signaled _ _) => False

inductive Stage
  | fresh
  | executing (started : Item)
  | listing (latest : List Todo)
  | closed

def advance : Stage → Lifecycle × Item → Option Stage
  | .fresh, (.completed, .agentMessage _ _) => some .closed
  | .fresh, (.completed, .reasoning _ _) => some .closed
  | .fresh, (.completed, .error _ _) => some .closed
  | .fresh, (.started, .command id command output exitCode status) => some (.executing (.command id command output exitCode status))
  | .fresh, (.started, .fileChange id changes status) => some (.executing (.fileChange id changes status))
  | .fresh, (.started, .todoList _ items) => some (.listing items)
  | .executing (.command _ first _ _ .inProgress), (.completed, .command _ second _ _ status) =>
    if status ≠ .inProgress ∧ first = second then some .closed else none
  | .executing (.fileChange _ first .inProgress), (.completed, .fileChange _ second status) =>
    if status ≠ .inProgress ∧ first = second then some .closed else none
  | .listing _, (.updated, .todoList _ items) => some (.listing items)
  | .listing latest, (.completed, .todoList _ items) => if latest = items then some .closed else none
  | _, _ => none

/-- The stage after a list of records of one item, none when one of them was illegal. -/
def stageAfter (entries : List (Lifecycle × Item)) : Option Stage := entries.foldlM advance .fresh

def stage (id : String) (records : List ParsedRecord) : Option Stage := stageAfter (occurrences id records)

theorem advance_closed (entry : Lifecycle × Item) : advance .closed entry = none := by
  obtain ⟨lifecycle, item⟩ := entry
  cases lifecycle <;> cases item <;> rfl

theorem stageAfter_concat (entries : List (Lifecycle × Item)) (entry : Lifecycle × Item) :
    stageAfter (entries ++ [entry]) = (stageAfter entries).bind fun reached => advance reached entry := by
  rw [stageAfter, List.foldlM_append, stageAfter]
  cases entries.foldlM advance .fresh with
  | none => rfl
  | some reached =>
    show (advance reached entry).bind some = advance reached entry
    cases advance reached entry <;> rfl

/-- What the records of one item are at each stage. -/
inductive Reached (id : String) : List (Lifecycle × Item) → Stage → Prop
  | fresh : Reached id [] .fresh
  | command {command output exitCode status} :
      Reached id [(.started, .command id command output exitCode status)] (.executing (.command id command output exitCode status))
  | fileChange {changes status} :
      Reached id [(.started, .fileChange id changes status)] (.executing (.fileChange id changes status))
  | listing {first} {updates : List (List Todo)} :
      Reached id ((.started, .todoList id first) :: updates.map (fun items => (.updated, .todoList id items)))
        (.listing (updates.getLast?.getD first))
  | closed {entries} (complete : LifeCycle id entries) : Reached id entries .closed

theorem Reached.advance {id : String} {entries : List (Lifecycle × Item)} {reached next : Stage} {entry : Lifecycle × Item}
    (history : Reached id entries reached) (same : entry.2.id = id) (moved : advance reached entry = some next) :
    Reached id (entries ++ [entry]) next := by
  obtain ⟨lifecycle, item⟩ := entry
  cases history with
  | fresh =>
    cases lifecycle <;> cases item <;> simp only [CodexExec.advance, reduceCtorEq, Option.some.injEq] at moved <;> subst moved <;>
      obtain rfl := same
    · exact .command
    · exact .fileChange
    · exact @Reached.listing _ _ []
    · exact .closed .agentMessage
    · exact .closed .reasoning
    · exact .closed .error
  | @command command output exitCode status =>
    cases status <;> cases lifecycle <;> cases item <;> simp only [CodexExec.advance, reduceCtorEq, Option.ite_none_right_eq_some] at moved
    obtain ⟨⟨ended, rfl⟩, made⟩ := moved
    obtain rfl := Option.some.inj made
    obtain rfl := same
    exact .closed (.command ended)
  | @fileChange changes status =>
    cases status <;> cases lifecycle <;> cases item <;> simp only [CodexExec.advance, reduceCtorEq, Option.ite_none_right_eq_some] at moved
    obtain ⟨⟨ended, rfl⟩, made⟩ := moved
    obtain rfl := Option.some.inj made
    obtain rfl := same
    exact .closed (.fileChange ended)
  | @listing first updates =>
    cases lifecycle <;> cases item <;> simp only [CodexExec.advance, reduceCtorEq, Option.ite_none_right_eq_some, Option.some.injEq] at moved
    · rename_i other items
      obtain rfl := moved
      obtain rfl := same
      have extended := @Reached.listing other first (updates ++ [items])
      simpa [Item.id] using extended
    · obtain ⟨rfl, rfl⟩ := moved
      obtain rfl := same
      exact .closed .todoList
  | closed complete =>
    rw [advance_closed] at moved
    cases moved

theorem reached_of_stageAfter {id : String} {entries : List (Lifecycle × Item)} {reached : Stage}
    (same : ∀ entry ∈ entries, entry.2.id = id) (run : stageAfter entries = some reached) : Reached id entries reached := by
  induction entries using List.reverseRecOn generalizing reached with
  | nil =>
    obtain rfl := Option.some.inj run
    exact .fresh
  | append_singleton entries entry ih =>
    rw [stageAfter_concat] at run
    obtain ⟨before, atBefore, moved⟩ := Option.bind_eq_some_iff.1 run
    have history := ih (fun other member => same other (List.mem_append_left _ member)) atBefore
    exact history.advance (same entry (by simp)) moved

theorem stageAfter_updates {id : String} {first : List Todo} (updates : List (List Todo)) :
    stageAfter ((.started, .todoList id first) :: updates.map fun items => (.updated, .todoList id items)) =
      some (.listing (updates.getLast?.getD first)) := by
  induction updates using List.reverseRecOn with
  | nil => rfl
  | append_singleton updates items ih =>
    rw [List.map_append, ← List.cons_append, List.map_singleton, stageAfter_concat, ih]
    simp [advance]

theorem stageAfter_eq_closed {id : String} {entries : List (Lifecycle × Item)} (same : ∀ entry ∈ entries, entry.2.id = id) :
    stageAfter entries = some .closed ↔ LifeCycle id entries := by
  constructor
  · intro run
    cases reached_of_stageAfter same run with
    | closed complete => exact complete
  · intro complete
    cases complete with
    | agentMessage => rfl
    | reasoning => rfl
    | error => rfl
    | command ended => simp [stageAfter, List.foldlM, advance, ended]
    | fileChange ended => simp [stageAfter, List.foldlM, advance, ended]
    | @todoList first updates =>
      rw [stageAfter_concat, stageAfter_updates]
      simp [advance]

end Legitimacy.CodexExec
