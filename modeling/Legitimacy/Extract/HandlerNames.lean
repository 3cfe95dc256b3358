import Legitimacy.Extract.DecisionLanes
import Mathlib.Data.List.Infix

namespace Legitimacy.Extract

section

structure CallingHandler extends TypeScriptApprovalCoreHandler where
  calls : List String

structure TypeScriptApprovalCoreRegistration where
  surface : String
  handler : String

structure TypeScriptApprovalCoreFile where
  path : String
  handlers : List CallingHandler
  registrations : List TypeScriptApprovalCoreRegistration

/-- The file and the handler that the two indices of the source point to. -/
structure HandlerLocation where
  file : TypeScriptApprovalCoreFile
  handler : CallingHandler

inductive EdgeResolutionKind where
  | sameFile | globalUnique | importAlias | reviewOverlay
deriving DecidableEq

structure RecognizedEdgeProvenance where
  fromNode : String
  toNode : String
  targetSymbol : String
  resolution : EdgeResolutionKind
deriving DecidableEq

inductive ResolutionIssueKind where
  | unresolved | ambiguous
deriving DecidableEq

structure ResolutionIssue where
  caller : String
  targetSymbol : String
  kind : ResolutionIssueKind
  candidates : List String
deriving DecidableEq

def handlerId (location : HandlerLocation) : String := location.file.path ++ "::" ++ location.handler.name

def registrationNodeId (path : String) (registration : TypeScriptApprovalCoreRegistration) : String :=
  path ++ "::registration::" ++ registration.surface ++ "::" ++ registration.handler

def locations (files : List TypeScriptApprovalCoreFile) : List HandlerLocation :=
  files.flatMap fun file => file.handlers.map fun handler => ⟨file, handler⟩

def indexHandler (index : BTreeMap String (List HandlerLocation)) (location : HandlerLocation) : BTreeMap String (List HandlerLocation) :=
  index.insert location.handler.name (index.getD location.handler.name [] ++ [location])

def handlerIndex (files : List TypeScriptApprovalCoreFile) : BTreeMap String (List HandlerLocation) := (locations files).foldl indexHandler ∅

end

section

variable (files : List TypeScriptApprovalCoreFile)

/-- The issue that is pushed, and the handler that is found. -/
def resolveHandler (path : String) (registration : TypeScriptApprovalCoreRegistration) (caller : String) :
    Option ResolutionIssue × Option HandlerLocation :=
  match (handlerIndex files)[registration.handler]? with
  | none => (none, none)
  | some candidates =>
    (if 1 < candidates.length then some ⟨caller, registration.handler, .ambiguous, candidates.map handlerId⟩ else none,
      (candidates.find? fun location => location.file.path = path).or candidates.head?)

def registrationIssues : List ResolutionIssue :=
  files.flatMap fun file => file.registrations.filterMap fun registration =>
    (resolveHandler files file.path registration (registrationNodeId file.path registration)).1

def registrationTarget (file : TypeScriptApprovalCoreFile) (registration : TypeScriptApprovalCoreRegistration) : Option String :=
  (resolveHandler files file.path registration (registrationNodeId file.path registration)).2.map handlerId

def registrationEdges : List RecognizedEdgeProvenance :=
  files.flatMap fun file => file.registrations.filterMap fun registration =>
    (registrationTarget files file registration).map fun target =>
      ⟨registrationNodeId file.path registration, target, registration.handler, .sameFile⟩

def registeredHandlers : List String := (registrationEdges files).map (·.toNode)

def callTarget (call : String) : Option String := ((handlerIndex files)[call]?.bind List.head?).map handlerId

def callEdges : List RecognizedEdgeProvenance :=
  (locations files).flatMap fun location =>
    if handlerId location ∉ registeredHandlers files ∧ ¬"should".toList <:+: (handlerId location).toList then []
    else location.handler.calls.filterMap fun call =>
      match callTarget files call with
      | none => none
      | some target => if handlerId location = target then none else some ⟨handlerId location, target, call, .globalUnique⟩

def edges : List RecognizedEdgeProvenance := registrationEdges files ++ callEdges files

end

section

variable (files : List TypeScriptApprovalCoreFile)

def candidates (name : String) : List HandlerLocation := (locations files).filter fun location => location.handler.name = name

/-- What names a handler: each registration and each call, with the node that it is of. -/
def registrationReferences : List (String × String) :=
  files.flatMap fun file => file.registrations.map fun registration => (registrationNodeId file.path registration, registration.handler)

def callReferences : List (String × String) :=
  (locations files).flatMap fun location => location.handler.calls.map fun call => (handlerId location, call)

def ambiguity (reference : String × String) : Option ResolutionIssue :=
  if 1 < (candidates files reference.2).length then
    some ⟨reference.1, reference.2, .ambiguous, (candidates files reference.2).map handlerId⟩
  else none

/-- One relation between names and handlers: in a file, a registration and a call of one name lead to one node, that of the
file itself where it has such a handler; what is labelled unique is unique; and each reference with several candidates has
its own issue. -/
structure OneRelation : Prop where
  agree : ∀ file ∈ files, ∀ registration ∈ file.registrations, ∀ handler ∈ file.handlers, registration.handler ∈ handler.calls →
    registrationTarget files file registration = callTarget files registration.handler ∧
      ∀ own ∈ file.handlers, own.name = registration.handler → callTarget files registration.handler = some (handlerId ⟨file, own⟩)
  unique : ∀ edge ∈ edges files, edge.resolution = .globalUnique → (candidates files edge.targetSymbol).length = 1
  reported : ((registrationReferences files ++ callReferences files).filterMap (ambiguity files)).Subperm (registrationIssues files)

end

section

variable {files : List TypeScriptApprovalCoreFile}

theorem foldl_indexHandler (found : List HandlerLocation) (index : BTreeMap String (List HandlerLocation)) (name : String) :
    (found.foldl indexHandler index).getD name [] = index.getD name [] ++ found.filter fun location => location.handler.name = name := by
  induction found generalizing index with
  | nil => simp
  | cons location rest ih =>
    rw [List.foldl_cons, ih, indexHandler, Std.ExtTreeMap.getD_insert]
    by_cases same : location.handler.name = name
    · simp [same]
    · simp [same]

theorem handlerIndex_getD (name : String) : (handlerIndex files).getD name [] = candidates files name := by
  rw [handlerIndex, foldl_indexHandler]
  simp [candidates]

theorem resolveHandler_eq (path : String) (registration : TypeScriptApprovalCoreRegistration) (caller : String) :
    resolveHandler files path registration caller = (ambiguity files (caller, registration.handler),
      ((candidates files registration.handler).find? fun location => location.file.path = path).or
        (candidates files registration.handler).head?) := by
  have indexed := @handlerIndex_getD files registration.handler
  rw [Std.ExtTreeMap.getD_eq_getD_getElem?] at indexed
  unfold resolveHandler ambiguity
  rw [← indexed]
  cases (handlerIndex files)[registration.handler]? with
  | none => rfl
  | some found => rfl

theorem callTarget_eq (call : String) : callTarget files call = (candidates files call).head?.map handlerId := by
  have indexed := @handlerIndex_getD files call
  rw [Std.ExtTreeMap.getD_eq_getD_getElem?] at indexed
  rw [callTarget, ← indexed]
  cases (handlerIndex files)[call]? with
  | none => rfl
  | some found => rfl

theorem registrationIssues_eq : registrationIssues files = (registrationReferences files).filterMap (ambiguity files) := by
  simp only [registrationIssues, registrationReferences, resolveHandler_eq, List.filterMap_flatMap, List.filterMap_map]
  rfl

theorem ambiguity_eq_none {reference : String × String} :
    ambiguity files reference = none ↔ (candidates files reference.2).length ≤ 1 := by
  unfold ambiguity
  split_ifs with several
  · simp [several]
  · simp [Nat.not_lt.1 several]

theorem mem_candidates {file : TypeScriptApprovalCoreFile} (inFiles : file ∈ files) {handler : CallingHandler} (inFile : handler ∈ file.handlers) :
    ⟨file, handler⟩ ∈ candidates files handler.name :=
  List.mem_filter.2 ⟨List.mem_flatMap.2 ⟨file, inFiles, List.mem_map_of_mem inFile⟩, decide_eq_true rfl⟩

/-- The rules for registrations and for calls are one exactly where no call names a handler that several files have. -/
theorem oneRelation_iff (files : List TypeScriptApprovalCoreFile) :
    OneRelation files ↔ ∀ location ∈ locations files, ∀ call ∈ location.handler.calls, (candidates files call).length ≤ 1 := by
  constructor
  · intro relation location member call called
    have reported := relation.reported.length_le
    rw [List.filterMap_append, List.length_append, ← registrationIssues_eq] at reported
    have silent : (callReferences files).filterMap (ambiguity files) = [] := List.length_eq_zero_iff.1 (by omega)
    have reference : (handlerId location, call) ∈ callReferences files := List.mem_flatMap.2 ⟨location, member, List.mem_map_of_mem called⟩
    exact ambiguity_eq_none.1 (List.filterMap_eq_nil_iff.1 silent _ reference)
  · intro single
    refine ⟨?_, ?_, ?_⟩
    · intro file inFiles registration _ handler inFile called
      have few := single ⟨file, handler⟩ (List.mem_flatMap.2 ⟨file, inFiles, List.mem_map_of_mem inFile⟩) _ called
      rw [registrationTarget, resolveHandler_eq, callTarget_eq]
      constructor
      · match candidates files registration.handler, few with
        | [], _ => rfl
        | [location], _ => cases own : decide (location.file.path = file.path) <;> simp [own]
      · intro own ownInFile named
        have member := mem_candidates inFiles ownInFile
        rw [named] at member
        match candidates files registration.handler, few, member with
        | [location], _, member => rw [List.mem_singleton.1 member]; rfl
    · intro edge member labelled
      rcases List.mem_append.1 member with registered | called
      · obtain ⟨file, -, inFile⟩ := List.mem_flatMap.1 registered
        obtain ⟨registration, -, made⟩ := List.mem_filterMap.1 inFile
        obtain ⟨target, -, rfl⟩ := Option.map_eq_some_iff.1 made
        cases labelled
      · obtain ⟨location, inFiles, drawn⟩ := List.mem_flatMap.1 called
        split_ifs at drawn
        · cases drawn
        · obtain ⟨call, inCalls, made⟩ := List.mem_filterMap.1 drawn
          have few := single location inFiles call inCalls
          cases target : callTarget files call with
          | none => simp [target] at made
          | some found =>
            simp only [target] at made
            split_ifs at made
            obtain rfl := Option.some.inj made
            rw [callTarget_eq] at target
            obtain ⟨first, first_eq, -⟩ := Option.map_eq_some_iff.1 target
            have nonempty : (candidates files call).length ≠ 0 := by
              intro empty
              rw [List.length_eq_zero_iff.1 empty] at first_eq
              cases first_eq
            exact Nat.le_antisymm few (Nat.pos_of_ne_zero nonempty)
    · have silent : (callReferences files).filterMap (ambiguity files) = [] := by
        refine List.filterMap_eq_nil_iff.2 fun reference member => ?_
        obtain ⟨location, inFiles, called⟩ := List.mem_flatMap.1 member
        obtain ⟨call, inCalls, rfl⟩ := List.mem_map.1 called
        exact ambiguity_eq_none.2 (single location inFiles call inCalls)
      rw [List.filterMap_append, silent, List.append_nil, ← registrationIssues_eq]

def approvingFile (path : String) (handlers : List CallingHandler) (registered : List String) : TypeScriptApprovalCoreFile :=
  ⟨path, ⟨⟨"approve", [.allow], some .allow⟩, []⟩ :: handlers, registered.map fun handler => ⟨"tool", handler⟩⟩

def reviewing : CallingHandler := ⟨⟨"review", [.deny], some .deny⟩, ["approve"]⟩

def firstApproval : TypeScriptApprovalCoreFile := approvingFile "a.ts" [] ["approve"]

/-- Here `review` calls the `approve` of its own file, which the other file has too. -/
def secondApproval : TypeScriptApprovalCoreFile := approvingFile "b.ts" [reviewing] ["approve", "review"]

/-- The call goes to the other file under the label of a unique name, and no issue is about it. -/
theorem approvals_two_relations : ¬OneRelation [firstApproval, secondApproval] ∧
    ⟨"b.ts::registration::tool::approve", "b.ts::approve", "approve", .sameFile⟩ ∈ edges [firstApproval, secondApproval] ∧
    ⟨"b.ts::review", "a.ts::approve", "approve", .globalUnique⟩ ∈ edges [firstApproval, secondApproval] ∧
    ∀ issue ∈ registrationIssues [firstApproval, secondApproval], issue.caller ≠ "b.ts::review" := by
  refine ⟨fun relation => ?_, by decide +kernel, by decide +kernel, by decide +kernel⟩
  have same := relation.agree secondApproval (by simp) ⟨"tool", "approve"⟩ (by simp [secondApproval, approvingFile]) reviewing
    (by simp [secondApproval, approvingFile]) (by simp [reviewing])
  exact absurd same.1 (by decide +kernel)

end

end Legitimacy.Extract
