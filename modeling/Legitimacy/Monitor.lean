import Mathlib.Data.List.Induction
import Legitimacy.LineFile
import Legitimacy.Ledger.Record

namespace Legitimacy.Monitor

structure GovernanceMonitoringEvent where
  property : GovernanceProperty
  actualMagnitude : Float
  timestamp : String
  evidence : BTreeMap String String

structure GovernanceDriftEvent where
  property : GovernanceProperty
  declaredBound : Float
  actualMagnitude : Float
  timestamp : String
  evidence : BTreeMap String String

/-- `min_by(f64::total_cmp)`: the least bound, the first one among equals. -/
def leastBound : List Float → Option Float
  | [] => none
  | bound :: rest => some (rest.foldl (fun least bound => if totalKey bound < totalKey least then bound else least) bound)

def driftFor (declaredSacrifices : List Ledger.DeclaredSacrifice) (event : GovernanceMonitoringEvent) :
    Except LegitimacyError (Option GovernanceDriftEvent) :=
  if ¬event.actualMagnitude.isFinite ∨ event.actualMagnitude < 0 then
    .error (.invalidInput ("monitor event for '" ++ event.property.asStr ++ "' reported invalid magnitude " ++
      FloatText.display event.actualMagnitude))
  else
    let bounds := (declaredSacrifices.filter fun sacrifice => sacrifice.sacrificedProperty = event.property).map (·.impactBound)
    match leastBound bounds with
    | none => .ok none
    | some declaredBound =>
      if declaredBound + epsilon < event.actualMagnitude then
        .ok (some ⟨event.property, declaredBound, event.actualMagnitude, event.timestamp, event.evidence⟩)
      else .ok none

def nextInMemory (declaredSacrifices : List Ledger.DeclaredSacrifice) :
    List GovernanceMonitoringEvent → Option (Except LegitimacyError GovernanceDriftEvent) × List GovernanceMonitoringEvent
  | [] => (none, [])
  | event :: rest =>
    match driftFor declaredSacrifices event with
    | .ok (some drift) => (some (.ok drift), rest)
    | .ok none => nextInMemory declaredSacrifices rest
    | .error failure => (some (.error failure), rest)

structure JsonlEventSource where
  path : String
  offset : Nat

/-- How one turn of the reading loop ends: it sleeps, goes on, returns an event or returns an error. -/
inductive Turn where
  | waiting
  | skipped
  | event (event : GovernanceMonitoringEvent)
  | failed (failure : LegitimacyError)

def decodeText (bytes : List UInt8) : Option String :=
  bytes.toByteArray.utf8Decode?.map fun characters => String.ofList characters.toList

/-- One turn of `next_event` on the bytes that the file holds; `fromStr` is the JSON reader of an event. -/
def JsonlEventSource.turn (fromStr : String → Except String GovernanceMonitoringEvent) (source : JsonlEventSource) (file : List UInt8) :
    Turn × JsonlEventSource :=
  let line := LineFile.readLine (file.drop source.offset)
  match decodeText line with
  | none => (.failed (.io ("monitor event source '" ++ source.path ++ "'")), source)
  | some text =>
    if line = [] then (.waiting, source)
    else
      let advanced := { source with offset := source.offset + line.length }
      if isBlank text then (.skipped, advanced)
      else match fromStr text with
        | .ok event => (.event event, advanced)
        | .error _ => (.failed (.json ("monitor event line from '" ++ source.path ++ "'")), advanced)

/-- The file, its reader, the events that the reader has returned, and where the lines started that it has reported as errors. -/
structure Tail where
  file : List UInt8
  source : JsonlEventSource
  events : List GovernanceMonitoringEvent
  reported : List Nat

/-- The writer appends bytes, the reader takes a turn, or the file refuses to be opened. -/
inductive Action where
  | append (piece : List UInt8)
  | poll
  | refuse

section

variable (fromStr : String → Except String GovernanceMonitoringEvent)

def Tail.poll (tail : Tail) : Tail :=
  let taken := tail.source.turn fromStr tail.file
  match taken.1 with
  | .waiting => { tail with source := taken.2 }
  | .skipped => { tail with source := taken.2 }
  | .event event => { tail with source := taken.2, events := tail.events ++ [event] }
  | .failed _ => { tail with source := taken.2, reported := tail.reported ++ [tail.source.offset] }

def Tail.step (tail : Tail) : Action → Tail
  | .append piece => { tail with file := tail.file ++ piece }
  | .poll => tail.poll fromStr
  | .refuse => tail

def Tail.start (path : String) : Tail := ⟨[], ⟨path, 0⟩, [], []⟩

/-- The states after the writer's and the reader's actions, in any order. -/
def tail (path : String) (actions : List Action) : Tail := actions.foldl (Tail.step fromStr) (Tail.start path)

/-- The event that a complete line encodes; blank lines and malformed lines encode none. -/
def encodedEvent (line : List UInt8) : Option GovernanceMonitoringEvent := do
  let text ← decodeText line
  if isBlank text then none else (fromStr text).toOption

def WellFormed (line : List UInt8) : Prop :=
  ∃ text, decodeText line = some text ∧ (isBlank text = true ∨ ∃ event, fromStr text = .ok event)

/-- The events come from the first complete lines, and no line that has been completed in good form was reported as an error. -/
structure Faithful (tail : Tail) : Prop where
  events : tail.events <+: (LineFile.completeLines tail.file).filterMap (encodedEvent fromStr)
  reported : ∀ start ∈ tail.reported, ∀ line, LineFile.lineAt tail.file start = some line → ¬WellFormed fromStr line

def Tail.LineVisible (tail : Tail) : Prop :=
  tail.file.drop tail.source.offset = [] ∨ LineFile.lineFeed ∈ tail.file.drop tail.source.offset

end

section

variable {fromStr : String → Except String GovernanceMonitoringEvent} {tail : Tail}

/-- The reader has consumed whole lines, and every reported place starts a malformed one. -/
structure Aligned (fromStr : String → Except String GovernanceMonitoringEvent) (tail : Tail) : Prop where
  consumed : ∃ (lines : List (List UInt8)) (rest : List UInt8), (∀ line ∈ lines, LineFile.IsLine line) ∧
    tail.file = lines.flatten ++ rest ∧ tail.source.offset = lines.flatten.length ∧ tail.events = lines.filterMap (encodedEvent fromStr)
  reported : ∀ start ∈ tail.reported, ∃ line, LineFile.lineAt tail.file start = some line ∧ ¬WellFormed fromStr line

theorem Aligned.faithful (aligned : Aligned fromStr tail) : Faithful fromStr tail := by
  constructor
  · obtain ⟨lines, rest, whole, split, -, events⟩ := aligned.consumed
    rw [events, split, LineFile.completeLines_flatten whole, List.filterMap_append]
    exact List.prefix_append _ _
  · intro start listed line atStart
    obtain ⟨malformed, found, refused⟩ := aligned.reported start listed
    rw [Option.some.inj (atStart.symm.trans found)]
    exact refused

theorem Aligned.append (aligned : Aligned fromStr tail) (piece : List UInt8) : Aligned fromStr { tail with file := tail.file ++ piece } := by
  constructor
  · obtain ⟨lines, rest, whole, split, offset, events⟩ := aligned.consumed
    exact ⟨lines, rest ++ piece, whole, by rw [split, List.append_assoc], offset, events⟩
  · intro start listed
    obtain ⟨line, atStart, refused⟩ := aligned.reported start listed
    exact ⟨line, LineFile.lineAt_append atStart piece, refused⟩

theorem consumed_line {lines : List (List UInt8)} {line rest : List UInt8} (whole : ∀ line ∈ lines, LineFile.IsLine line)
    (isLine : LineFile.IsLine line) (split : tail.file = lines.flatten ++ (line ++ rest)) (offset : tail.source.offset = lines.flatten.length)
    (events : tail.events = lines.filterMap (encodedEvent fromStr)) :
    ∃ (lines : List (List UInt8)) (rest : List UInt8), (∀ line ∈ lines, LineFile.IsLine line) ∧ tail.file = lines.flatten ++ rest ∧
      tail.source.offset + line.length = lines.flatten.length ∧
      tail.events ++ (encodedEvent fromStr line).toList = lines.filterMap (encodedEvent fromStr) := by
  refine ⟨lines ++ [line], rest, fun other listed => ?_, ?_, ?_, ?_⟩
  · rcases List.mem_append.1 listed with earlier | last
    · exact whole other earlier
    · exact List.mem_singleton.1 last ▸ isLine
  · rw [split, List.flatten_append, List.flatten_singleton, List.append_assoc]
  · rw [List.flatten_append, List.flatten_singleton, List.length_append, offset]
  · rw [List.filterMap_append, events]
    cases encoded : encodedEvent fromStr line with
    | none => rw [List.filterMap_cons_none encoded, Option.toList_none, List.filterMap_nil]
    | some event => rw [List.filterMap_cons_some encoded, Option.toList_some, List.filterMap_nil]

theorem Aligned.poll (aligned : Aligned fromStr tail) (visible : tail.LineVisible) : Aligned fromStr (tail.poll fromStr) := by
  obtain ⟨lines, rest, whole, split, offset, events⟩ := aligned.consumed
  have unread : tail.file.drop tail.source.offset = rest := by
    rw [split, offset, List.drop_left]
  unfold Tail.LineVisible at visible
  rw [unread] at visible
  rcases visible with nothing | feed
  · have decoded : decodeText [] = some "" := rfl
    have same : tail.poll fromStr = tail := by
      simp [Tail.poll, JsonlEventSource.turn, unread, decoded, nothing, LineFile.readLine]
    rw [same]
    exact aligned
  · obtain ⟨behind, isLine, front⟩ := LineFile.readLine_isLine feed
    have here : LineFile.lineAt tail.file tail.source.offset = some (LineFile.readLine rest) := by
      unfold LineFile.lineAt
      rw [unread, if_pos feed]
    have reads : LineFile.readLine (tail.file.drop tail.source.offset) = LineFile.readLine rest := by rw [unread]
    generalize LineFile.readLine rest = line at isLine front here reads
    rw [front] at split
    have taken := consumed_line whole isLine split offset events
    have reportsHere : ∀ {start : Nat}, start ∈ tail.reported ++ [tail.source.offset] → ¬WellFormed fromStr line →
        ∃ line, LineFile.lineAt tail.file start = some line ∧ ¬WellFormed fromStr line := by
      intro start listed refused
      rcases List.mem_append.1 listed with earlier | last
      · exact aligned.reported start earlier
      · exact ⟨line, List.mem_singleton.1 last ▸ here, refused⟩
    unfold encodedEvent at taken
    cases decoded : decodeText line with
    | none =>
      -- the line is no text: the reader stays in front of it
      have stays : tail.poll fromStr = { tail with reported := tail.reported ++ [tail.source.offset] } := by
        simp [Tail.poll, JsonlEventSource.turn, reads, decoded]
      rw [stays]
      refine ⟨⟨lines, line ++ behind, whole, split, offset, events⟩, fun start listed => reportsHere listed ?_⟩
      rintro ⟨text, atText, -⟩
      rw [decoded] at atText
      cases atText
    | some text =>
      rw [decoded] at taken
      by_cases blank : isBlank text = true
      · have skips : tail.poll fromStr = { tail with source := { tail.source with offset := tail.source.offset + line.length } } := by
          simp [Tail.poll, JsonlEventSource.turn, reads, decoded, blank, isLine.ne_nil]
        simp only [Option.bind_eq_bind, Option.bind_some, if_pos blank, Option.toList_none, List.append_nil] at taken
        rw [skips]
        exact ⟨taken, aligned.reported⟩
      · simp only [Option.bind_eq_bind, Option.bind_some, if_neg blank] at taken
        cases parsed : fromStr text with
        | ok event =>
          have returns : tail.poll fromStr = { tail with
              source := { tail.source with offset := tail.source.offset + line.length }, events := tail.events ++ [event] } := by
            simp [Tail.poll, JsonlEventSource.turn, reads, decoded, blank, isLine.ne_nil, parsed]
          rw [parsed] at taken
          rw [returns]
          exact ⟨taken, aligned.reported⟩
        | error reason =>
          have reports : tail.poll fromStr = { tail with
              source := { tail.source with offset := tail.source.offset + line.length },
              reported := tail.reported ++ [tail.source.offset] } := by
            simp [Tail.poll, JsonlEventSource.turn, reads, decoded, blank, isLine.ne_nil, parsed]
          rw [parsed] at taken
          simp only [Except.toOption, Option.toList_none, List.append_nil] at taken
          rw [reports]
          refine ⟨taken, fun start listed => reportsHere listed ?_⟩
          rintro ⟨other, atOther, inGoodForm⟩
          obtain rfl := Option.some.inj (decoded.symm.trans atOther)
          rcases inGoodForm with isBlank | ⟨event, accepted⟩
          · exact blank isBlank
          · rw [parsed] at accepted
            cases accepted

end

/-- A writer that appends whole lines only meets the condition. -/
theorem lineVisible_of_whole_lines (fromStr : String → Except String GovernanceMonitoringEvent) (path : String) (actions : List Action)
    (whole : ∀ piece, .append piece ∈ actions →
      ∃ lines : List (List UInt8), (∀ line ∈ lines, LineFile.IsLine line) ∧ piece = lines.flatten) :
    (tail fromStr path actions).LineVisible := by
  have lines : ∃ lines : List (List UInt8), (∀ line ∈ lines, LineFile.IsLine line) ∧
      (tail fromStr path actions).file = lines.flatten := by
    induction actions using List.reverseRecOn with
    | nil => exact ⟨[], by simp, rfl⟩
    | append_singleton done action ih =>
      obtain ⟨lines, all, flat⟩ := ih fun piece listed => whole piece (List.mem_append_left _ listed)
      unfold tail at flat ⊢
      rw [List.foldl_append, List.foldl_cons, List.foldl_nil]
      cases action with
      | append piece =>
        obtain ⟨added, allAdded, rfl⟩ := whole piece (List.mem_append_right _ List.mem_cons_self)
        refine ⟨lines ++ added, fun line listed => (List.mem_append.1 listed).elim (all line) (allAdded line), ?_⟩
        show _ ++ added.flatten = _
        rw [flat, List.flatten_append]
      | poll =>
        refine ⟨lines, all, ?_⟩
        rw [← flat]
        show (Tail.poll fromStr _).file = _
        unfold Tail.poll
        dsimp only
        split <;> rfl
      | refuse => exact ⟨lines, all, flat⟩
  obtain ⟨lines, all, flat⟩ := lines
  rcases List.eq_nil_or_concat lines with none | ⟨front, last, last_eq⟩
  · left
    rw [flat, none]
    simp
  · obtain ⟨body, -, ends⟩ := all last (by simp [last_eq])
    by_cases finished : lines.flatten.length ≤ (tail fromStr path actions).source.offset
    · left
      rw [flat, List.drop_eq_nil_of_le finished]
    · right
      have split : lines.flatten = (front.flatten ++ body) ++ [LineFile.lineFeed] := by simp [last_eq, ends]
      rw [flat, split]
      rw [split, List.length_append, List.length_singleton] at finished
      rw [List.drop_append_of_le_length (by omega)]
      exact List.mem_append_right _ List.mem_cons_self

/-- An event line as the writer means it, in the two pieces that reach the file. -/
def firstPiece : String := "\x7b\"property\":\"consistency\","

def secondPiece : String := "\"actual_magnitude\":1,\"timestamp\":\"t\"\x7d\n"

/-- The JSON reader on the pieces: only both together are an event. -/
def pieceFromStr (text : String) : Except String GovernanceMonitoringEvent :=
  if text = firstPiece ++ secondPiece then .ok ⟨.consistency, 1, "t", ∅⟩ else .error "EOF while parsing an object"

def pieceBytes (piece : String) : List UInt8 := piece.toUTF8.data.toList

/-- As long as no turn meets an unfinished line at the end of the file, nothing is lost, repeated or wrongly reported. -/
theorem tail_faithful (fromStr : String → Except String GovernanceMonitoringEvent) (path : String) (actions : List Action)
    (visible : ∀ done rest, actions = done ++ .poll :: rest → (tail fromStr path done).LineVisible) :
    ∀ done rest, actions = done ++ rest → Faithful fromStr (tail fromStr path done) := by
  intro done
  suffices aligned : ∀ rest, actions = done ++ rest → Aligned fromStr (tail fromStr path done) from
    fun rest split => (aligned rest split).faithful
  induction done using List.reverseRecOn with
  | nil => exact fun _ _ => ⟨⟨[], [], by simp, rfl, rfl, rfl⟩, by simp [tail, Tail.start]⟩
  | append_singleton done action ih =>
    intro rest split
    rw [List.append_assoc, List.singleton_append] at split
    have before := ih (action :: rest) split
    unfold tail at before ⊢
    rw [List.foldl_append, List.foldl_cons, List.foldl_nil]
    cases action with
    | append piece => exact before.append piece
    | poll => exact before.poll (visible done rest split)
    | refuse => exact before

/-- A poll between the two pieces of one line reports both halves as malformed, and the event is never delivered. -/
theorem torn_line_lost : ¬∀ (fromStr : String → Except String GovernanceMonitoringEvent) (path : String) (actions : List Action),
    Faithful fromStr (tail fromStr path actions) := by
  intro every
  have faithful := every pieceFromStr "log.events.jsonl"
    [.append (pieceBytes firstPiece), .poll, .append (pieceBytes secondPiece), .poll]
  refine faithful.reported 0 (by decide +kernel) (pieceBytes (firstPiece ++ secondPiece)) (by decide +kernel) ?_
  refine ⟨firstPiece ++ secondPiece, by decide +kernel, .inr ⟨⟨.consistency, 1, "t", ∅⟩, ?_⟩⟩
  rw [pieceFromStr, if_pos rfl]

theorem tail_faithful_whole_line : Faithful pieceFromStr (tail pieceFromStr "log.events.jsonl"
    [.append (pieceBytes (firstPiece ++ secondPiece)), .poll, .poll]) := by
  have isLine : LineFile.IsLine (pieceBytes (firstPiece ++ secondPiece)) :=
    ⟨(pieceBytes (firstPiece ++ secondPiece)).dropLast, by decide +kernel, by decide +kernel⟩
  refine tail_faithful pieceFromStr "log.events.jsonl" _ (fun done rest split => ?_) _ [] (List.append_nil _).symm
  refine lineVisible_of_whole_lines pieceFromStr "log.events.jsonl" done fun piece listed => ?_
  have among : Action.append piece ∈ [.append (pieceBytes (firstPiece ++ secondPiece)), .poll, .poll] :=
    split ▸ List.mem_append_left _ listed
  refine ⟨[pieceBytes (firstPiece ++ secondPiece)], by simpa using isLine, ?_⟩
  simpa using among

end Legitimacy.Monitor
