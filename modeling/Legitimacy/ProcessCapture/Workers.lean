import Legitimacy.CodexExec.StreamValidation
import Mathlib.Data.Nat.Bitwise

namespace Legitimacy.ProcessCapture

open CodexExec

def readChunk : Nat := 64 * 1024

inductive WorkerCompletion (α : Type)
  | complete (value : α)
  | cancelled
  | failed
deriving DecidableEq

inductive Ended (α : Type)
  | returned (completion : WorkerCompletion α)
  | panicked
deriving DecidableEq

inductive PrimaryCaptureFailure
  | stdoutOverflow
  | stderrOverflow
  | stdin
  | streamState
  | timeout
  | liveDescendant
deriving DecidableEq

namespace PrimaryCaptureFailure

def precedence : List PrimaryCaptureFailure := [.stdoutOverflow, .stderrOverflow, .stdin, .streamState, .timeout, .liveDescendant]

def index : PrimaryCaptureFailure → Nat
  | .stdoutOverflow => 0
  | .stderrOverflow => 1
  | .stdin => 2
  | .streamState => 3
  | .timeout => 4
  | .liveDescendant => 5

def code : PrimaryCaptureFailure → AdapterErrorCode
  | .stdoutOverflow => .captureStdoutOverflow
  | .stderrOverflow => .captureStderrOverflow
  | .stdin => .captureStdin
  | .streamState => .streamState
  | .timeout => .captureTimeout
  | .liveDescendant => .captureLiveDescendant

end PrimaryCaptureFailure

/-- A set of failures as bits. -/
structure PrimaryCaptureFailures where
  bits : Nat := 0
deriving DecidableEq

namespace PrimaryCaptureFailures

def insert (failures : PrimaryCaptureFailures) (failure : PrimaryCaptureFailure) : PrimaryCaptureFailures :=
  ⟨failures.bits ||| 1 <<< failure.index⟩

def contains (failures : PrimaryCaptureFailures) (failure : PrimaryCaptureFailure) : Bool := failures.bits &&& 1 <<< failure.index ≠ 0

def selected (failures : PrimaryCaptureFailures) : Option PrimaryCaptureFailure := PrimaryCaptureFailure.precedence.find? failures.contains

def union (failures other : PrimaryCaptureFailures) : PrimaryCaptureFailures := ⟨failures.bits ||| other.bits⟩

def insertIf (failures : PrimaryCaptureFailures) (flag : Bool) (failure : PrimaryCaptureFailure) : PrimaryCaptureFailures :=
  if flag then failures.insert failure else failures

variable (failures : PrimaryCaptureFailures)

theorem contains_eq_testBit (failure : PrimaryCaptureFailure) :
    failures.contains failure = failures.bits.testBit failure.index := by
  unfold contains
  rw [Nat.shiftLeft_eq, Nat.one_mul, Nat.and_two_pow]
  cases failures.bits.testBit failure.index <;> simp

theorem index_injective {failure other : PrimaryCaptureFailure} (same : failure.index = other.index) : failure = other := by
  cases failure <;> cases other <;> first | rfl | cases same

theorem contains_insert (failure other : PrimaryCaptureFailure) :
    (failures.insert failure).contains other = true ↔ failure = other ∨ failures.contains other = true := by
  rw [contains_eq_testBit, contains_eq_testBit]
  unfold insert
  rw [Nat.testBit_or, Nat.shiftLeft_eq, Nat.one_mul, Nat.testBit_two_pow, Bool.or_eq_true, decide_eq_true_iff, or_comm]
  constructor
  · rintro (same | held)
    · exact .inl (index_injective same)
    · exact .inr held
  · rintro (rfl | held)
    · exact .inl rfl
    · exact .inr held

theorem contains_union (failures other : PrimaryCaptureFailures) (failure : PrimaryCaptureFailure) :
    (failures.union other).contains failure = true ↔ failures.contains failure = true ∨ other.contains failure = true := by
  rw [contains_eq_testBit, contains_eq_testBit, contains_eq_testBit]
  unfold union
  rw [Nat.testBit_or, Bool.or_eq_true]

theorem contains_insertIf (flag : Bool) (failure other : PrimaryCaptureFailure) :
    (failures.insertIf flag failure).contains other = true ↔ flag = true ∧ failure = other ∨ failures.contains other = true := by
  unfold insertIf
  cases flag with
  | true => simp [contains_insert]
  | false => simp

theorem mem_precedence (failure : PrimaryCaptureFailure) : failure ∈ PrimaryCaptureFailure.precedence := by
  cases failure <;> decide

theorem selected_eq_none_iff : failures.selected = none ↔ ∀ failure, failures.contains failure = false := by
  unfold selected
  rw [List.find?_eq_none]
  constructor
  · intro none_ failure
    exact Bool.eq_false_iff.2 (none_ failure (mem_precedence failure))
  · intro empty failure _
    rw [empty failure]
    exact Bool.false_ne_true

end PrimaryCaptureFailures

structure WorkerFailureFacts where
  writerFailed : Bool := false
  stdoutOverflow : Bool := false
  stderrOverflow : Bool := false
  stdoutFailed : Bool := false
  stderrFailed : Bool := false
deriving DecidableEq

/-- What a write says. -/
inductive WriteResult
  | written (count : Nat)
  | wouldBlock
  | interrupted
  | error

inductive WriterPhase
  | head
  | writing
  | storing
  | returning
  | ended (how : Ended Unit)
deriving DecidableEq

structure Writer where
  input : List UInt8
  offset : Nat
  phase : WriterPhase
  written : List UInt8

def Writer.step (writer : Writer) (cancel : Bool) (result : WriteResult) : Writer × Bool :=
  match writer.phase with
  | .head =>
    if writer.offset < writer.input.length then
      if cancel then ({ writer with phase := .ended (.returned .cancelled) }, false) else ({ writer with phase := .writing }, false)
    else ({ writer with phase := .ended (.returned (.complete ⟨⟩)) }, false)
  | .writing =>
    match result with
    | .written count =>
      if count = 0 then ({ writer with phase := .storing }, false)
      else if count ≤ writer.input.length - writer.offset then
        ({ writer with
          phase := .head
          offset := writer.offset + count
          written := writer.written ++ (writer.input.drop writer.offset).take count }, false)
      else (writer, false)
    | .wouldBlock => ({ writer with phase := .head }, false)
    | .interrupted => ({ writer with phase := .head }, false)
    | .error => ({ writer with phase := .storing }, false)
  | .storing => ({ writer with phase := .returning }, true)
  | .returning => ({ writer with phase := .ended (.returned .failed) }, false)
  | .ended _ => (writer, false)

inductive ReadResult
  | read (bytes : List UInt8)
  | wouldBlock
  | interrupted
  | error

inductive ReaderPhase
  | head
  | reading
  | overflowing
  | storing
  | returning
  | ended (how : Ended (List UInt8))
deriving DecidableEq

/-- `read_stream` between two of its atomic steps, and the bytes that it has read, as far as the end of the stream or not. -/
structure Reader where
  cap : Nat
  retained : List UInt8
  phase : ReaderPhase
  consumed : List UInt8
  atEnd : Bool

inductive Published
  | nothing
  | overflow
  | failed

def Reader.step (reader : Reader) (cancel : Bool) (result : ReadResult) : Reader × Published :=
  match reader.phase with
  | .head =>
    if cancel then ({ reader with phase := .ended (.returned .cancelled) }, .nothing) else ({ reader with phase := .reading }, .nothing)
  | .reading =>
    match result with
    | .read bytes =>
      if bytes = [] then ({ reader with phase := .ended (.returned (.complete reader.retained)), atEnd := true }, .nothing)
      else if bytes.length ≤ readChunk then
        let remaining := reader.cap - reader.retained.length
        let kept := { reader with
          retained := reader.retained ++ bytes.take (min bytes.length remaining)
          consumed := reader.consumed ++ bytes }
        if bytes.length > remaining then ({ kept with phase := .overflowing }, .nothing) else ({ kept with phase := .head }, .nothing)
      else (reader, .nothing)
    | .wouldBlock => ({ reader with phase := .head }, .nothing)
    | .interrupted => ({ reader with phase := .head }, .nothing)
    | .error => ({ reader with phase := .storing }, .nothing)
  | .overflowing => ({ reader with phase := .head }, .overflow)
  | .storing => ({ reader with phase := .returning }, .failed)
  | .returning => ({ reader with phase := .ended (.returned .failed) }, .nothing)
  | .ended _ => (reader, .nothing)

structure Workers where
  cancel : Bool := false
  failures : WorkerFailureFacts := {}
  writer : Option Writer := none
  stdout : Option Reader := none
  stderr : Option Reader := none

inductive WorkerMove
  | writer (result : WriteResult)
  | stdout (result : ReadResult)
  | stderr (result : ReadResult)
  | writerPanics
  | stdoutPanics
  | stderrPanics

def Writer.panic (writer : Writer) : Writer :=
  match writer.phase with
  | .ended _ => writer
  | _ => { writer with phase := .ended .panicked }

def Reader.panic (reader : Reader) : Reader :=
  match reader.phase with
  | .ended _ => reader
  | _ => { reader with phase := .ended .panicked }

namespace Workers

def move (workers : Workers) : WorkerMove → Workers
  | .writer result =>
    match workers.writer with
    | none => workers
    | some writer =>
      let (after, failed) := writer.step workers.cancel result
      { workers with writer := some after, failures := { workers.failures with writerFailed := workers.failures.writerFailed || failed } }
  | .stdout result =>
    match workers.stdout with
    | none => workers
    | some reader =>
      let (after, published) := reader.step workers.cancel result
      { workers with
        stdout := some after
        failures := match published with
          | .nothing => workers.failures
          | .overflow => { workers.failures with stdoutOverflow := true }
          | .failed => { workers.failures with stdoutFailed := true } }
  | .stderr result =>
    match workers.stderr with
    | none => workers
    | some reader =>
      let (after, published) := reader.step workers.cancel result
      { workers with
        stderr := some after
        failures := match published with
          | .nothing => workers.failures
          | .overflow => { workers.failures with stderrOverflow := true }
          | .failed => { workers.failures with stderrFailed := true } }
  | .writerPanics => { workers with writer := workers.writer.map Writer.panic }
  | .stdoutPanics => { workers with stdout := workers.stdout.map Reader.panic }
  | .stderrPanics => { workers with stderr := workers.stderr.map Reader.panic }

def writerEnd (workers : Workers) : Option (Ended Unit) :=
  match workers.writer with
  | some ⟨_, _, .ended how, _⟩ => some how
  | _ => none

def readerEnd : Option Reader → Option (Ended (List UInt8))
  | some ⟨_, _, .ended how, _, _⟩ => some how
  | _ => none

end Workers

end Legitimacy.ProcessCapture
