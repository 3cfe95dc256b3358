import Legitimacy.ProcessCapture.Absence
import Legitimacy.ProcessCapture.Frame

namespace Legitimacy.ProcessCapture

open Outcomes CodexExec

/-- A stable property that does not look at the past. -/
structure Lasting (holds : Machine → Prop) : Prop extends Stable holds where
  note : ∀ machine, holds machine → holds machine.note

section

variable {ε : Type} {host : Host} {holds : Machine → Prop} {left : ε → Machine → Prop}

theorem Steady.lasting {holds : Side → Prop} (steady : Steady holds) : Lasting fun machine => holds machine.side where
  toStable := steady_stable steady
  note := fun _ holding => holding

theorem Lasting.and {other : Machine → Prop} (first : Lasting holds) (second : Lasting other) : Lasting fun machine => holds machine ∧ other machine where
  toStable := first.toStable.and second.toStable
  note := fun machine both => ⟨first.note machine both.1, second.note machine both.2⟩

theorem look_ensures {α : Type} (lasting : Lasting holds) (read : Workers → α) :
    Ensures holds (act host fun machine => (read machine.workers, machine)) (fun value machine => holds machine ∧ value = read machine.workers) left :=
  act_ensures lasting.toStable fun machine holding => ⟨lasting.note machine holding, rfl⟩

theorem loadFlag_keeps (lasting : Lasting holds) (flag : WorkerFailureFacts → Bool) : Ensures holds (loadFlag host flag) (fun _ => holds) left :=
  (look_ensures lasting fun workers => flag workers.failures).of_imp (fun _ => id) (fun _ _ looked => looked.1) fun _ _ => id

theorem loadEither_keeps (lasting : Lasting holds) (first second : WorkerFailureFacts → Bool) :
    Ensures holds (loadEither host first second) (fun _ => holds) left := by
  unfold loadEither
  refine (loadFlag_keeps lasting first).bind fun set => ?_
  split
  · exact Ensures.pure fun _ holding => holding
  · exact loadFlag_keeps lasting second

theorem snapshot_keeps (lasting : Lasting holds) : Ensures holds (snapshot host) (fun _ => holds) left := by
  unfold snapshot
  refine (loadFlag_keeps lasting _).bind fun _ => (loadFlag_keeps lasting _).bind fun _ => (loadFlag_keeps lasting _).bind fun _ => ?_
  exact (loadEither_keeps lasting _ _).bind fun _ => Ensures.pure fun _ holding => holding

/-- The failures that are published. -/
def WorkerFailureFacts.failures (facts : WorkerFailureFacts) : PrimaryCaptureFailures :=
  ((((PrimaryCaptureFailures.mk 0).insertIf facts.stdoutOverflow .stdoutOverflow).insertIf facts.stderrOverflow .stderrOverflow).insertIf
    facts.writerFailed .stdin).insertIf (facts.stdoutFailed || facts.stderrFailed) .streamState

section

variable {facts : WorkerFailureFacts}

theorem loadFlag_exact (lasting : Lasting holds) (fixed : ∀ machine, holds machine → machine.workers.failures = facts)
    (flag : WorkerFailureFacts → Bool) : Ensures holds (loadFlag host flag) (fun value machine => holds machine ∧ value = flag facts) left := by
  refine (look_ensures lasting fun workers => flag workers.failures).of_imp (fun _ => id) (fun value machine looked => ?_) fun _ _ => id
  exact ⟨looked.1, fixed machine looked.1 ▸ looked.2⟩

theorem loadEither_exact (lasting : Lasting holds) (fixed : ∀ machine, holds machine → machine.workers.failures = facts)
    (first second : WorkerFailureFacts → Bool) :
    Ensures holds (loadEither host first second) (fun value machine => holds machine ∧ value = (first facts || second facts)) left := by
  unfold loadEither
  refine (loadFlag_exact lasting fixed first).bind_with fun set same => ?_
  split
  · next present => exact Ensures.pure fun _ holding => ⟨holding, by rw [← same, present]; rfl⟩
  · next absent =>
    refine (loadFlag_exact lasting fixed second).of_imp (fun _ => id) (fun value machine loaded => ⟨loaded.1, loaded.2.trans ?_⟩) fun _ _ => id
    rw [← same, Bool.eq_false_iff.2 absent]
    rfl

theorem snapshot_exact (lasting : Lasting holds) (fixed : ∀ machine, holds machine → machine.workers.failures = facts) :
    Ensures holds (snapshot host) (fun failures machine => holds machine ∧ failures = facts.failures) left := by
  unfold snapshot
  refine (loadFlag_exact lasting fixed _).bind_with fun stdoutOverflow first => (loadFlag_exact lasting fixed _).bind_with fun stderrOverflow second => ?_
  refine (loadFlag_exact lasting fixed _).bind_with fun writerFailed third => (loadEither_exact lasting fixed _ _).bind_with fun streamFailed fourth => ?_
  refine Ensures.pure fun _ holding => ⟨holding, ?_⟩
  rw [first, second, third, fourth]
  rfl

end

end

section

def JoinedAs {α : Type} (spawned : Bool) (ended : Option (Ended α)) (result : Option (WorkerCompletion α) × Bool) : Prop :=
  spawned = false ∧ result = (none, false) ∨
    spawned = true ∧ ((∃ completion, ended = some (.returned completion) ∧ result = (some completion, false)) ∨
      ended = some .panicked ∧ result = (none, true))

variable {host : Host} {holds : Machine → Prop}

theorem joinOne_ensures {α : Type} (lasting : Lasting holds) (spawned : Workers → Bool) (ended : Workers → Option (Ended α)) :
    Ensures holds (joinOne host spawned ended)
      (fun result machine => holds machine ∧ JoinedAs (spawned machine.workers) (ended machine.workers) result)
      fun stop machine => holds machine ∧ stop = .blocked := by
  unfold joinOne
  refine (look_ensures lasting fun workers => (spawned workers, ended workers)).bind fun looked => ?_
  obtain ⟨running, result⟩ := looked
  dsimp only
  split
  · next spawnedNow =>
    subst spawnedNow
    match result with
    | none => exact Ensures.throw fun _ looked => ⟨looked.1, rfl⟩
    | some (.returned completion) =>
      refine Ensures.pure fun machine ⟨holding, same⟩ => ⟨holding, .inr ⟨(congrArg Prod.fst same).symm, .inl ⟨completion, ?_, rfl⟩⟩⟩
      exact (congrArg Prod.snd same).symm
    | some .panicked =>
      refine Ensures.pure fun machine ⟨holding, same⟩ => ⟨holding, .inr ⟨(congrArg Prod.fst same).symm, .inr ⟨?_, rfl⟩⟩⟩
      exact (congrArg Prod.snd same).symm
  · next absent =>
    refine Ensures.pure fun machine ⟨holding, same⟩ => ⟨holding, .inl ⟨?_, rfl⟩⟩
    exact (congrArg Prod.fst same).symm.trans (Bool.eq_false_iff.2 absent)

def JoinedWriter (writer : Option Writer) (result : Option (WorkerCompletion Unit) × Bool) : Prop :=
  writer = none ∧ result = (none, false) ∨ ∃ running how, writer = some running ∧ running.phase = .ended how ∧
    ((∃ completion, how = .returned completion ∧ result = (some completion, false)) ∨ how = .panicked ∧ result = (none, true))

def JoinedReader (reader : Option Reader) (result : Option (WorkerCompletion (List UInt8)) × Bool) : Prop :=
  reader = none ∧ result = (none, false) ∨ ∃ running how, reader = some running ∧ running.phase = .ended how ∧
    ((∃ completion, how = .returned completion ∧ result = (some completion, false)) ∨ how = .panicked ∧ result = (none, true))

theorem joinedWriter_of_joinedAs {workers : Workers} {result : Option (WorkerCompletion Unit) × Bool}
    (joined : JoinedAs workers.writer.isSome workers.writerEnd result) : JoinedWriter workers.writer result := by
  rcases joined with ⟨absent, same⟩ | ⟨spawned, ended⟩
  · refine .inl ⟨?_, same⟩
    cases writer : workers.writer with
    | none => rfl
    | some _ =>
      rw [writer] at absent
      cases absent
  · obtain ⟨running, writer⟩ := Option.isSome_iff_exists.1 spawned
    have how : ∀ how, workers.writerEnd = some how → running.phase = .ended how := by
      intro how found
      unfold Workers.writerEnd at found
      rw [writer] at found
      split at found
      · next same =>
        cases same
        exact congrArg WriterPhase.ended (Option.some.inj found)
      · cases found
    rcases ended with ⟨completion, found, same⟩ | ⟨found, same⟩
    · exact .inr ⟨running, _, writer, how _ found, .inl ⟨completion, rfl, same⟩⟩
    · exact .inr ⟨running, _, writer, how _ found, .inr ⟨rfl, same⟩⟩

theorem joinedReader_of_joinedAs {reader : Option Reader} {result : Option (WorkerCompletion (List UInt8)) × Bool}
    (joined : JoinedAs reader.isSome (Workers.readerEnd reader) result) : JoinedReader reader result := by
  rcases joined with ⟨absent, same⟩ | ⟨spawned, ended⟩
  · refine .inl ⟨?_, same⟩
    cases reader with
    | none => rfl
    | some _ => cases absent
  · obtain ⟨running, rfl⟩ := Option.isSome_iff_exists.1 spawned
    have how : ∀ how, Workers.readerEnd (some running) = some how → running.phase = .ended how := by
      intro how found
      unfold Workers.readerEnd at found
      split at found
      · next same =>
        cases same
        exact congrArg ReaderPhase.ended (Option.some.inj found)
      · cases found
    rcases ended with ⟨completion, found, same⟩ | ⟨found, same⟩
    · exact .inr ⟨running, _, rfl, how _ found, .inl ⟨completion, rfl, same⟩⟩
    · exact .inr ⟨running, _, rfl, how _ found, .inr ⟨rfl, same⟩⟩

theorem JoinedWriter.done {writer : Option Writer} {result : Option (WorkerCompletion Unit) × Bool} (joined : JoinedWriter writer result) :
    WriterDone writer := by
  rintro running rfl
  rcases joined with ⟨absent, -⟩ | ⟨other, how, same, ended, -⟩
  · cases absent
  · cases same
    exact ⟨how, ended⟩

theorem JoinedReader.done {reader : Option Reader} {result : Option (WorkerCompletion (List UInt8)) × Bool} (joined : JoinedReader reader result) :
    ReaderDone reader := by
  rintro running rfl
  rcases joined with ⟨absent, -⟩ | ⟨other, how, same, ended, -⟩
  · cases absent
  · cases same
    exact ⟨how, ended⟩

structure Joins (workers : Workers) (joined : JoinedWorkers) : Prop where
  ends : ∃ writerPanic stdoutPanic stderrPanic, JoinedWriter workers.writer (joined.writer, writerPanic) ∧
    JoinedReader workers.stdout (joined.stdout, stdoutPanic) ∧ JoinedReader workers.stderr (joined.stderr, stderrPanic) ∧
    joined.joinUncertain = (writerPanic || stdoutPanic || stderrPanic)

theorem joinWorkers_ensures (lasting : Lasting holds) :
    Ensures holds (joinWorkers host) (fun joined machine => holds machine ∧ Joins machine.workers joined)
      fun stop machine => holds machine ∧ stop = .blocked := by
  unfold joinWorkers
  have first := @joinOne_ensures host holds _ lasting (fun workers => workers.writer.isSome) Workers.writerEnd
  refine (first.of_imp (fun _ => id) (fun _ _ joined => And.imp_right joinedWriter_of_joinedAs joined) fun _ _ => id).bind fun writer => ?_
  have atWriter : Steady fun side => JoinedWriter side.1.writer writer := fun workers _ move joined => by
    show JoinedWriter (workers.move move).writer writer
    rwa [move_writer_done joined.done]
  have withWriter := lasting.and atWriter.lasting
  have second := @joinOne_ensures host _ _ withWriter (fun workers => workers.stdout.isSome) fun workers => Workers.readerEnd workers.stdout
  refine (second.of_imp (fun _ => id) (fun _ _ joined => And.imp_right joinedReader_of_joinedAs joined)
    fun _ _ stopped => ⟨stopped.1.1, stopped.2⟩).bind fun stdout => ?_
  have atStdout : Steady fun side => JoinedReader side.1.stdout stdout := fun workers _ move joined => by
    show JoinedReader (workers.move move).stdout stdout
    rwa [move_stdout_done joined.done]
  have third := @joinOne_ensures host _ _ (withWriter.and atStdout.lasting) (fun workers => workers.stderr.isSome)
    fun workers => Workers.readerEnd workers.stderr
  refine (third.of_imp (fun _ => id) (fun _ _ joined => And.imp_right joinedReader_of_joinedAs joined)
    fun _ _ stopped => ⟨stopped.1.1.1, stopped.2⟩).bind fun stderr => ?_
  refine Ensures.pure fun machine ⟨⟨⟨holding, joinedWriter⟩, joinedStdout⟩, joinedStderr⟩ => ⟨holding, ?_⟩
  exact ⟨writer.2, stdout.2, stderr.2, joinedWriter, joinedStdout, joinedStderr, rfl⟩

theorem joins_steady (joined : JoinedWorkers) (facts : WorkerFailureFacts) :
    Steady fun side => Joins side.1 joined ∧ side.1.failures = facts := by
  intro workers rest move both
  obtain ⟨⟨writerPanic, stdoutPanic, stderrPanic, writer, stdout, stderr, uncertain⟩, same⟩ := both
  refine ⟨⟨writerPanic, stdoutPanic, stderrPanic, ?_, ?_, ?_, uncertain⟩, ?_⟩
  · show JoinedWriter (workers.move move).writer _
    rwa [move_writer_done writer.done]
  · show JoinedReader (workers.move move).stdout _
    rwa [move_stdout_done stdout.done]
  · show JoinedReader (workers.move move).stderr _
    rwa [move_stderr_done stderr.done]
  · exact (move_failures_done writer.done stdout.done stderr.done move).trans same

def closedFailures (observed : PrimaryCaptureFailures) (facts : WorkerFailureFacts) (joined : JoinedWorkers) (cancellationExpected : Bool) :
    PrimaryCaptureFailures :=
  insertCompletion (insertCompletion (insertCompletion (observed.union facts.failures) joined.writer cancellationExpected .stdin)
    joined.stdout cancellationExpected .streamState) joined.stderr cancellationExpected .streamState

theorem closeWorkerFailureObservation_ensures {ε : Type} {left : ε → Machine → Prop} (lasting : Lasting holds) {facts : WorkerFailureFacts}
    (fixed : ∀ machine, holds machine → machine.workers.failures = facts) (observed : PrimaryCaptureFailures) (joined : JoinedWorkers)
    (cancellationExpected : Bool) :
    Ensures holds (closeWorkerFailureObservation host observed joined cancellationExpected)
      (fun closed machine => holds machine ∧ closed = closedFailures observed facts joined cancellationExpected) left := by
  unfold closeWorkerFailureObservation
  refine (snapshot_exact lasting fixed).bind_with fun last same => ?_
  refine Ensures.pure fun _ holding => ⟨holding, ?_⟩
  rw [same]
  rfl

end

end Legitimacy.ProcessCapture
