import Legitimacy.ProcessCapture.Joining

namespace Legitimacy.ProcessCapture

open Outcomes CodexExec

section

theorem contains_insertCompletion {α : Type} (observed : PrimaryCaptureFailures) (completion : Option (WorkerCompletion α))
    (cancellationExpected : Bool) (failure other : PrimaryCaptureFailure) :
    (insertCompletion observed completion cancellationExpected failure).contains other = true ↔
      observed.contains other = true ∨
        failure = other ∧ (completion = some .failed ∨ completion = some .cancelled ∧ cancellationExpected = false) := by
  unfold insertCompletion
  split
  · rw [PrimaryCaptureFailures.contains_insert]
    simp [or_comm]
  · cases cancellationExpected with
    | true => simp
    | false => simp [PrimaryCaptureFailures.contains_insert, or_comm]
  · next unfailed uncancelled =>
    constructor
    · exact .inl
    · rintro (held | ⟨-, same | ⟨same, -⟩⟩)
      · exact held
      · exact absurd same unfailed
      · exact absurd same uncancelled

theorem contains_failures (facts : WorkerFailureFacts) (failure : PrimaryCaptureFailure) :
    facts.failures.contains failure = true ↔
      facts.stdoutOverflow = true ∧ failure = .stdoutOverflow ∨ facts.stderrOverflow = true ∧ failure = .stderrOverflow ∨
        facts.writerFailed = true ∧ failure = .stdin ∨ (facts.stdoutFailed = true ∨ facts.stderrFailed = true) ∧ failure = .streamState := by
  unfold WorkerFailureFacts.failures
  rw [PrimaryCaptureFailures.contains_insertIf, PrimaryCaptureFailures.contains_insertIf, PrimaryCaptureFailures.contains_insertIf,
    PrimaryCaptureFailures.contains_insertIf]
  have empty : (PrimaryCaptureFailures.mk 0).contains failure = false := by cases failure <;> rfl
  rw [empty, Bool.or_eq_true]
  constructor
  · rintro (⟨set, rfl⟩ | ⟨set, rfl⟩ | ⟨set, rfl⟩ | ⟨set, rfl⟩ | none_)
    · exact .inr (.inr (.inr ⟨set, rfl⟩))
    · exact .inr (.inr (.inl ⟨set, rfl⟩))
    · exact .inr (.inl ⟨set, rfl⟩)
    · exact .inl ⟨set, rfl⟩
    · cases none_
  · rintro (⟨set, rfl⟩ | ⟨set, rfl⟩ | ⟨set, rfl⟩ | ⟨set, rfl⟩)
    · exact .inr (.inr (.inr (.inl ⟨set, rfl⟩)))
    · exact .inr (.inr (.inl ⟨set, rfl⟩))
    · exact .inr (.inl ⟨set, rfl⟩)
    · exact .inl ⟨set, rfl⟩

variable {stdinBytes : List UInt8} {stdoutCap stderrCap : Nat} {workers : Workers} {joined : JoinedWorkers}

theorem JoinedWriter.failed_published {panics : Bool} (sound : workers.Sound stdinBytes stdoutCap stderrCap)
    (writer : JoinedWriter workers.writer (joined.writer, panics)) (failed : joined.writer = some .failed) : workers.failures.writerFailed = true := by
  rcases writer with ⟨-, same⟩ | ⟨running, how, spawned, ended, ⟨completion, returned, same⟩ | ⟨-, same⟩⟩
  · cases failed.symm.trans (congrArg Prod.fst same)
  · cases failed.symm.trans (congrArg Prod.fst same)
    subst returned
    exact (sound.writer running spawned).2.failed (.inr ended)
  · cases failed.symm.trans (congrArg Prod.fst same)

theorem JoinedReader.failed_published {reader : Option Reader} {completion : Option (WorkerCompletion (List UInt8))} {panics : Bool} {cap : Nat}
    {cancel overflow flag : Bool} (sound : ∀ running, reader = some running → running.cap = cap ∧ running.Sound cancel overflow flag)
    (joined : JoinedReader reader (completion, panics)) (failed : completion = some .failed) : flag = true := by
  rcases joined with ⟨-, same⟩ | ⟨running, how, spawned, ended, ⟨returned, equal, same⟩ | ⟨-, same⟩⟩
  · cases failed.symm.trans (congrArg Prod.fst same)
  · cases failed.symm.trans (congrArg Prod.fst same)
    subst equal
    exact (sound running spawned).2.failed (.inr ended)
  · cases failed.symm.trans (congrArg Prod.fst same)

theorem contains_closedFailures (sound : workers.Sound stdinBytes stdoutCap stderrCap) (joins : Joins workers joined)
    (observed : PrimaryCaptureFailures) (failure : PrimaryCaptureFailure) :
    (closedFailures observed workers.failures joined true).contains failure = true ↔
      observed.contains failure = true ∨ workers.failures.failures.contains failure = true := by
  obtain ⟨writerPanic, stdoutPanic, stderrPanic, writer, stdout, stderr, -⟩ := joins.ends
  unfold closedFailures
  rw [contains_insertCompletion, contains_insertCompletion, contains_insertCompletion, PrimaryCaptureFailures.contains_union]
  constructor
  · rintro (((either | ⟨rfl, failed | ⟨-, expected⟩⟩) | ⟨rfl, failed | ⟨-, expected⟩⟩) | ⟨rfl, failed | ⟨-, expected⟩⟩)
    · exact either
    · exact .inr ((contains_failures _ _).2 (.inr (.inr (.inl ⟨writer.failed_published sound failed, rfl⟩))))
    · cases expected
    · exact .inr ((contains_failures _ _).2 (.inr (.inr (.inr ⟨.inl (stdout.failed_published sound.stdout failed), rfl⟩))))
    · cases expected
    · exact .inr ((contains_failures _ _).2 (.inr (.inr (.inr ⟨.inr (stderr.failed_published sound.stderr failed), rfl⟩))))
    · cases expected
  · exact fun either => .inl (.inl (.inl either))

def WroteAll (writer : Option Writer) (bytes : List UInt8) : Prop := ∃ running, writer = some running ∧ running.written = bytes

def ReadWhole (reader : Option Reader) (cap : Nat) (bytes : List UInt8) : Prop :=
  ∃ running, reader = some running ∧ running.atEnd = true ∧ running.consumed = bytes ∧ bytes.length ≤ cap

structure AllSpawned (workers : Workers) : Prop where
  writer : workers.writer.isSome = true
  stdout : workers.stdout.isSome = true
  stderr : workers.stderr.isSome = true

theorem JoinedWriter.wroteAll (sound : workers.Sound stdinBytes stdoutCap stderrCap) (spawned : workers.writer.isSome = true)
    {completion : Option (WorkerCompletion Unit)} (joined : JoinedWriter workers.writer (completion, false))
    (unfailed : completion ≠ some .failed) (uncancelled : completion ≠ some .cancelled) : WroteAll workers.writer stdinBytes := by
  rcases joined with ⟨absent, -⟩ | ⟨running, how, there, ended, ⟨returned, equal, same⟩ | ⟨-, same⟩⟩
  · rw [absent] at spawned
    cases spawned
  · obtain ⟨input, writes⟩ := sound.writer running there
    subst equal
    cases same
    cases returned with
    | failed => exact absurd rfl unfailed
    | cancelled => exact absurd rfl uncancelled
    | complete value =>
      refine ⟨running, there, ?_⟩
      rw [writes.written, List.take_of_length_le (writes.complete ended), input]
  · cases congrArg Prod.snd same

theorem JoinedReader.readWhole {reader : Option Reader} {cap : Nat} {cancel flag : Bool}
    (sound : ∀ running, reader = some running → running.cap = cap ∧ running.Sound cancel false flag) (spawned : reader.isSome = true)
    {completion : Option (WorkerCompletion (List UInt8))} (joined : JoinedReader reader (completion, false))
    (unfailed : completion ≠ some .failed) (uncancelled : completion ≠ some .cancelled) :
    ∃ bytes, completion = some (.complete bytes) ∧ ReadWhole reader cap bytes := by
  rcases joined with ⟨absent, -⟩ | ⟨running, how, there, ended, ⟨returned, equal, same⟩ | ⟨-, same⟩⟩
  · rw [absent] at spawned
    cases spawned
  · obtain ⟨sized, reads⟩ := sound running there
    subst equal
    cases same
    cases returned with
    | failed => exact absurd rfl unfailed
    | cancelled => exact absurd rfl uncancelled
    | complete bytes =>
      obtain ⟨rfl, atEnd⟩ := reads.complete bytes ended
      have firm := reads.firm (by rw [ended]; nofun) (by rw [ended]; nofun)
      have exactly : running.retained = running.consumed := firm.resolve_left Bool.false_ne_true
      exact ⟨_, rfl, running, there, atEnd, exactly.symm, sized ▸ reads.capped⟩
  · cases congrArg Prod.snd same

/-- Without any failure all three workers have done all of their work. -/
theorem whole_of_closed (sound : workers.Sound stdinBytes stdoutCap stderrCap) (joins : Joins workers joined) (spawned : AllSpawned workers)
    (certain : joined.joinUncertain = false) (clean : (closedFailures ⟨0⟩ workers.failures joined false).selected = none) :
    ∃ out err, joined.stdout = some (.complete out) ∧ joined.stderr = some (.complete err) ∧ WroteAll workers.writer stdinBytes ∧
      ReadWhole workers.stdout stdoutCap out ∧ ReadWhole workers.stderr stderrCap err := by
  obtain ⟨writerPanic, stdoutPanic, stderrPanic, writer, stdout, stderr, panics⟩ := joins.ends
  rw [certain] at panics
  obtain ⟨front, rfl⟩ := Bool.or_eq_false_iff.1 panics.symm
  obtain ⟨rfl, rfl⟩ := Bool.or_eq_false_iff.1 front
  have none_ := (PrimaryCaptureFailures.selected_eq_none_iff _).1 clean
  have without : ∀ failure, ¬(closedFailures ⟨0⟩ workers.failures joined false).contains failure = true :=
    fun failure => Bool.eq_false_iff.1 (none_ failure)
  unfold closedFailures at without
  simp only [contains_insertCompletion, PrimaryCaptureFailures.contains_union, contains_failures] at without
  have noWriter := without .stdin
  have noStream := without .streamState
  have noStdout := without .stdoutOverflow
  have noStderr := without .stderrOverflow
  have stdoutFine : workers.failures.stdoutOverflow = false := by
    cases flag : workers.failures.stdoutOverflow with
    | false => rfl
    | true => exact absurd (.inl (.inl (.inl (.inr (.inl ⟨flag, rfl⟩))))) noStdout
  have stderrFine : workers.failures.stderrOverflow = false := by
    cases flag : workers.failures.stderrOverflow with
    | false => rfl
    | true => exact absurd (.inl (.inl (.inl (.inr (.inr (.inl ⟨flag, rfl⟩)))))) noStderr
  have stdoutSound := sound.stdout
  have stderrSound := sound.stderr
  rw [stdoutFine] at stdoutSound
  rw [stderrFine] at stderrSound
  obtain ⟨out, isOut, readOut⟩ := stdout.readWhole stdoutSound spawned.stdout
    (fun failed => noStream (.inl (.inr ⟨rfl, .inl failed⟩))) fun cancelled => noStream (.inl (.inr ⟨rfl, .inr ⟨cancelled, trivial⟩⟩))
  obtain ⟨err, isErr, readErr⟩ := stderr.readWhole stderrSound spawned.stderr
    (fun failed => noStream (.inr ⟨rfl, .inl failed⟩)) fun cancelled => noStream (.inr ⟨rfl, .inr ⟨cancelled, trivial⟩⟩)
  have wrote := writer.wroteAll sound spawned.writer
    (fun failed => noWriter (.inl (.inl (.inr ⟨rfl, .inl failed⟩)))) fun cancelled => noWriter (.inl (.inl (.inr ⟨rfl, .inr ⟨cancelled, trivial⟩⟩)))
  exact ⟨out, err, isOut, isErr, wrote, readOut, readErr⟩

end

section

variable {stdinBytes : List UInt8} {stdoutCap stderrCap main identity : Nat} {host : Host} {ε : Type}

theorem isSome_move (workers : Workers) (move : WorkerMove) : (workers.move move).writer.isSome = workers.writer.isSome ∧
    (workers.move move).stdout.isSome = workers.stdout.isSome ∧ (workers.move move).stderr.isSome = workers.stderr.isSome := by
  cases move with
  | writer result =>
    unfold Workers.move
    cases there : workers.writer with
    | none => exact ⟨congrArg Option.isSome there, rfl, rfl⟩
    | some running => exact ⟨rfl, rfl, rfl⟩
  | stdout result =>
    unfold Workers.move
    cases there : workers.stdout with
    | none => exact ⟨rfl, congrArg Option.isSome there, rfl⟩
    | some running => exact ⟨rfl, rfl, rfl⟩
  | stderr result =>
    unfold Workers.move
    cases there : workers.stderr with
    | none => exact ⟨rfl, rfl, congrArg Option.isSome there⟩
    | some running => exact ⟨rfl, rfl, rfl⟩
  | writerPanics => exact ⟨Option.isSome_map, rfl, rfl⟩
  | stdoutPanics => exact ⟨rfl, Option.isSome_map, rfl⟩
  | stderrPanics => exact ⟨rfl, rfl, Option.isSome_map⟩

theorem AllSpawned.move {workers : Workers} (spawned : AllSpawned workers) (move : WorkerMove) : AllSpawned (workers.move move) where
  writer := (isSome_move workers move).1.trans spawned.writer
  stdout := (isSome_move workers move).2.1.trans spawned.stdout
  stderr := (isSome_move workers move).2.2.trans spawned.stderr

/-- The workers and what the supervisor has recorded, which the care for the processes does not touch. -/
structure AtWork (stdinBytes : List UInt8) (stdoutCap stderrCap : Nat) (spawned : Prop) (seen : PrimaryCaptureFailures → Prop)
    (closing : Option Closing) (side : Side) : Prop where
  workers : side.1.Sound stdinBytes stdoutCap stderrCap
  spawned : spawned → AllSpawned side.1
  seen : seen side.2.1
  closing : side.2.2 = closing

variable {spawned : Prop} {seen : PrimaryCaptureFailures → Prop} {closing : Option Closing}

theorem atWork_steady : Steady (AtWork stdinBytes stdoutCap stderrCap spawned seen closing) :=
  fun _ _ move work => ⟨work.workers.move move, fun all => (work.spawned all).move move, work.seen, work.closing⟩

theorem AtWork.seeing {side : Side} (work : AtWork stdinBytes stdoutCap stderrCap spawned seen closing side) {seen' : PrimaryCaptureFailures → Prop}
    (other : seen side.2.1 → seen' side.2.1) : AtWork stdinBytes stdoutCap stderrCap spawned seen' closing side :=
  ⟨work.workers, work.spawned, other work.seen, work.closing⟩

theorem tended_lasting : Lasting (Tended main identity []) where
  toStable := tended_stable main identity []
  note := fun _ tended => tended.note

def Watched (main identity : Nat) (holds : Side → Prop) (machine : Machine) : Prop := Tended main identity [] machine ∧ holds machine.side

theorem watched_lasting {holds : Side → Prop} (steady : Steady holds) : Lasting (Watched main identity holds) := tended_lasting.and steady.lasting

theorem watched_ensures {α : Type} {program : Calls ε α} {reached : α → Machine → Prop} {left : ε → Machine → Prop} {holds : Side → Prop}
    (steady : Steady holds) (apart : Apart program) (tended : Ensures (Tended main identity []) program reached left) :
    Ensures (Watched main identity holds) program (fun value machine => reached value machine ∧ holds machine.side)
      fun failure machine => left failure machine ∧ holds machine.side := tended.and (apart.keeps holds steady)

theorem succeeds_tells {α : Type} {program : Calls Unit α} {start reached failed : Machine → Prop} {left : ε → Machine → Prop}
    (ensures : Ensures start program (fun _ machine => reached machine) fun _ machine => failed machine) :
    Ensures start (succeeds program) (fun succeeded machine => if succeeded then reached machine else failed machine) left := by
  unfold succeeds
  refine ensures.tried.bind fun result => ?_
  cases result with
  | ok _ => exact Ensures.pure fun _ holds => holds
  | error _ => exact Ensures.pure fun _ holds => holds

section

theorem fcntl_ensures {holds : Side → Prop} (steady : Steady holds) :
    Ensures (Watched main identity holds) (fcntl host) (fun _ => Watched main identity holds) fun _ => Watched main identity holds := by
  refine operation_ensures (watched_lasting steady).toStable fun machine value after watched performed => ?_
  cases performed
  exact (watched_lasting steady).note machine watched

theorem makeNonblocking_ensures {holds : Side → Prop} (steady : Steady holds) :
    Ensures (Watched main identity holds) (makeNonblocking host) (fun _ => Watched main identity holds) fun _ => Watched main identity holds :=
  (fcntl_ensures steady).bind fun _ => fcntl_ensures steady

theorem spawnWorker_ensures {before after : Workers → Prop} (moves : ∀ workers move, before workers → before (workers.move move))
    {start : Workers → Workers} (starts : ∀ workers, before workers → after (start workers)) :
    Ensures (Watched main identity fun side => before side.1 ∧ side.2.2 = closing) (spawnWorker host start)
      (fun _ => Watched main identity fun side => after side.1 ∧ side.2.2 = closing)
      fun _ => Watched main identity fun side => before side.1 ∧ side.2.2 = closing := by
  have steady : Steady fun side => before side.1 ∧ side.2.2 = closing := fun workers rest move both => ⟨moves workers move both.1, both.2⟩
  refine operation_ensures (watched_lasting steady).toStable fun machine value changed watched performed => ?_
  cases performed
  obtain ⟨tended, holding, open_⟩ := watched
  have same : Tended main identity [] { machine with workers := start machine.workers } :=
    ⟨tended.scene, tended.mainHeld, tended.past, tended.hits⟩
  exact ⟨same.note, starts machine.workers holding, open_⟩

section

variable {workers : Workers}

theorem Workers.Sound.startWriter (sound : workers.Sound stdinBytes stdoutCap stderrCap) :
    ({ workers with writer := some ⟨stdinBytes, 0, .head, []⟩ } : Workers).Sound stdinBytes stdoutCap stderrCap := by
  refine ⟨fun writer spawned => ?_, sound.stdout, sound.stderr⟩
  cases spawned
  exact ⟨rfl, rfl, nofun, fun either => either.elim nofun nofun, nofun⟩

theorem Workers.Sound.startStdout (sound : workers.Sound stdinBytes stdoutCap stderrCap) :
    ({ workers with stdout := some ⟨stdoutCap, [], .head, [], false⟩ } : Workers).Sound stdinBytes stdoutCap stderrCap := by
  refine ⟨sound.writer, fun reader spawned => ?_, sound.stderr⟩
  cases spawned
  exact ⟨rfl, .inr (.inr (.inr rfl)), Nat.zero_le _, nofun, fun either => either.elim nofun nofun, nofun⟩

theorem Workers.Sound.startStderr (sound : workers.Sound stdinBytes stdoutCap stderrCap) :
    ({ workers with stderr := some ⟨stderrCap, [], .head, [], false⟩ } : Workers).Sound stdinBytes stdoutCap stderrCap := by
  refine ⟨sound.writer, sound.stdout, fun reader spawned => ?_⟩
  cases spawned
  exact ⟨rfl, .inr (.inr (.inr rfl)), Nat.zero_le _, nofun, fun either => either.elim nofun nofun, nofun⟩

end

theorem startWorkers_ensures :
    Ensures (Watched main identity (AtWork stdinBytes stdoutCap stderrCap False (fun _ => True) closing))
      (startWorkers host stdinBytes stdoutCap stderrCap)
      (fun _ => Watched main identity (AtWork stdinBytes stdoutCap stderrCap True (fun _ => True) closing))
      fun _ => Watched main identity (AtWork stdinBytes stdoutCap stderrCap False (fun _ => True) closing) := by
  unfold startWorkers
  have piped : ∀ flag : Bool, Ensures (Watched main identity (AtWork stdinBytes stdoutCap stderrCap False (fun _ => True) closing))
      (require (flag = true) ⟨⟩ : Calls Unit Unit)
      (fun _ => Watched main identity (AtWork stdinBytes stdoutCap stderrCap False (fun _ => True) closing))
      fun _ => Watched main identity (AtWork stdinBytes stdoutCap stderrCap False (fun _ => True) closing) :=
    fun _ => (Ensures.require fun _ watched => watched).of_imp (fun _ => id) (fun _ _ required => required.2) fun _ _ => id
  refine (piped _).bind fun _ => (piped _).bind fun _ => (piped _).bind fun _ => ?_
  refine (makeNonblocking_ensures atWork_steady).bind fun _ => ?_
  refine (makeNonblocking_ensures atWork_steady).bind fun _ => ?_
  refine (makeNonblocking_ensures atWork_steady).bind fun _ => ?_
  have first := @spawnWorker_ensures main identity host closing (Workers.Sound stdinBytes stdoutCap stderrCap)
    (fun workers => workers.Sound stdinBytes stdoutCap stderrCap ∧ workers.writer.isSome = true)
    (fun _ move sound => sound.move move) _ fun _ sound => ⟨sound.startWriter, rfl⟩
  have second := @spawnWorker_ensures main identity host closing
    (fun workers => workers.Sound stdinBytes stdoutCap stderrCap ∧ workers.writer.isSome = true)
    (fun workers => workers.Sound stdinBytes stdoutCap stderrCap ∧ workers.writer.isSome = true ∧ workers.stdout.isSome = true)
    (fun workers move both => ⟨both.1.move move, (isSome_move workers move).1.trans both.2⟩) _
    fun _ both => ⟨both.1.startStdout, both.2, rfl⟩
  have third := @spawnWorker_ensures main identity host closing
    (fun workers => workers.Sound stdinBytes stdoutCap stderrCap ∧ workers.writer.isSome = true ∧ workers.stdout.isSome = true)
    (fun workers => workers.Sound stdinBytes stdoutCap stderrCap ∧ AllSpawned workers)
    (fun workers move ⟨sound, writer, stdout⟩ =>
      ⟨sound.move move, (isSome_move workers move).1.trans writer, (isSome_move workers move).2.1.trans stdout⟩) _
    fun _ all => ⟨all.1.startStderr, all.2.1, all.2.2, rfl⟩
  refine (first.of_imp (fun _ watched => ⟨watched.1, watched.2.workers, watched.2.closing⟩) (fun _ _ => id)
    fun _ _ watched => ⟨watched.1, watched.2.1, False.elim, trivial, watched.2.2⟩).bind fun _ => ?_
  refine (second.leaving fun _ _ watched => ⟨watched.1, watched.2.1.1, False.elim, trivial, watched.2.2⟩).bind fun _ => ?_
  refine third.of_imp (fun _ => id) (fun _ machine watched => ?_)
    fun _ _ watched => ⟨watched.1, watched.2.1.1, False.elim, trivial, watched.2.2⟩
  exact ⟨watched.1, watched.2.1.1, fun _ => watched.2.1.2, trivial, watched.2.2⟩

end

section

/-- Whatever else is inserted, these failures stay. -/
def Growing (seen : PrimaryCaptureFailures → Prop) : Prop := ∀ failures more, seen failures → seen (failures.union more)

variable {left : ε → Machine → Prop}

theorem insertObserved_ensures {seen' : PrimaryCaptureFailures → Prop} (failures : PrimaryCaptureFailures)
    (grows : ∀ observed, seen observed → seen' (observed.union failures)) :
    Ensures (Watched main identity (AtWork stdinBytes stdoutCap stderrCap spawned seen closing)) (insertObserved failures)
      (fun _ => Watched main identity (AtWork stdinBytes stdoutCap stderrCap spawned seen' closing)) left := by
  refine assign_ensures fun machine ⟨tended, work⟩ => ?_
  have same : Tended main identity [] { machine with observedPrimary := machine.observedPrimary.union failures } :=
    ⟨tended.scene, tended.mainHeld, tended.past, tended.hits⟩
  exact ⟨same.note, work.workers, work.spawned, grows _ work.seen, work.closing⟩

theorem workersFinished_keeps {holds : Machine → Prop} (lasting : Lasting holds) : Ensures holds (workersFinished host) (fun _ => holds) left := by
  unfold workersFinished
  have looks : ∀ read : Workers → Bool, Ensures holds (act host fun machine => (read machine.workers, machine)) (fun _ => holds) left :=
    fun read => (look_ensures lasting read).of_imp (fun _ => id) (fun _ _ looked => looked.1) fun _ _ => id
  refine (looks fun workers => workers.writerEnd.isSome).bind fun writer => ?_
  split
  · refine (looks fun workers => (Workers.readerEnd workers.stdout).isSome).bind fun stdout => ?_
    split
    · exact looks fun workers => (Workers.readerEnd workers.stderr).isSome
    · exact Ensures.pure fun _ holding => holding
  · exact Ensures.pure fun _ holding => holding

theorem tries_ensures {α : Type} {program : Calls Unit α} {holds : Side → Prop} (steady : Steady holds) (apart : Apart program)
    (tended : Ensures (Tended main identity []) program (fun _ => Tended main identity []) fun _ => Tended main identity []) :
    Ensures (Watched main identity holds) (outcome program : Calls ε _) (fun _ => Watched main identity holds) left :=
  Ensures.outcome (watched_ensures steady apart tended)

theorem succeeds_keeps {α : Type} {program : Calls Unit α} {holds : Side → Prop} (steady : Steady holds) (apart : Apart program)
    (tended : Ensures (Tended main identity []) program (fun _ => Tended main identity []) fun _ => Tended main identity []) :
    Ensures (Watched main identity holds) (succeeds program) (fun _ => Watched main identity holds) left :=
  @succeeds_ensures _ _ _ _ (Watched main identity holds) _ (watched_ensures steady apart tended)

theorem observeTree_keeps {holds : Side → Prop} (steady : Steady holds) :
    Ensures (Watched main identity holds) (observeTree host main) (fun _ => Watched main identity holds) left := by
  unfold observeTree
  refine (succeeds_keeps steady (observeDirect_apart host) observeDirect_keeps).bind fun observed => ?_
  split
  · exact succeeds_keeps steady (waitMain_apart host main) waitMain_ensures
  · exact Ensures.pure fun _ watched => watched

theorem observeRest_keeps (growing : Growing seen) :
    Ensures (Watched main identity (AtWork stdinBytes stdoutCap stderrCap spawned seen closing)) (observeRest host)
      (fun _ => Watched main identity (AtWork stdinBytes stdoutCap stderrCap spawned seen closing)) left := by
  unfold observeRest
  refine (tries_ensures atWork_steady (reapAdopted_apart host) reapAdopted_ensures).bind fun reaped => ?_
  cases reaped with
  | error _ => exact Ensures.pure fun _ watched => watched
  | ok _ =>
    have absence : Ensures (Tended main identity []) (freshAbsence host) (fun _ => Tended main identity []) fun _ => Tended main identity [] :=
      freshAbsence_ensures.of_imp (fun _ => id) (fun _ _ absence => absence.1) fun _ _ => id
    refine (tries_ensures atWork_steady (freshAbsence_apart host) absence).bind fun absent => ?_
    match absent with
    | .ok true =>
      refine (workersFinished_keeps (watched_lasting atWork_steady)).bind fun ready => ?_
      exact Ensures.pure fun _ watched => watched
    | .ok false =>
      refine (insertObserved_ensures _ fun observed already => growing observed _ already).bind fun _ => ?_
      exact Ensures.pure fun _ watched => watched
    | .error _ => exact Ensures.pure fun _ watched => watched

theorem observeReaped_keeps (growing : Growing seen) (waited : Bool) :
    Ensures (Watched main identity (AtWork stdinBytes stdoutCap stderrCap spawned seen closing)) (observeReaped host waited)
      (fun _ => Watched main identity (AtWork stdinBytes stdoutCap stderrCap spawned seen closing)) left := by
  unfold observeReaped
  refine own_ensures.bind fun status => ?_
  split
  · exact (observeRest_keeps growing).of_imp (fun _ begun => begun.1) (fun _ _ => id) fun _ _ => id
  · exact Ensures.pure fun _ begun => begun.1

/-- What a poll decides on the failures that it has seen. -/
def DecidedOn (decision : SupervisionDecision) (expired : Bool) (observed : PrimaryCaptureFailures) : Prop :=
  (∀ failure, decision = .primary failure → observed.selected = some failure) ∧ (expired = true → decision ≠ .continue)

theorem decided_on {observed : PrimaryCaptureFailures} {expired : Bool} (seen : expired = true → observed.contains .timeout = true)
    (cleanupUncertain successReady : Bool) : DecidedOn (selectSupervisionDecision observed cleanupUncertain successReady) expired observed := by
  unfold selectSupervisionDecision
  cases cleanupUncertain with
  | true => exact ⟨nofun, fun _ => nofun⟩
  | false =>
    rw [if_neg Bool.false_ne_true]
    cases chosen : observed.selected with
    | some first =>
      refine ⟨fun failure same => ?_, fun _ => nofun⟩
      cases same
      exact chosen
    | none =>
      have empty := (PrimaryCaptureFailures.selected_eq_none_iff observed).1 chosen
      refine ⟨fun failure same => ?_, fun late => ?_⟩
      · cases successReady <;> cases same
      · cases (empty .timeout).symm.trans (seen late)

theorem supervisionPoll_ensures (expired : Bool) :
    Ensures (Watched main identity (AtWork stdinBytes stdoutCap stderrCap spawned (fun _ => True) closing)) (supervisionPoll host main expired)
      (fun decision => Watched main identity (AtWork stdinBytes stdoutCap stderrCap spawned (DecidedOn decision expired) closing)) left := by
  unfold supervisionPoll
  have growing : Growing fun observed => expired = true → observed.contains .timeout = true :=
    fun failures more seen late => (PrimaryCaptureFailures.contains_union failures more .timeout).2 (.inl (seen late))
  refine (observeTree_keeps atWork_steady).bind fun waited => ?_
  refine (snapshot_keeps (watched_lasting atWork_steady)).bind fun failures => ?_
  have published := @insertObserved_ensures stdinBytes stdoutCap stderrCap main identity ε spawned (fun _ => True) closing left (fun _ => True)
    failures fun _ => id
  refine published.bind fun _ => ?_
  have timed := @insertObserved_ensures stdinBytes stdoutCap stderrCap main identity ε spawned (fun _ => True) closing left
    (fun observed => expired = true → observed.contains .timeout = true) ((PrimaryCaptureFailures.mk 0).insertIf expired .timeout)
    fun observed _ late => (PrimaryCaptureFailures.contains_union observed _ .timeout).2
      (.inr ((PrimaryCaptureFailures.contains_insertIf _ expired .timeout .timeout).2 (.inl ⟨late, rfl⟩)))
  refine timed.bind fun _ => (observeReaped_keeps growing waited).bind fun result => ?_
  obtain ⟨cleanupUncertain, successReady⟩ := result
  refine own_ensures.bind fun primary => ?_
  refine Ensures.pure fun machine ⟨⟨tended, work⟩, same⟩ => ⟨tended, work.seeing fun seen => ?_⟩
  subst same
  exact decided_on seen cleanupUncertain successReady

/-- A failure that was selected when the loop ends. -/
def FailureSeen (result : Option SupervisionFailure) (observed : PrimaryCaptureFailures) : Prop :=
  result = some .primary → ∃ failure, observed.contains failure = true

theorem supervisionLoop_ensures (polls : Nat) :
    Ensures (Watched main identity (AtWork stdinBytes stdoutCap stderrCap spawned (fun _ => True) closing)) (supervisionLoop host main polls)
      (fun result => Watched main identity (AtWork stdinBytes stdoutCap stderrCap spawned (FailureSeen result) closing)) fun _ _ => False := by
  have chosen : ∀ {failure observed}, PrimaryCaptureFailures.selected observed = some failure → FailureSeen (some .primary) observed :=
    fun selected _ => ⟨_, List.find?_some selected⟩
  induction polls with
  | zero =>
    unfold supervisionLoop
    refine (supervisionPoll_ensures true).bind fun decision => ?_
    cases decision with
    | cleanupUncertain => exact Ensures.pure fun _ watched => ⟨watched.1, watched.2.seeing fun _ => nofun⟩
    | primary failure => exact Ensures.pure fun _ watched => ⟨watched.1, watched.2.seeing fun decided => chosen (decided.1 failure rfl)⟩
    | success => exact Ensures.pure fun _ watched => ⟨watched.1, watched.2.seeing fun _ => nofun⟩
    | «continue» => exact Ensures.throw fun _ watched => watched.2.seen.2 rfl rfl
  | succ polls ih =>
    unfold supervisionLoop
    refine (supervisionPoll_ensures false).bind fun decision => ?_
    cases decision with
    | cleanupUncertain => exact Ensures.pure fun _ watched => ⟨watched.1, watched.2.seeing fun _ => nofun⟩
    | primary failure => exact Ensures.pure fun _ watched => ⟨watched.1, watched.2.seeing fun decided => chosen (decided.1 failure rfl)⟩
    | success => exact Ensures.pure fun _ watched => ⟨watched.1, watched.2.seeing fun _ => nofun⟩
    | «continue» => exact ih.of_imp (fun _ watched => ⟨watched.1, watched.2.seeing fun _ => trivial⟩) (fun _ _ => id) fun _ _ => id

end

end

end Legitimacy.ProcessCapture
