import Legitimacy.ProcessCapture.Capture

namespace Legitimacy.ProcessCapture

open Outcomes CodexExec

variable {stdinBytes : List UInt8} {stdoutCap stderrCap main identity : Nat} {host : Host} {spawned : Prop}
  {seen : PrimaryCaptureFailures → Prop} {closing : Option Closing}

def Machine.Recorded (machine : Machine) (failure : PrimaryCaptureFailure) : Prop :=
  machine.observedPrimary.contains failure = true ∨ machine.workers.failures.failures.contains failure = true

structure Machine.First (machine : Machine) (failure : PrimaryCaptureFailure) : Prop where
  recorded : machine.Recorded failure
  first : ∀ other, machine.Recorded other → failure.index ≤ other.index

theorem PrimaryCaptureFailure.precedence_ascends : PrimaryCaptureFailure.precedence.Pairwise fun failure other => failure.index < other.index := by
  decide

theorem PrimaryCaptureFailures.selected_first {failures : PrimaryCaptureFailures} {failure : PrimaryCaptureFailure}
    (selected : failures.selected = some failure) :
    failures.contains failure = true ∧ ∀ other, failures.contains other = true → failure.index ≤ other.index := by
  obtain ⟨held, earlier, later, split_, none_⟩ := List.find?_eq_some_iff_append.1 selected
  refine ⟨held, fun other holds => ?_⟩
  have ascends := PrimaryCaptureFailure.precedence_ascends
  have listed := PrimaryCaptureFailures.mem_precedence other
  rw [split_] at ascends listed
  rcases List.mem_append.1 listed with before | behind
  · have absent := none_ other before
    rw [holds] at absent
    cases absent
  · rcases List.mem_cons.1 behind with rfl | after
    · exact Nat.le_refl _
    · exact Nat.le_of_lt (List.rel_of_pairwise_cons (List.pairwise_append.1 ascends).2.1 after)

section

theorem emptyIf_lasting (reported : Prop) : Lasting (EmptyIf reported) where
  happen := fun machine move empty holds => (@forest_stable Forest.Empty fun _ move empty => empty.move move).happen machine move (empty holds)
  count := fun _ _ empty => empty
  note := fun _ empty => empty

structure Closed (main identity : Nat) (work : Option Closing → Side → Prop) (closing : Closing) (machine : Machine) : Prop where
  tended : Tended main identity [] machine
  work : work (some closing) machine.side
  empty : EmptyIf (closing.cleaned = true) machine

def AfterClosing (main identity : Nat) (work : Option Closing → Side → Prop) (trigger : Trigger) : Option JoinedWorkers → Machine → Prop
  | some joined, machine => Closed main identity work ⟨trigger, true, true⟩ machine ∧ Joins machine.workers joined
  | none, machine => ∃ cleaned joined, (cleaned && joined) = false ∧ Closed main identity work ⟨trigger, cleaned, joined⟩ machine

def Machine.Reports (machine : Machine) (stop : Stop) : Prop :=
  match machine.closing with
  | none => True
  | some ⟨.primary, true, true⟩ => ∃ failure, machine.First failure ∧ stop = .failed failure.code
  | some ⟨.spawn, true, true⟩ => stop = .failed .captureSpawn
  | some ⟨.uncertain, true, true⟩ => stop = .failed .captureCleanup
  | some _ => stop = .blocked ∨ stop = .failed .captureCleanup

structure Unfinished (main identity : Nat) (stop : Stop) (machine : Machine) : Prop where
  tended : Tended main identity [] machine
  empty : ∀ trigger joined, machine.closing = some ⟨trigger, true, joined⟩ → machine.scene.forest.Empty
  alive : stop ≠ .panicked
  reports : machine.Reports stop

variable {machine : Machine}

theorem Watched.unfinished {stop : Stop} (alive : stop ≠ .panicked)
    (watched : Watched main identity (AtWork stdinBytes stdoutCap stderrCap spawned seen none) machine) : Unfinished main identity stop machine := by
  obtain ⟨tended, work⟩ := watched
  have open_ : machine.closing = none := work.closing
  refine ⟨tended, fun trigger joined same => ?_, alive, ?_⟩
  · cases open_.symm.trans same
  · unfold Machine.Reports
    rw [open_]
    exact trivial

theorem Watched.blocked {stop : Stop}
    (stopped : Watched main identity (AtWork stdinBytes stdoutCap stderrCap spawned seen none) machine ∧ stop = .blocked) :
    Unfinished main identity stop machine := stopped.1.unfinished (stopped.2 ▸ nofun)

theorem Closed.unclean {closed : Closing} {stop : Stop}
    (state : Closed main identity (AtWork stdinBytes stdoutCap stderrCap spawned seen) closed machine) (unclean : (closed.cleaned && closed.joined) = false)
    (stopped : stop = .blocked ∨ stop = .failed .captureCleanup) : Unfinished main identity stop machine := by
  have same : machine.closing = some closed := state.work.closing
  refine ⟨state.tended, fun trigger joined held => ?_, ?_, ?_⟩
  · cases same.symm.trans held
    exact state.empty rfl
  · rcases stopped with rfl | rfl <;> nofun
  · unfold Machine.Reports
    rw [same]
    rcases closed with ⟨trigger, _ | _, _ | _⟩
    · cases trigger <;> exact stopped
    · cases trigger <;> exact stopped
    · cases trigger <;> exact stopped
    · cases unclean

theorem cleanup_tells {ε : Type} {left : ε → Machine → Prop} {holds : Side → Prop} (steady : Steady holds) :
    Ensures (Watched main identity holds) (succeeds (cleanupProcessTree host main))
      (fun cleanup machine => Watched main identity holds machine ∧ EmptyIf (cleanup = true) machine) left := by
  have cleaned : Ensures (Watched main identity holds) (cleanupProcessTree host main)
      (fun _ machine => Watched main identity holds machine ∧ machine.scene.forest.Empty) fun _ => Watched main identity holds :=
    (watched_ensures steady (cleanupProcessTree_apart host main) cleanupProcessTree_ensures).of_imp (fun _ => id)
      (fun _ _ ended => ⟨⟨ended.1.1, ended.2⟩, ended.1.2⟩) fun _ _ => id
  refine (succeeds_tells cleaned).of_imp (fun _ => id) (fun cleanup machine told => ?_) fun _ _ => id
  cases cleanup with
  | true => exact ⟨told.1, fun _ => told.2⟩
  | false => exact ⟨told, nofun⟩

theorem cancelAndJoin_ensures {reported : Prop} :
    Ensures (fun machine => Watched main identity (AtWork stdinBytes stdoutCap stderrCap spawned seen closing) machine ∧ EmptyIf reported machine)
      (cancelAndJoin host)
      (fun joined machine => (Watched main identity (AtWork stdinBytes stdoutCap stderrCap spawned seen closing) machine ∧
        EmptyIf reported machine) ∧ Joins machine.workers joined)
      fun stop machine => (Watched main identity (AtWork stdinBytes stdoutCap stderrCap spawned seen closing) machine ∧
        EmptyIf reported machine) ∧ stop = .blocked := by
  have lasting : Lasting fun machine =>
      Watched main identity (AtWork stdinBytes stdoutCap stderrCap spawned seen closing) machine ∧ EmptyIf reported machine :=
    (watched_lasting atWork_steady).and (emptyIf_lasting _)
  unfold cancelAndJoin
  refine Ensures.bind (act_ensures lasting.toStable fun machine begun => ?_) fun _ => joinWorkers_ensures lasting
  obtain ⟨⟨tended, work⟩, empty⟩ := begun
  have same : Tended main identity [] { machine with workers := { machine.workers with cancel := true } } :=
    ⟨tended.scene, tended.mainHeld, tended.past, tended.hits⟩
  refine ⟨⟨same.note, work.workers.cancel, fun all => ?_, work.seen, work.closing⟩, empty⟩
  exact ⟨(work.spawned all).writer, (work.spawned all).stdout, (work.spawned all).stderr⟩

theorem close_ensures {ε : Type} {left : ε → Machine → Prop} {reported : Prop} (rest : Workers → Prop) (closed : Closing) :
    Ensures (fun machine => (Watched main identity (AtWork stdinBytes stdoutCap stderrCap spawned seen closing) machine ∧
        EmptyIf reported machine) ∧ rest machine.workers)
      (assign fun machine => { machine with closing := some closed })
      (fun _ machine => (Watched main identity (AtWork stdinBytes stdoutCap stderrCap spawned seen (some closed)) machine ∧
        EmptyIf reported machine) ∧ rest machine.workers) left := by
  refine assign_ensures fun machine begun => ?_
  obtain ⟨⟨⟨tended, work⟩, empty⟩, kept⟩ := begun
  have same : Tended main identity [] { machine with closing := some closed } := ⟨tended.scene, tended.mainHeld, tended.past, tended.hits⟩
  exact ⟨⟨⟨same.note, work.workers, work.spawned, work.seen, rfl⟩, empty⟩, kept⟩

theorem cleanupAndJoin_ensures (trigger : Trigger) :
    Ensures (Watched main identity (AtWork stdinBytes stdoutCap stderrCap spawned seen closing)) (cleanupAndJoin host main trigger)
      (AfterClosing main identity (AtWork stdinBytes stdoutCap stderrCap spawned seen) trigger) (Unfinished main identity) := by
  unfold cleanupAndJoin
  refine (cleanup_tells atWork_steady).bind fun cleanup => ?_
  refine ((close_ensures (fun _ => True) ⟨trigger, cleanup, false⟩).of_imp (fun _ begun => ⟨begun, trivial⟩) (fun _ _ closed => closed.1)
    fun _ _ => id).bind fun _ => ?_
  refine (cancelAndJoin_ensures.leaving fun stop machine stopped => ?_).bind fun joined => ?_
  · obtain ⟨⟨⟨tended, work⟩, empty⟩, blocked⟩ := stopped
    exact Closed.unclean ⟨tended, work, empty⟩ (Bool.and_false cleanup) (.inl blocked)
  · refine (close_ensures (fun workers => Joins workers joined) ⟨trigger, cleanup, !joined.joinUncertain⟩).bind fun _ => ?_
    refine Ensures.pure fun machine ended => ?_
    obtain ⟨⟨⟨tended, work⟩, empty⟩, joins⟩ := ended
    cases clean : cleanup && !joined.joinUncertain with
    | false => exact ⟨cleanup, !joined.joinUncertain, clean, tended, work, empty⟩
    | true =>
      obtain ⟨rfl, certain⟩ := Bool.and_eq_true_iff.1 clean
      rw [certain] at work
      exact ⟨⟨tended, work, empty⟩, joins⟩

theorem AfterClosing.unclean {trigger : Trigger}
    (after : AfterClosing main identity (AtWork stdinBytes stdoutCap stderrCap spawned seen) trigger none machine) :
    Unfinished main identity (.failed .captureCleanup) machine := by
  obtain ⟨cleaned, joined, unclean, state⟩ := after
  exact state.unclean unclean (.inr rfl)

theorem cleanupSpawnAndFail_ensures {α : Type} {reached : α → Machine → Prop} :
    Ensures (Watched main identity (AtWork stdinBytes stdoutCap stderrCap spawned seen none)) (cleanupSpawnAndFail host main) reached
      (Unfinished main identity) := by
  unfold cleanupSpawnAndFail
  refine (cleanupAndJoin_ensures .spawn).bind fun result => ?_
  cases result with
  | none => exact Ensures.throw fun _ after => after.unclean
  | some joined =>
    refine Ensures.throw fun machine ⟨closed, _⟩ => ?_
    have same : machine.closing = some ⟨.spawn, true, true⟩ := closed.work.closing
    refine ⟨closed.tended, fun _ _ _ => closed.empty rfl, nofun, ?_⟩
    unfold Machine.Reports
    rw [same]

theorem cleanupUncertainAndFail_ensures {α : Type} {reached : α → Machine → Prop} :
    Ensures (Watched main identity (AtWork stdinBytes stdoutCap stderrCap spawned seen none)) (cleanupUncertainAndFail host main) reached
      (Unfinished main identity) := by
  unfold cleanupUncertainAndFail
  refine (cleanupAndJoin_ensures .uncertain).bind fun result => ?_
  cases result with
  | none => exact Ensures.throw fun _ after => after.unclean
  | some joined =>
    refine Ensures.throw fun machine ⟨closed, _⟩ => ?_
    have same : machine.closing = some ⟨.uncertain, true, true⟩ := closed.work.closing
    refine ⟨closed.tended, fun _ _ _ => closed.empty rfl, nofun, ?_⟩
    unfold Machine.Reports
    rw [same]

theorem first_of_closed (sound : machine.workers.Sound stdinBytes stdoutCap stderrCap) {joined : JoinedWorkers}
    (joins : Joins machine.workers joined) {failure : PrimaryCaptureFailure}
    (selected : (closedFailures machine.observedPrimary machine.workers.failures joined true).selected = some failure) : machine.First failure := by
  obtain ⟨held, first⟩ := PrimaryCaptureFailures.selected_first selected
  exact ⟨(contains_closedFailures sound joins _ failure).1 held,
    fun other recorded => first other ((contains_closedFailures sound joins _ other).2 recorded)⟩

def AtRest (stdinBytes : List UInt8) (stdoutCap stderrCap : Nat) (spawned : Prop) (seen : PrimaryCaptureFailures → Prop)
    (closing : Option Closing) (joined : JoinedWorkers) (facts : WorkerFailureFacts) (side : Side) : Prop :=
  AtWork stdinBytes stdoutCap stderrCap spawned seen closing side ∧ Joins side.1 joined ∧ side.1.failures = facts

theorem atRest_steady (joined : JoinedWorkers) (facts : WorkerFailureFacts) :
    Steady (AtRest stdinBytes stdoutCap stderrCap spawned seen closing joined facts) :=
  fun workers rest move resting =>
    ⟨atWork_steady workers rest move resting.1, joins_steady joined facts workers rest move resting.2⟩

theorem first_selected {joined : JoinedWorkers} {observed : PrimaryCaptureFailures} {facts : WorkerFailureFacts}
    (seen : ∃ failure, observed.contains failure = true)
    (resting : AtRest stdinBytes stdoutCap stderrCap spawned (fun known => known = observed) closing joined facts machine.side) :
    ∃ failure, (closedFailures observed facts joined true).selected = some failure ∧ machine.First failure := by
  obtain ⟨work, joins, same⟩ := resting
  obtain rfl : machine.observedPrimary = observed := work.seen
  obtain rfl : machine.workers.failures = facts := same
  obtain ⟨failure, held⟩ := seen
  cases selected : (closedFailures machine.observedPrimary machine.workers.failures joined true).selected with
  | none =>
    have absent := (PrimaryCaptureFailures.selected_eq_none_iff _).1 selected failure
    cases absent.symm.trans ((contains_closedFailures work.workers joins _ failure).2 (.inl held))
  | some first => exact ⟨first, rfl, first_of_closed work.workers joins selected⟩

theorem cleanupAndFail_ensures {α : Type} {reached : α → Machine → Prop} :
    Ensures (Watched main identity (AtWork stdinBytes stdoutCap stderrCap spawned (FailureSeen (some .primary)) none)) (cleanupAndFail host main)
      reached (Unfinished main identity) := by
  unfold cleanupAndFail
  refine (cleanupAndJoin_ensures .primary).bind fun result => ?_
  cases result with
  | none => exact Ensures.throw fun _ after => after.unclean
  | some joined =>
    refine own_ensures.bind fun observed => ?_
    suffices each : ∀ facts, Ensures (fun machine => (AfterClosing main identity
        (AtWork stdinBytes stdoutCap stderrCap spawned (FailureSeen (some .primary))) .primary (some joined) machine ∧
          machine.observedPrimary = observed) ∧ machine.workers.failures = facts) _ reached (Unfinished main identity) from
      (Ensures.of_exists each).of_imp (fun machine begun => ⟨machine.workers.failures, begun, rfl⟩) (fun _ _ => id) fun _ _ => id
    intro facts
    refine Ensures.of_start (fun machine begun => begun.1.2 ▸ begun.1.1.1.work.seen rfl) fun (seen : ∃ failure, observed.contains failure = true) => ?_
    have lasting : Lasting fun machine => Watched main identity
        (AtRest stdinBytes stdoutCap stderrCap spawned (fun known => known = observed) (some ⟨.primary, true, true⟩) joined facts) machine ∧
          EmptyIf True machine :=
      (watched_lasting (atRest_steady joined facts)).and (emptyIf_lasting True)
    have closing := @closeWorkerFailureObservation_ensures host _ Stop (Unfinished main identity) lasting facts
      (fun _ holding => holding.1.2.2.2) observed joined true
    refine Ensures.bind_with (closing.of_imp (fun machine begun => ?_) (fun _ _ => id) fun _ _ => id) fun closed same => ?_
    · obtain ⟨⟨⟨closed, joins⟩, same⟩, facts⟩ := begun
      exact ⟨⟨closed.tended, closed.work.seeing fun _ => same, joins, facts⟩, fun _ => closed.empty rfl⟩
    · subst same
      cases selected : (closedFailures observed facts joined true).selected with
      | none =>
        refine Ensures.throw fun machine begun => ?_
        obtain ⟨failure, other, -⟩ := first_selected seen begun.1.2
        cases selected.symm.trans other
      | some primary =>
        refine Ensures.throw fun machine begun => ?_
        obtain ⟨failure, other, first⟩ := first_selected seen begun.1.2
        cases selected.symm.trans other
        have closing : machine.closing = some ⟨.primary, true, true⟩ := begun.1.2.1.closing
        refine ⟨begun.1.1, fun _ _ _ => begun.2 trivial, nofun, ?_⟩
        unfold Machine.Reports
        rw [closing]
        exact ⟨primary, first, rfl⟩

end

section

structure Finished (main identity : Nat) (stdinBytes : List UInt8) (stdoutCap stderrCap : Nat) (output : ExecutionOutput) (machine : Machine) :
    Prop where
  tended : Tended main identity [] machine
  empty : machine.scene.forest.Empty
  wrote : WroteAll machine.workers.writer stdinBytes
  stdout : ReadWhole machine.workers.stdout stdoutCap output.stdout
  stderr : ReadWhole machine.workers.stderr stderrCap output.stderr

variable {holds : Side → Prop}

theorem reapAdopted_watched (steady : Steady holds) :
    Ensures (Watched main identity holds) (failWith .captureCleanup (reapAdopted host)) (fun _ => Watched main identity holds)
      fun stop machine => Watched main identity holds machine ∧ stop = .failed .captureCleanup := by
  refine Ensures.orFail ?_
  exact (watched_ensures steady (reapAdopted_apart host) reapAdopted_ensures).leaving fun _ _ watched => ⟨watched, rfl⟩

theorem freshAbsence_watched (steady : Steady holds) :
    Ensures (Watched main identity holds) (failWith .captureCleanup (freshAbsence host))
      (fun absent machine => Watched main identity holds machine ∧ EmptyIf (absent = true) machine)
      fun stop machine => Watched main identity holds machine ∧ stop = .failed .captureCleanup := by
  refine Ensures.orFail ?_
  have found := watched_ensures steady (freshAbsence_apart host) (@freshAbsence_ensures host main identity)
  exact found.of_imp (fun _ => id) (fun _ _ ended => ⟨⟨ended.1.1, ended.2⟩, ended.1.2⟩) fun _ _ watched => ⟨watched, rfl⟩

theorem superviseEnd_ensures :
    Ensures (Watched main identity (AtWork stdinBytes stdoutCap stderrCap True seen none)) (superviseEnd host)
      (Finished main identity stdinBytes stdoutCap stderrCap) (Unfinished main identity) := by
  unfold superviseEnd
  refine ((joinWorkers_ensures (watched_lasting atWork_steady)).leaving fun _ _ => Watched.blocked).bind fun joined => ?_
  refine (Ensures.require fun machine begun => begun.1.unfinished nofun).bind fun _ => ?_
  refine Ensures.of_start (fun machine begun => begun.1) fun certain => ?_
  suffices each : ∀ facts,
      Ensures (Watched main identity (AtRest stdinBytes stdoutCap stderrCap True seen none joined facts)) _ _ (Unfinished main identity) from
    (Ensures.of_exists each).of_imp (fun machine begun => ⟨machine.workers.failures, begun.2.1.1, begun.2.1.2, begun.2.2, rfl⟩) (fun _ _ => id)
      fun _ _ => id
  intro facts
  have steady : Steady (AtRest stdinBytes stdoutCap stderrCap True seen none joined facts) := atRest_steady joined facts
  have open_ : ∀ machine stop, stop ≠ .panicked →
      Watched main identity (AtRest stdinBytes stdoutCap stderrCap True seen none joined facts) machine → Unfinished main identity stop machine :=
    fun machine stop alive watched => Watched.unfinished alive ⟨watched.1, watched.2.1⟩
  have stopped : ∀ stop machine, Watched main identity (AtRest stdinBytes stdoutCap stderrCap True seen none joined facts) machine ∧
      stop = .failed .captureCleanup → Unfinished main identity stop machine :=
    fun stop machine both => open_ machine stop (both.2 ▸ nofun) both.1
  have lasting : Lasting (Watched main identity (AtRest stdinBytes stdoutCap stderrCap True seen none joined facts)) := watched_lasting steady
  have closing := @closeWorkerFailureObservation_ensures host _ Stop (Unfinished main identity) lasting facts
    (fun _ watched => watched.2.2.2) ⟨0⟩ joined false
  refine closing.bind_with fun finalPrimary same => ?_
  subst same
  refine own_ensures.bind fun status => ?_
  cases status with
  | none => exact Ensures.throw fun machine begun => open_ machine _ nofun begun.1
  | some status =>
    refine (((reapAdopted_watched steady).leaving stopped).of_imp (fun _ begun => begun.1) (fun _ _ => id) fun _ _ => id).bind fun _ => ?_
    refine ((freshAbsence_watched steady).leaving stopped).bind fun absent => ?_
    refine Ensures.bind (Ensures.require fun machine begun => ?_) fun _ => ?_
    · exact open_ machine (.failed .captureCleanup) nofun begun.1
    cases selected : (closedFailures ⟨0⟩ facts joined false).selected with
    | some primary => exact Ensures.throw fun machine begun => open_ machine _ nofun begun.2.1
    | none =>
      have whole : ∀ machine, Watched main identity (AtRest stdinBytes stdoutCap stderrCap True seen none joined facts) machine →
          ∃ out err, joined.stdout = some (.complete out) ∧ joined.stderr = some (.complete err) ∧ WroteAll machine.workers.writer stdinBytes ∧
            ReadWhole machine.workers.stdout stdoutCap out ∧ ReadWhole machine.workers.stderr stderrCap err := by
        intro machine ⟨_, work, joins, same⟩
        subst same
        exact whole_of_closed work.workers joins (work.spawned trivial) certain selected
      refine Ensures.of_start (fun machine begun => ?_) fun (ended : ∃ out err, joined.stdout = some (.complete out) ∧
        joined.stderr = some (.complete err)) => ?_
      · obtain ⟨out, err, isOut, isErr, -⟩ := whole machine begun.2.1
        exact ⟨out, err, isOut, isErr⟩
      · obtain ⟨out, err, isOut, isErr⟩ := ended
        rw [isOut, isErr]
        cases told : ObservedTermination.fromStatus status with
        | error code =>
          dsimp only
          exact Ensures.throw fun machine begun => open_ machine _ nofun begun.2.1
        | ok termination =>
          dsimp only
          refine Ensures.pure fun machine begun => ?_
          obtain ⟨out', err', sameOut, sameErr, wrote, readOut, readErr⟩ := whole machine begun.2.1
          cases isOut.symm.trans sameOut
          cases isErr.symm.trans sameErr
          exact ⟨begun.2.1.1, begun.2.2 begun.1, wrote, readOut, readErr⟩

theorem superviseSpawnedChild_ensures :
    Ensures (Watched main identity (AtWork stdinBytes stdoutCap stderrCap False (fun _ => True) none))
      (superviseSpawnedChild host main stdinBytes stdoutCap stderrCap) (Finished main identity stdinBytes stdoutCap stderrCap)
      (Unfinished main identity) := by
  unfold superviseSpawnedChild
  have started : Ensures (Watched main identity (AtWork stdinBytes stdoutCap stderrCap False (fun _ => True) none))
      (outcome (startWorkers host stdinBytes stdoutCap stderrCap) : Calls Stop _)
      (fun result machine => match result with
        | .ok _ => Watched main identity (AtWork stdinBytes stdoutCap stderrCap True (fun _ => True) none) machine
        | .error _ => Watched main identity (AtWork stdinBytes stdoutCap stderrCap False (fun _ => True) none) machine)
      (Unfinished main identity) := Ensures.outcome startWorkers_ensures
  refine started.bind fun result => ?_
  cases result with
  | error _ => exact cleanupSpawnAndFail_ensures
  | ok _ =>
    refine ((supervisionLoop_ensures host.polls).leaving fun _ _ => False.elim).bind fun ended => ?_
    match ended with
    | some .cleanupUncertain => exact cleanupUncertainAndFail_ensures
    | some .primary => exact cleanupAndFail_ensures
    | none => exact superviseEnd_ensures

end

section

variable {forest : Forest}

theorem begin_tended (child : forest.IsChild identity main) : Tended main identity [] (Machine.begin forest main identity) := by
  have retains : (⟨forest, [⟨main, identity, true⟩], [identity]⟩ : Scene).Retains := by
    intro other held process _
    exact ⟨_, List.mem_singleton.2 rfl, (List.mem_singleton.1 held).symm⟩
  refine ⟨⟨fun other listed => ?_, fun other held => ?_, retains, fun other listed _ => ?_, fun _ _ => nofun, List.nodup_singleton _⟩, ?_, ?_, nofun⟩
  · rw [List.mem_singleton.1 listed]
    exact List.mem_singleton.2 rfl
  · rw [List.mem_singleton.1 held]
    exact child.lt_next
  · rw [List.mem_singleton.1 listed]
    exact child
  · refine ⟨List.mem_singleton.2 rfl, List.not_mem_nil, fun other listed _ => ?_⟩
    rw [List.mem_singleton.1 listed]
  · exact List.forall_mem_cons.2 ⟨retains, nofun⟩

theorem begin_watched (child : forest.IsChild identity main) :
    Watched main identity (AtWork stdinBytes stdoutCap stderrCap False (fun _ => True) none) (Machine.begin forest main identity) :=
  ⟨begin_tended child, ⟨nofun, nofun, nofun⟩, False.elim, trivial, rfl⟩

/-- What a run, however it ends, has done to the processes: each of the captured child's descendants was below the supervisor at every moment,
nobody whose pidfd was held was let go while it existed, and signals have only reached descendants that have the number under which they were
found. -/
structure Machine.Guarded (machine : Machine) : Prop where
  below : ∀ scene ∈ machine.scene :: machine.past, ∀ identity process, scene.forest.processes identity = some process →
    process.captured = true → scene.forest.Below identity
  owned : ∀ scene ∈ machine.scene :: machine.past, scene.Retains
  hits : ∀ delivery ∈ machine.sent, delivery.Hits

theorem Tended.guarded {machine : Machine} (tended : Tended main identity [] machine) : machine.Guarded where
  below := fun _ _ _ _ found captured => Forest.below_of_captured found captured
  owned := List.forall_mem_cons.2 ⟨tended.scene.retains, tended.past⟩
  hits := tended.hits

def Forest.single (number : Nat) (life : Life) : Forest where
  processes identity := if identity = 0 then some ⟨number, .supervisor, life, true⟩ else none
  next := 1
  sound := by
    refine ⟨fun identity high => if_neg (by omega), fun first second one other atFirst atSecond _ => ?_, fun identity process found => ?_⟩
    · have left := (Option.ite_none_right_eq_some.1 atFirst).1
      exact left.trans (Option.ite_none_right_eq_some.1 atSecond).1.symm
    · cases (Option.ite_none_right_eq_some.1 found).2
      exact (rfl : true = true)

theorem single_isChild (number : Nat) (life : Life) : (Forest.single number life).IsChild 0 number := ⟨_, rfl, rfl, rfl⟩

/-- A supervisor of a child that has exited already. -/
def besideZombie : Machine := Machine.begin (Forest.single 7 (.zombie (.code 0))) 7 0

/-- Nothing happens on its own, and the first operation fails. -/
def refusing : Host := ⟨fun _ => [], fun call => call = 0, 0, true, true, true⟩

/-- One byte is written and one is read before the child is looked for. -/
def echoing : Host where
  moves call :=
    if call = 9 then
      [.worker (.writer .wouldBlock), .worker (.writer (.written 1)), .worker (.writer .wouldBlock), .worker (.stdout .wouldBlock),
        .worker (.stdout (.read [2])), .worker (.stdout .wouldBlock), .worker (.stdout (.read [])), .worker (.stderr .wouldBlock),
        .worker (.stderr (.read []))]
    else []
  refused _ := false
  polls := 1
  stdinPiped := true
  stdoutPiped := true
  stderrPiped := true

def stopOf : Except Stop ExecutionOutput → Option Stop
  | .ok _ => none
  | .error stop => some stop

/-- The absence proof is sound. -/
theorem absence_proof (child : forest.IsChild identity main) (host : Host) (stdinBytes : List UInt8) (stdoutCap stderrCap : Nat) :
    Tended main identity [] (Machine.begin forest main identity) ∧
    (∀ machine outcome final, Tended main identity [] machine → (cleanupProcessTree host main).on machine = (outcome, final) →
      Tended main identity [] final ∧ final.Guarded ∧ (outcome = .ok ⟨⟩ → final.scene.forest.Empty)) ∧
    ∀ outcome final,
      (superviseSpawnedChild host main stdinBytes stdoutCap stderrCap).on (Machine.begin forest main identity) = (outcome, final) →
        final.Guarded ∧ (∀ output, outcome = .ok output → final.scene.forest.Empty) ∧
          ∀ trigger joined, final.closing = some ⟨trigger, true, joined⟩ → final.scene.forest.Empty := by
  refine ⟨begin_tended child, fun machine outcome final tended run => ?_, fun outcome final run => ?_⟩
  · cases outcome with
    | ok value =>
      have ended := cleanupProcessTree_ensures.ok tended run
      exact ⟨ended.1, ended.1.guarded, fun _ => ended.2⟩
    | error failure =>
      have ended := cleanupProcessTree_ensures.error tended run
      exact ⟨ended, ended.guarded, nofun⟩
  · cases outcome with
    | ok output =>
      have finished := superviseSpawnedChild_ensures.ok (begin_watched child) run
      exact ⟨finished.tended.guarded, fun _ _ => finished.empty, fun _ _ _ => finished.empty⟩
    | error stop =>
      have unfinished := superviseSpawnedChild_ensures.error (begin_watched child) run
      exact ⟨unfinished.tended.guarded, nofun, unfinished.empty⟩

theorem absence_proof_beside_zombie : ((superviseSpawnedChild refusing 7 [] 0 0).on besideZombie).2.scene.forest.Empty := by
  have proof := absence_proof (single_isChild 7 (.zombie (.code 0))) refusing [] 0 0
  obtain ⟨-, -, supervised⟩ := proof
  have closing : ((superviseSpawnedChild refusing 7 [] 0 0).on besideZombie).2.closing = some ⟨.spawn, true, true⟩ := by
    decide +kernel
  rcases run : (superviseSpawnedChild refusing 7 [] 0 0).on besideZombie with ⟨outcome, final⟩
  rw [run] at closing
  exact (supervised outcome final run).2.2 .spawn true closing

/-- A capture is complete, or it reports why not: the first failure that was recorded, if one of these has ended it. -/
theorem capture_complete (child : forest.IsChild identity main) (host : Host) (stdinBytes : List UInt8) (stdoutCap stderrCap : Nat) :
    (∀ output final,
      (superviseSpawnedChild host main stdinBytes stdoutCap stderrCap).on (Machine.begin forest main identity) = (.ok output, final) →
        WroteAll final.workers.writer stdinBytes ∧ ReadWhole final.workers.stdout stdoutCap output.stdout ∧
          ReadWhole final.workers.stderr stderrCap output.stderr ∧ final.scene.forest.Empty) ∧
    ∀ stop final,
      (superviseSpawnedChild host main stdinBytes stdoutCap stderrCap).on (Machine.begin forest main identity) = (.error stop, final) →
        stop ≠ .panicked ∧ final.Reports stop := by
  refine ⟨fun output final run => ?_, fun stop final run => ?_⟩
  · have finished := superviseSpawnedChild_ensures.ok (begin_watched child) run
    exact ⟨finished.wrote, finished.stdout, finished.stderr, finished.empty⟩
  · have unfinished := superviseSpawnedChild_ensures.error (begin_watched child) run
    exact ⟨unfinished.alive, unfinished.reports⟩

theorem capture_complete_echo :
    WroteAll ((superviseSpawnedChild echoing 7 [1] 1 0).on besideZombie).2.workers.writer [1] ∧
      ∃ bytes, ReadWhole ((superviseSpawnedChild echoing 7 [1] 1 0).on besideZombie).2.workers.stdout 1 bytes := by
  have complete := (capture_complete (single_isChild 7 (.zombie (.code 0))) echoing [1] 1 0).1
  have unstopped : stopOf ((superviseSpawnedChild echoing 7 [1] 1 0).on besideZombie).1 = none := by
    decide +kernel
  rcases run : (superviseSpawnedChild echoing 7 [1] 1 0).on besideZombie with ⟨stop | output, final⟩
  · rw [run] at unstopped
    cases unstopped
  · obtain ⟨wrote, stdout, -⟩ := complete output final run
    exact ⟨wrote, output.stdout, stdout⟩

/-- A capture that does not start reports this, though no failure was recorded. -/
theorem refused_start_records_nothing :
    ¬∀ (host : Host) (forest : Forest) (main identity : Nat) (stdinBytes : List UInt8) (stdoutCap stderrCap : Nat) (stop : Stop) (final : Machine),
      forest.IsChild identity main →
        (superviseSpawnedChild host main stdinBytes stdoutCap stderrCap).on (Machine.begin forest main identity) = (.error stop, final) →
          (∃ trigger, final.closing = some ⟨trigger, true, true⟩) → ∃ failure, final.First failure ∧ stop = .failed failure.code := by
  intro claim
  have child := single_isChild 7 (.zombie (.code 0))
  have spawn : stopOf ((superviseSpawnedChild refusing 7 [] 0 0).on besideZombie).1 = some (.failed .captureSpawn) ∧
      ((superviseSpawnedChild refusing 7 [] 0 0).on besideZombie).2.closing = some ⟨.spawn, true, true⟩ := by
    decide +kernel
  rcases run : (superviseSpawnedChild refusing 7 [] 0 0).on besideZombie with ⟨stop | output, final⟩
  · rw [run] at spawn
    obtain ⟨failure, -, reported⟩ := claim refusing _ 7 0 [] 0 0 stop final child run ⟨.spawn, spawn.2⟩
    have code := (Option.some.inj spawn.1).symm.trans reported
    cases failure <;> cases code
  · rw [run] at spawn
    cases spawn.1

end

end Legitimacy.ProcessCapture
