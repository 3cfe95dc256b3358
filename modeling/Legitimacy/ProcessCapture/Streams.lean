import Legitimacy.ProcessCapture.Ownership

namespace Legitimacy.ProcessCapture

open Outcomes CodexExec

/-- The writer has written the first bytes of its input, all of them if it is complete. A failure is published before it is returned, and a
cancellation follows the flag. -/
structure Writer.Sound (writer : Writer) (cancel failed : Bool) : Prop where
  written : writer.written = writer.input.take writer.offset
  complete : writer.phase = .ended (.returned (.complete ⟨⟩)) → writer.input.length ≤ writer.offset
  failed : writer.phase = .returning ∨ writer.phase = .ended (.returned .failed) → failed = true
  cancelled : writer.phase = .ended (.returned .cancelled) → cancel = true

/-- A reader retains what it has read as long as this fits, and has published an overflow otherwise, or is about to. -/
structure Reader.Sound (reader : Reader) (cancel overflow failed : Bool) : Prop where
  exactly : overflow = true ∨ reader.phase = .overflowing ∨ reader.phase = .ended .panicked ∨ reader.retained = reader.consumed
  capped : reader.retained.length ≤ reader.cap
  complete : ∀ bytes, reader.phase = .ended (.returned (.complete bytes)) → bytes = reader.retained ∧ reader.atEnd = true
  failed : reader.phase = .returning ∨ reader.phase = .ended (.returned .failed) → failed = true
  cancelled : reader.phase = .ended (.returned .cancelled) → cancel = true

theorem Writer.Sound.step {writer : Writer} {cancel failed : Bool} (sound : writer.Sound cancel failed) (result : WriteResult) :
    (writer.step cancel result).1.Sound cancel (failed || (writer.step cancel result).2) := by
  have kept : ∀ phase, (phase = .ended (.returned (.complete ⟨⟩)) → writer.input.length ≤ writer.offset) →
      (phase = .returning ∨ phase = .ended (.returned .failed) → failed = true) → (phase = .ended (.returned .cancelled) → cancel = true) →
      ({ writer with phase := phase } : Writer).Sound cancel (failed || false) := by
    intro phase complete returns cancelled
    rw [Bool.or_false]
    exact ⟨sound.written, complete, returns, cancelled⟩
  unfold Writer.step
  split
  · split
    · split
      · next cancels => exact kept _ nofun (fun either => either.elim nofun nofun) fun _ => cancels
      · exact kept _ nofun (fun either => either.elim nofun nofun) nofun
    · next whole => exact kept _ (fun _ => Nat.le_of_not_lt whole) (fun either => either.elim nofun nofun) nofun
  · cases result with
    | written count =>
      dsimp only
      split
      · exact kept _ nofun (fun either => either.elim nofun nofun) nofun
      · split
        · rw [Bool.or_false]
          refine ⟨?_, nofun, fun either => either.elim nofun nofun, nofun⟩
          show writer.written ++ (writer.input.drop writer.offset).take count = writer.input.take (writer.offset + count)
          rw [sound.written, List.take_add]
        · rw [Bool.or_false]
          exact sound
    | wouldBlock => exact kept _ nofun (fun either => either.elim nofun nofun) nofun
    | interrupted => exact kept _ nofun (fun either => either.elim nofun nofun) nofun
    | error => exact kept _ nofun (fun either => either.elim nofun nofun) nofun
  · rw [Bool.or_true]
    exact ⟨sound.written, nofun, fun _ => rfl, nofun⟩
  · next returning => exact kept _ nofun (fun _ => sound.failed (.inl returning)) nofun
  · rw [Bool.or_false]
    exact sound

theorem Writer.Sound.panic {writer : Writer} {cancel failed : Bool} (sound : writer.Sound cancel failed) : writer.panic.Sound cancel failed := by
  unfold Writer.panic
  split
  · exact sound
  · exact ⟨sound.written, nofun, fun either => either.elim nofun nofun, nofun⟩

/-- The flags of a reader after it has published something. -/
def Published.overflows : Published → Bool
  | .overflow => true
  | _ => false

def Published.fails : Published → Bool
  | .failed => true
  | _ => false

theorem Reader.Sound.firm {reader : Reader} {cancel overflow failed : Bool} (sound : reader.Sound cancel overflow failed)
    (calm : reader.phase ≠ .overflowing) (alive : reader.phase ≠ .ended .panicked) : overflow = true ∨ reader.retained = reader.consumed := by
  rcases sound.exactly with flagged | pending | dead | same
  · exact .inl flagged
  · exact absurd pending calm
  · exact absurd dead alive
  · exact .inr same

/-- Bytes that are read beyond the capacity are dropped, and the overflow is published next. -/
theorem Reader.Sound.read {reader : Reader} {cancel overflow failed : Bool} (sound : reader.Sound cancel overflow failed)
    (reading : reader.phase = .reading) {bytes : List UInt8} (some_ : bytes ≠ []) :
    (reader.step cancel (.read bytes)).1.Sound cancel (overflow || (reader.step cancel (.read bytes)).2.overflows)
      (failed || (reader.step cancel (.read bytes)).2.fails) := by
  have firm := sound.firm (by rw [reading]; nofun) (by rw [reading]; nofun)
  have room : (reader.retained ++ bytes.take (min bytes.length (reader.cap - reader.retained.length))).length ≤ reader.cap := by
    have capped := sound.capped
    rw [List.length_append, List.length_take]
    omega
  unfold Reader.step
  rw [reading]
  dsimp only
  rw [if_neg some_]
  split
  · split
    · simp only [Published.overflows, Published.fails, Bool.or_false]
      exact ⟨.inr (.inl rfl), room, nofun, fun either => either.elim nofun nofun, nofun⟩
    · next fits =>
      simp only [Published.overflows, Published.fails, Bool.or_false]
      refine ⟨?_, room, nofun, fun either => either.elim nofun nofun, nofun⟩
      rcases firm with flagged | same
      · exact .inl flagged
      · refine .inr (.inr (.inr ?_))
        show reader.retained ++ bytes.take (min bytes.length (reader.cap - reader.retained.length)) = reader.consumed ++ bytes
        rw [same, List.take_of_length_le (by rw [← same]; omega)]
  · simp only [Published.overflows, Published.fails, Bool.or_false]
    exact sound

theorem Reader.Sound.step {reader : Reader} {cancel overflow failed : Bool} (sound : reader.Sound cancel overflow failed) (result : ReadResult) :
    (reader.step cancel result).1.Sound cancel (overflow || (reader.step cancel result).2.overflows)
      (failed || (reader.step cancel result).2.fails) := by
  have kept : ∀ phase, reader.phase ≠ .overflowing → reader.phase ≠ .ended .panicked →
      (∀ bytes, phase ≠ .ended (.returned (.complete bytes))) →
      (phase = .returning ∨ phase = .ended (.returned .failed) → failed = true) → (phase = .ended (.returned .cancelled) → cancel = true) →
      ({ reader with phase := phase } : Reader).Sound cancel (overflow || Published.nothing.overflows) (failed || Published.nothing.fails) := by
    intro phase calm alive incomplete returns cancelled
    simp only [Published.overflows, Published.fails, Bool.or_false]
    refine ⟨?_, sound.capped, fun bytes complete => absurd complete (incomplete bytes), returns, cancelled⟩
    exact (sound.firm calm alive).imp id fun same => .inr (.inr same)
  cases phase : reader.phase with
  | head =>
    unfold Reader.step
    rw [phase]
    dsimp only
    split
    · next cancels =>
      exact kept _ (by rw [phase]; nofun) (by rw [phase]; nofun) (fun _ => nofun) (fun either => either.elim nofun nofun) fun _ => cancels
    · exact kept _ (by rw [phase]; nofun) (by rw [phase]; nofun) (fun _ => nofun) (fun either => either.elim nofun nofun) nofun
  | reading =>
    cases result with
    | read bytes =>
      by_cases none_ : bytes = []
      · unfold Reader.step
        rw [phase]
        dsimp only
        rw [if_pos none_]
        simp only [Published.overflows, Published.fails, Bool.or_false]
        have firm := sound.firm (by rw [phase]; nofun) (by rw [phase]; nofun)
        refine ⟨firm.imp id fun same => .inr (.inr same), sound.capped, ?_, fun either => either.elim nofun nofun, nofun⟩
        intro bytes complete
        cases complete
        exact ⟨rfl, rfl⟩
      · exact sound.read phase none_
    | wouldBlock | interrupted | error =>
      unfold Reader.step
      rw [phase]
      exact kept _ (by rw [phase]; nofun) (by rw [phase]; nofun) (fun _ => nofun) (fun either => either.elim nofun nofun) nofun
  | overflowing =>
    unfold Reader.step
    rw [phase]
    simp only [Published.overflows, Published.fails, Bool.or_false, Bool.or_true]
    exact ⟨.inl rfl, sound.capped, nofun, fun either => either.elim nofun nofun, nofun⟩
  | storing =>
    unfold Reader.step
    rw [phase]
    simp only [Published.overflows, Published.fails, Bool.or_false, Bool.or_true]
    refine ⟨?_, sound.capped, nofun, fun _ => rfl, nofun⟩
    exact (sound.firm (by rw [phase]; nofun) (by rw [phase]; nofun)).imp id fun same => .inr (.inr same)
  | returning =>
    unfold Reader.step
    rw [phase]
    exact kept _ (by rw [phase]; nofun) (by rw [phase]; nofun) (fun _ => nofun) (fun _ => sound.failed (.inl phase)) nofun
  | ended how =>
    unfold Reader.step
    rw [phase]
    simp only [Published.overflows, Published.fails, Bool.or_false]
    exact sound

theorem Reader.Sound.panic {reader : Reader} {cancel overflow failed : Bool} (sound : reader.Sound cancel overflow failed) :
    reader.panic.Sound cancel overflow failed := by
  unfold Reader.panic
  split
  · exact sound
  · exact ⟨.inr (.inr (.inl rfl)), sound.capped, nofun, fun either => either.elim nofun nofun, nofun⟩

/-- The three workers, of which each has its own input or capacity. -/
structure Workers.Sound (stdinBytes : List UInt8) (stdoutCap stderrCap : Nat) (workers : Workers) : Prop where
  writer : ∀ writer, workers.writer = some writer → writer.input = stdinBytes ∧ writer.Sound workers.cancel workers.failures.writerFailed
  stdout : ∀ reader, workers.stdout = some reader →
    reader.cap = stdoutCap ∧ reader.Sound workers.cancel workers.failures.stdoutOverflow workers.failures.stdoutFailed
  stderr : ∀ reader, workers.stderr = some reader →
    reader.cap = stderrCap ∧ reader.Sound workers.cancel workers.failures.stderrOverflow workers.failures.stderrFailed

theorem Writer.step_input (writer : Writer) (cancel : Bool) (result : WriteResult) : (writer.step cancel result).1.input = writer.input := by
  unfold Writer.step
  split
  · split
    · split <;> rfl
    · rfl
  · cases result with
    | written count =>
      dsimp only
      split
      · rfl
      · split <;> rfl
    | wouldBlock | interrupted | error => rfl
  · rfl
  · rfl
  · rfl

theorem Reader.step_cap (reader : Reader) (cancel : Bool) (result : ReadResult) : (reader.step cancel result).1.cap = reader.cap := by
  unfold Reader.step
  split
  · split <;> rfl
  · cases result with
    | read bytes =>
      dsimp only
      split
      · rfl
      · split
        · split <;> rfl
        · rfl
    | wouldBlock | interrupted | error => rfl
  · rfl
  · rfl
  · rfl
  · rfl

theorem Writer.panic_input (writer : Writer) : writer.panic.input = writer.input := by
  unfold Writer.panic
  split <;> rfl

theorem Reader.panic_cap (reader : Reader) : reader.panic.cap = reader.cap := by
  unfold Reader.panic
  split <;> rfl

variable {stdinBytes : List UInt8} {stdoutCap stderrCap : Nat} {workers : Workers}

theorem Workers.Sound.move (sound : workers.Sound stdinBytes stdoutCap stderrCap) (move : WorkerMove) :
    (workers.move move).Sound stdinBytes stdoutCap stderrCap := by
  cases move with
  | writer result =>
    unfold Workers.move
    cases spawned : workers.writer with
    | none => exact sound
    | some writer =>
      obtain ⟨input, writes⟩ := sound.writer writer spawned
      refine ⟨?_, sound.stdout, sound.stderr⟩
      rintro _ ⟨⟩
      exact ⟨(Writer.step_input ..).trans input, writes.step result⟩
  | stdout result =>
    unfold Workers.move
    cases spawned : workers.stdout with
    | none => exact sound
    | some reader =>
      obtain ⟨cap, reads⟩ := sound.stdout reader spawned
      have after := reads.step result
      dsimp only
      cases published : (reader.step workers.cancel result).2 with
      | nothing | overflow | failed =>
        rw [published] at after
        simp only [Published.overflows, Published.fails, Bool.or_false, Bool.or_true] at after
        refine ⟨sound.writer, ?_, sound.stderr⟩
        rintro _ ⟨⟩
        exact ⟨(Reader.step_cap ..).trans cap, after⟩
  | stderr result =>
    unfold Workers.move
    cases spawned : workers.stderr with
    | none => exact sound
    | some reader =>
      obtain ⟨cap, reads⟩ := sound.stderr reader spawned
      have after := reads.step result
      dsimp only
      cases published : (reader.step workers.cancel result).2 with
      | nothing | overflow | failed =>
        rw [published] at after
        simp only [Published.overflows, Published.fails, Bool.or_false, Bool.or_true] at after
        refine ⟨sound.writer, sound.stdout, ?_⟩
        rintro _ ⟨⟩
        exact ⟨(Reader.step_cap ..).trans cap, after⟩
  | writerPanics =>
    refine ⟨fun writer after => ?_, sound.stdout, sound.stderr⟩
    obtain ⟨before, spawned, rfl⟩ := Option.map_eq_some_iff.1 after
    obtain ⟨input, writes⟩ := sound.writer before spawned
    exact ⟨before.panic_input.trans input, writes.panic⟩
  | stdoutPanics =>
    refine ⟨sound.writer, fun reader after => ?_, sound.stderr⟩
    obtain ⟨before, spawned, rfl⟩ := Option.map_eq_some_iff.1 after
    obtain ⟨cap, reads⟩ := sound.stdout before spawned
    exact ⟨before.panic_cap.trans cap, reads.panic⟩
  | stderrPanics =>
    refine ⟨sound.writer, sound.stdout, fun reader after => ?_⟩
    obtain ⟨before, spawned, rfl⟩ := Option.map_eq_some_iff.1 after
    obtain ⟨cap, reads⟩ := sound.stderr before spawned
    exact ⟨before.panic_cap.trans cap, reads.panic⟩

theorem Workers.Sound.cancel (sound : workers.Sound stdinBytes stdoutCap stderrCap) :
    ({ workers with cancel := true } : Workers).Sound stdinBytes stdoutCap stderrCap where
  writer := fun writer spawned =>
    have ⟨input, writes⟩ := sound.writer writer spawned
    ⟨input, writes.written, writes.complete, writes.failed, fun _ => rfl⟩
  stdout := fun reader spawned =>
    have ⟨cap, reads⟩ := sound.stdout reader spawned
    ⟨cap, reads.exactly, reads.capped, reads.complete, reads.failed, fun _ => rfl⟩
  stderr := fun reader spawned =>
    have ⟨cap, reads⟩ := sound.stderr reader spawned
    ⟨cap, reads.exactly, reads.capped, reads.complete, reads.failed, fun _ => rfl⟩

section

/-- A worker has ended, or was not spawned. -/
def WriterDone (writer : Option Writer) : Prop := ∀ running, writer = some running → ∃ how, running.phase = .ended how

def ReaderDone (reader : Option Reader) : Prop := ∀ running, reader = some running → ∃ how, running.phase = .ended how

theorem Writer.step_ended {writer : Writer} {how : Ended Unit} (ended : writer.phase = .ended how) (cancel : Bool) (result : WriteResult) :
    writer.step cancel result = (writer, false) := by
  unfold Writer.step
  rw [ended]

theorem Reader.step_ended {reader : Reader} {how : Ended (List UInt8)} (ended : reader.phase = .ended how) (cancel : Bool) (result : ReadResult) :
    reader.step cancel result = (reader, .nothing) := by
  unfold Reader.step
  rw [ended]

theorem Writer.panic_ended {writer : Writer} {how : Ended Unit} (ended : writer.phase = .ended how) : writer.panic = writer := by
  unfold Writer.panic
  rw [ended]

theorem Reader.panic_ended {reader : Reader} {how : Ended (List UInt8)} (ended : reader.phase = .ended how) : reader.panic = reader := by
  unfold Reader.panic
  rw [ended]

theorem move_writer_done (done : WriterDone workers.writer) (move : WorkerMove) : (workers.move move).writer = workers.writer := by
  cases move with
  | writer result =>
    unfold Workers.move
    cases spawned : workers.writer with
    | none => exact spawned
    | some writer =>
      obtain ⟨how, ended⟩ := done writer spawned
      dsimp only
      rw [Writer.step_ended ended]
  | stdout result =>
    unfold Workers.move
    cases workers.stdout <;> rfl
  | stderr result =>
    unfold Workers.move
    cases workers.stderr <;> rfl
  | writerPanics =>
    show workers.writer.map Writer.panic = workers.writer
    cases spawned : workers.writer with
    | none => rfl
    | some writer =>
      obtain ⟨how, ended⟩ := done writer spawned
      exact congrArg some (Writer.panic_ended ended)
  | stdoutPanics => rfl
  | stderrPanics => rfl

theorem move_stdout_done (done : ReaderDone workers.stdout) (move : WorkerMove) : (workers.move move).stdout = workers.stdout := by
  cases move with
  | writer result =>
    unfold Workers.move
    cases workers.writer <;> rfl
  | stdout result =>
    unfold Workers.move
    cases spawned : workers.stdout with
    | none => exact spawned
    | some reader =>
      obtain ⟨how, ended⟩ := done reader spawned
      dsimp only
      rw [Reader.step_ended ended]
  | stderr result =>
    unfold Workers.move
    cases workers.stderr <;> rfl
  | writerPanics => rfl
  | stdoutPanics =>
    show workers.stdout.map Reader.panic = workers.stdout
    cases spawned : workers.stdout with
    | none => rfl
    | some reader =>
      obtain ⟨how, ended⟩ := done reader spawned
      exact congrArg some (Reader.panic_ended ended)
  | stderrPanics => rfl

theorem move_stderr_done (done : ReaderDone workers.stderr) (move : WorkerMove) : (workers.move move).stderr = workers.stderr := by
  cases move with
  | writer result =>
    unfold Workers.move
    cases workers.writer <;> rfl
  | stdout result =>
    unfold Workers.move
    cases workers.stdout <;> rfl
  | stderr result =>
    unfold Workers.move
    cases spawned : workers.stderr with
    | none => exact spawned
    | some reader =>
      obtain ⟨how, ended⟩ := done reader spawned
      dsimp only
      rw [Reader.step_ended ended]
  | writerPanics => rfl
  | stdoutPanics => rfl
  | stderrPanics =>
    show workers.stderr.map Reader.panic = workers.stderr
    cases spawned : workers.stderr with
    | none => rfl
    | some reader =>
      obtain ⟨how, ended⟩ := done reader spawned
      exact congrArg some (Reader.panic_ended ended)

/-- When all workers have ended, no flag changes any more. -/
theorem move_failures_done (writer : WriterDone workers.writer) (stdout : ReaderDone workers.stdout) (stderr : ReaderDone workers.stderr)
    (move : WorkerMove) : (workers.move move).failures = workers.failures := by
  cases move with
  | writer result =>
    unfold Workers.move
    cases spawned : workers.writer with
    | none => rfl
    | some running =>
      obtain ⟨how, ended⟩ := writer running spawned
      dsimp only
      rw [Writer.step_ended ended, Bool.or_false]
  | stdout result =>
    unfold Workers.move
    cases spawned : workers.stdout with
    | none => rfl
    | some running =>
      obtain ⟨how, ended⟩ := stdout running spawned
      dsimp only
      rw [Reader.step_ended ended]
  | stderr result =>
    unfold Workers.move
    cases spawned : workers.stderr with
    | none => rfl
    | some running =>
      obtain ⟨how, ended⟩ := stderr running spawned
      dsimp only
      rw [Reader.step_ended ended]
  | writerPanics => rfl
  | stdoutPanics => rfl
  | stderrPanics => rfl

end

end Legitimacy.ProcessCapture
