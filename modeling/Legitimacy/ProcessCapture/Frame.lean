import Legitimacy.ProcessCapture.Streams

namespace Legitimacy.ProcessCapture

open Outcomes CodexExec

abbrev Side := Workers × PrimaryCaptureFailures × Option Closing

/-- What the operations on processes do not touch. -/
def Machine.side (machine : Machine) : Side := (machine.workers, machine.observedPrimary, machine.closing)

def Steady (holds : Side → Prop) : Prop := ∀ workers rest move, holds (workers, rest) → holds (workers.move move, rest)

/-- A program that leaves such properties alone, however it ends. -/
structure Apart {ε α : Type} (program : Calls ε α) : Prop where
  keeps : ∀ holds : Side → Prop, Steady holds →
    Ensures (fun machine => holds machine.side) program (fun _ machine => holds machine.side) fun _ machine => holds machine.side

theorem steady_stable {holds : Side → Prop} (steady : Steady holds) : Stable fun machine => holds machine.side where
  happen := by
    intro machine move holding
    cases move with
    | process move => exact holding
    | worker move => exact steady machine.workers _ move holding
  count := fun _ _ holding => holding

section

variable {ε ε' α β : Type} {host : Host}

theorem Apart.pure (value : α) : Apart (pure value : Calls ε α) := ⟨fun _ _ => Ensures.pure fun _ holding => holding⟩

theorem Apart.bind {first : Calls ε β} {next : β → Calls ε α} (atFirst : Apart first) (atNext : ∀ value, Apart (next value)) :
    Apart (first >>= next) :=
  ⟨fun holds steady => (atFirst.keeps holds steady).bind fun value => (atNext value).keeps holds steady⟩

theorem Apart.require (condition : Prop) [Decidable condition] (failure : ε) : Apart (require condition failure : Calls ε Unit) :=
  ⟨fun _ _ => (Ensures.require fun _ holding => holding).of_imp (fun _ => id) (fun _ _ required => required.2) fun _ _ => id⟩

theorem Apart.outcome {program : Calls ε α} (apart : Apart program) : Apart (outcome program : Calls ε' _) :=
  ⟨fun holds steady => Ensures.outcome (apart.keeps holds steady)⟩

theorem Apart.own (read : Machine → α) : Apart (own read : Calls ε α) :=
  ⟨fun _ _ => own_ensures.of_imp (fun _ => id) (fun _ _ looked => looked.1) fun _ _ => id⟩

theorem Apart.assign {change : Machine → Machine} (same : ∀ machine, (change machine).side = machine.side) : Apart (assign change : Calls ε Unit) := by
  refine ⟨fun holds _ => assign_ensures fun machine holding => ?_⟩
  show holds (change machine).side
  rw [same]
  exact holding

theorem Apart.operation {perform : Machine → Option (α × Machine)}
    (same : ∀ machine value after, perform machine = some (value, after) → after.side = machine.side) : Apart (operation host perform) := by
  refine ⟨fun holds steady => operation_ensures (steady_stable steady) fun machine value after holding performed => ?_⟩
  show holds after.side
  rw [same machine value after performed]
  exact holding

theorem Apart.succeeds {program : Calls Unit α} (apart : Apart program) : Apart (succeeds program : Calls ε Bool) :=
  apart.outcome.bind fun result => by
    cases result with
    | ok _ => exact Apart.pure _
    | error _ => exact Apart.pure _

end

section

variable (host : Host)

theorem openMissing_apart (numbers : List Nat) : Apart (openMissing host numbers) := by
  induction numbers with
  | nil => exact Apart.pure _
  | cons number rest ih =>
    unfold openMissing
    refine (Apart.own _).bind fun owned => ?_
    split
    · exact ih
    · refine (Apart.operation fun machine pidfd after performed => ?_).bind fun pidfd => ?_
      · obtain ⟨_, _, same⟩ := Option.map_eq_some_iff.1 performed
        cases same
        rfl
      · refine Apart.bind (Apart.assign ?_) fun _ => ih
        exact fun _ => rfl

theorem observeDirect_apart : Apart (observeDirect host) :=
  (Apart.operation fun machine numbers after performed => by cases performed; rfl).bind fun numbers => openMissing_apart host numbers

theorem freshAbsence_apart : Apart (freshAbsence host) := (observeDirect_apart host).bind fun _ => Apart.own _

theorem pidfdSendSignal_apart (child : OwnedChild) (signal : Signal) : Apart (pidfdSendSignal host child signal) := by
  refine Apart.operation fun machine value after performed => ?_
  split at performed
  · cases performed
    rfl
  · cases performed
    rfl

variable (main : Nat) (signal : Signal)

theorem signalLoop_apart (children : List OwnedChild) (uncertain : Bool) : Apart (signalLoop host signal children uncertain) := by
  induction children generalizing uncertain with
  | nil => exact Apart.pure _
  | cons child rest ih =>
    unfold signalLoop
    exact (pidfdSendSignal_apart host child signal).succeeds.bind fun sent => ih _

theorem signalOwned_apart : Apart (signalOwned host signal) :=
  (Apart.own _).bind fun owned => (signalLoop_apart host signal owned false).bind fun _ => Apart.require _ _

theorem reapChild_side {identity : Nat} {machine after : Machine} {status : Option ExitStatus}
    (performed : reapChild identity machine = some (status, after)) : after.side = machine.side := by
  unfold reapChild at performed
  split at performed
  · cases performed
  · split at performed
    · cases performed
    · split at performed
      · cases performed
        rfl
      · cases performed
        rfl

theorem tryWait_apart : Apart (tryWait host main) := by
  refine Apart.operation fun machine status after performed => ?_
  split at performed
  · cases performed
  · exact reapChild_side performed

theorem waitMain_apart : Apart (waitMain host main) := by
  refine (Apart.own _).bind fun status => ?_
  split
  · exact Apart.pure _
  · refine (tryWait_apart host main).bind fun observed => ?_
    split
    · exact Apart.assign fun _ => rfl
    · exact Apart.pure _

theorem reapLoop_apart (children : List OwnedChild) (reaped : List Nat) (uncertain : Bool) : Apart (reapLoop host children reaped uncertain) := by
  induction children generalizing reaped uncertain with
  | nil => exact Apart.pure _
  | cons child rest ih =>
    unfold reapLoop
    split
    · exact ih reaped uncertain
    · have waits : Apart (waitidPidfd host child) := by
        refine Apart.operation fun machine gone after performed => ?_
        obtain ⟨_, reaping, same⟩ := Option.map_eq_some_iff.1 performed
        cases same
        exact reapChild_side reaping
      refine waits.outcome.bind fun result => ?_
      cases result with
      | ok gone => exact ih _ uncertain
      | error _ => exact ih reaped true

theorem reapAdopted_apart : Apart (reapAdopted host) := by
  refine (Apart.own _).bind fun owned => (reapLoop_apart host owned [] false).bind fun result => ?_
  obtain ⟨reaped, uncertain⟩ := result
  refine Apart.bind (Apart.assign ?_) fun _ => Apart.require _ _
  exact fun _ => rfl

theorem cleanupRound_apart (uncertain : Bool) : Apart (cleanupRound host main signal uncertain) := by
  refine (observeDirect_apart host).succeeds.bind fun _ => (signalOwned_apart host signal).succeeds.bind fun _ => ?_
  refine (waitMain_apart host main).succeeds.bind fun _ => (reapAdopted_apart host).succeeds.bind fun _ => ?_
  refine (freshAbsence_apart host).outcome.bind fun result => ?_
  match result with
  | .ok true => exact (Apart.own _).bind fun _ => Apart.pure _
  | .ok false => exact Apart.pure _
  | .error _ => exact Apart.pure _

theorem cleanupRounds_apart (rounds : Nat) (uncertain : Bool) :
    Apart (cleanupRounds host main signal rounds uncertain) := by
  induction rounds generalizing uncertain with
  | zero => exact Apart.pure _
  | succ rounds ih =>
    unfold cleanupRounds
    refine (cleanupRound_apart host main signal uncertain).bind fun progress => ?_
    cases progress with
    | finished uncertain => exact Apart.pure _
    | going uncertain => exact ih uncertain

theorem cleanupPhases_apart (phases : List (Signal × Nat)) (uncertain : Bool) :
    Apart (cleanupPhases host main phases uncertain) := by
  induction phases generalizing uncertain with
  | nil => exact Apart.pure _
  | cons phase rest ih =>
    unfold cleanupPhases
    refine (cleanupRounds_apart host main phase.1 _ uncertain).bind fun progress => ?_
    cases progress with
    | finished uncertain => exact Apart.pure _
    | going uncertain => exact ih uncertain

theorem cleanupLast_apart (uncertain : Bool) : Apart (cleanupLast host main uncertain) := by
  refine (observeDirect_apart host).succeeds.bind fun _ => (signalOwned_apart host .kill).succeeds.bind fun _ => ?_
  refine (waitMain_apart host main).succeeds.bind fun _ => (reapAdopted_apart host).succeeds.bind fun _ => ?_
  exact (freshAbsence_apart host).outcome.bind fun _ => (Apart.own _).bind fun _ => Apart.require _ _

theorem cleanupProcessTree_apart : Apart (cleanupProcessTree host main) := by
  have enters : Apart enterCleanup := by
    refine (Apart.own _).bind fun status => ?_
    split
    · exact Apart.assign fun _ => rfl
    · exact Apart.pure _
  refine enters.bind fun _ => (cleanupPhases_apart host main _ false).bind fun progress => ?_
  cases progress with
  | finished uncertain => exact Apart.require _ _
  | going uncertain => exact cleanupLast_apart host main uncertain

end

end Legitimacy.ProcessCapture
