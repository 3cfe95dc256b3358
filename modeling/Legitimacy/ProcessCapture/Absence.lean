import Legitimacy.ProcessCapture.Ownership

namespace Legitimacy.ProcessCapture

open Outcomes CodexExec

variable {host : Host} {main identity : Nat}

section

theorem Scene.Sound.releaseMain {scene : Scene} (sound : scene.Sound [main])
    (held : (⟨main, identity, true⟩ : OwnedChild) ∈ scene.owned) (only : ∀ child ∈ scene.owned, child.main = true → child.number = main) :
    scene.mainReaped.Sound [] := by
  refine sound.release (List.filter_sublist (p := fun child : OwnedChild => !child.main)) fun child member => ?_
  rw [List.mem_filter, List.mem_singleton]
  constructor
  · rintro ⟨-, adopted⟩ numbered
    have equal : child = ⟨main, identity, true⟩ := List.inj_on_of_nodup_map sound.keys member held numbered
    rw [equal] at adopted
    cases adopted
  · intro numbered
    refine ⟨member, ?_⟩
    cases flag : child.main with
    | false => rfl
    | true => exact absurd (only child member flag) numbered

/-- The main child was just reaped and is still in the map. -/
structure MainLoose (main identity : Nat) (machine : Machine) : Prop where
  scene : machine.scene.Sound [main]
  held : (⟨main, identity, true⟩ : OwnedChild) ∈ machine.scene.owned
  only : ∀ child ∈ machine.scene.owned, child.main = true → child.number = main
  past : ∀ scene ∈ machine.past, scene.Retains
  hits : ∀ delivery ∈ machine.sent, delivery.Hits

theorem status_stable (status : Option ExitStatus) : Stable fun machine => machine.status = status where
  happen := by
    intro machine move same
    cases move with
    | process move => exact same
    | worker move => exact same
  count := fun _ _ same => same

theorem tryWait_ensures :
    Ensures (fun machine => Tended main identity [] machine ∧ machine.status = none) (tryWait host main)
      (fun observed machine => if observed.isSome then MainLoose main identity machine else Tended main identity [] machine)
      fun _ machine => Tended main identity [] machine := by
  have stable := (tended_stable main identity []).and (status_stable none)
  refine (operation_ensures stable fun machine observed after begun performed => ?_).leaving fun _ _ begun => begun.1
  obtain ⟨tended, unknown⟩ := begun
  have mainHeld := tended.mainHeld
  rw [unknown] at mainHeld
  obtain ⟨held, -, only⟩ := mainHeld
  have child := tended.scene.children _ held List.not_mem_nil
  rw [child.find] at performed
  dsimp only at performed
  unfold reapChild at performed
  split at performed
  · cases performed
  · next process found =>
    split at performed
    · cases performed
    · split at performed
      · cases performed
        exact tended.note
      · next status zombie =>
        cases performed
        have sound := tended.scene.reap held List.not_mem_nil found zombie
        exact ⟨sound, held, only, List.forall_mem_cons.2 ⟨sound.retains, tended.past⟩, tended.hits⟩

theorem waitMain_ensures :
    Ensures (Tended main identity []) (waitMain host main) (fun _ => Tended main identity []) fun _ => Tended main identity [] := by
  unfold waitMain
  refine own_ensures.bind fun status => ?_
  split
  · exact Ensures.pure fun _ begun => begun.1
  · next unknown =>
    have none_ : status = none := Option.not_isSome_iff_eq_none.1 unknown
    subst none_
    refine tryWait_ensures.bind fun observed => ?_
    cases observed with
    | none => exact Ensures.pure fun _ tended => tended
    | some status =>
      refine assign_ensures fun machine loosened => ?_
      have sound := loosened.scene.releaseMain loosened.held loosened.only
      have adopted : ∀ child ∈ machine.scene.mainReaped.owned, child.main = false := by
        intro child member
        have flag := (List.mem_filter.1 member).2
        cases isMain : child.main with
        | false => rfl
        | true =>
          rw [isMain] at flag
          cases flag
      have tended : Tended main identity [] { machine with status := some status, scene := machine.scene.mainReaped } :=
        ⟨sound, adopted, loosened.past, loosened.hits⟩
      exact tended.note

end

section

theorem observeDirect_keeps :
    Ensures (Tended main identity []) (observeDirect host) (fun _ => Tended main identity []) fun _ => Tended main identity [] :=
  observeDirect_ensures.of_imp (fun _ => id) (fun _ _ observed => observed.1) fun _ _ => id

/-- The absence of everyone, as far as a run reports it. -/
def EmptyIf (reported : Prop) (machine : Machine) : Prop := reported → machine.scene.forest.Empty

theorem tryAbsence_ensures {ε : Type} :
    Ensures (Tended main identity []) (outcome (freshAbsence host) : Calls ε _)
      (fun result machine => Tended main identity [] machine ∧ EmptyIf (result = .ok true) machine)
      fun _ machine => Tended main identity [] machine := by
  refine Ensures.outcome (freshAbsence_ensures.of_imp (fun _ => id) (fun absent machine absence => ?_) fun _ machine tended => ?_)
  · exact ⟨absence.1, fun reported => absence.2 (Except.ok.inj reported)⟩
  · exact ⟨tended, nofun⟩

def CleanupProgress.isFinished : CleanupProgress → Prop
  | .finished _ => True
  | .going _ => False

theorem cleanupRound_ensures (signal : Signal) (uncertain : Bool) :
    Ensures (Tended main identity []) (cleanupRound host main signal uncertain)
      (fun progress machine => Tended main identity [] machine ∧ EmptyIf progress.isFinished machine)
      fun _ machine => Tended main identity [] machine := by
  unfold cleanupRound
  refine (succeeds_ensures observeDirect_keeps).bind fun observed => ?_
  refine (succeeds_ensures (signalOwned_ensures signal)).bind fun signalled => ?_
  refine (succeeds_ensures waitMain_ensures).bind fun waited => ?_
  refine (succeeds_ensures reapAdopted_ensures).bind fun reaped => ?_
  refine tryAbsence_ensures.bind fun result => ?_
  match result with
  | .ok true =>
    refine own_ensures.bind fun status => ?_
    refine Ensures.pure fun machine ⟨⟨tended, empty⟩, _⟩ => ⟨tended, fun _ => empty rfl⟩
  | .ok false => exact Ensures.pure fun machine begun => ⟨begun.1, False.elim⟩
  | .error _ => exact Ensures.pure fun machine begun => ⟨begun.1, False.elim⟩

theorem cleanupRounds_ensures (signal : Signal) (rounds : Nat) (uncertain : Bool) :
    Ensures (Tended main identity []) (cleanupRounds host main signal rounds uncertain)
      (fun progress machine => Tended main identity [] machine ∧ EmptyIf progress.isFinished machine)
      fun _ machine => Tended main identity [] machine := by
  induction rounds generalizing uncertain with
  | zero => exact Ensures.pure fun _ tended => ⟨tended, False.elim⟩
  | succ rounds ih =>
    unfold cleanupRounds
    refine (cleanupRound_ensures signal uncertain).bind fun progress => ?_
    cases progress with
    | finished uncertain => exact Ensures.pure fun _ done => done
    | going uncertain => exact (ih uncertain).of_imp (fun _ begun => begun.1) (fun _ _ => id) fun _ _ => id

theorem cleanupPhases_ensures (phases : List (Signal × Nat)) (uncertain : Bool) :
    Ensures (Tended main identity []) (cleanupPhases host main phases uncertain)
      (fun progress machine => Tended main identity [] machine ∧ EmptyIf progress.isFinished machine)
      fun _ machine => Tended main identity [] machine := by
  induction phases generalizing uncertain with
  | nil => exact Ensures.pure fun _ tended => ⟨tended, False.elim⟩
  | cons phase rest ih =>
    obtain ⟨signal, millis⟩ := phase
    unfold cleanupPhases
    refine (cleanupRounds_ensures signal _ uncertain).bind fun progress => ?_
    cases progress with
    | finished uncertain => exact Ensures.pure fun _ done => done
    | going uncertain => exact (ih uncertain).of_imp (fun _ begun => begun.1) (fun _ _ => id) fun _ _ => id

theorem cleanupLast_ensures (uncertain : Bool) :
    Ensures (Tended main identity []) (cleanupLast host main uncertain)
      (fun _ machine => Tended main identity [] machine ∧ machine.scene.forest.Empty) fun _ machine => Tended main identity [] machine := by
  unfold cleanupLast
  refine (succeeds_ensures observeDirect_keeps).bind fun observed => ?_
  refine (succeeds_ensures (signalOwned_ensures .kill)).bind fun signalled => ?_
  refine (succeeds_ensures waitMain_ensures).bind fun waited => ?_
  refine (succeeds_ensures reapAdopted_ensures).bind fun reaped => ?_
  refine tryAbsence_ensures.bind fun result => ?_
  refine own_ensures.bind fun status => ?_
  refine (Ensures.require fun _ begun => begun.1.1).of_imp (fun _ => id) (fun _ machine required => ?_) fun _ _ => id
  obtain ⟨⟨-, -, absent⟩, ⟨tended, empty⟩, -⟩ := required
  refine ⟨tended, empty ?_⟩
  cases result with
  | error _ => cases absent
  | ok value => exact congrArg Except.ok absent

theorem enterCleanup_ensures :
    Ensures (Tended main identity []) enterCleanup (fun _ => Tended main identity []) fun _ => Tended main identity [] := by
  unfold enterCleanup
  refine own_ensures.bind fun status => ?_
  split
  · next known =>
    refine assign_ensures fun machine ⟨tended, same⟩ => ?_
    obtain ⟨value, rfl⟩ := Option.isSome_iff_exists.1 known
    have adopted := tended.mainHeld
    rw [same] at adopted
    have whole : (machine.scene.owned.filter fun child => !child.main) = machine.scene.owned :=
      List.filter_eq_self.2 fun child member => by rw [adopted child member]; rfl
    have unchanged : machine.scene.mainReaped = machine.scene := by
      unfold Scene.mainReaped
      rw [whole]
    rw [unchanged]
    exact tended.note
  · exact Ensures.pure fun _ begun => begun.1

theorem cleanupProcessTree_ensures :
    Ensures (Tended main identity []) (cleanupProcessTree host main)
      (fun _ machine => Tended main identity [] machine ∧ machine.scene.forest.Empty) fun _ machine => Tended main identity [] machine := by
  unfold cleanupProcessTree
  refine enterCleanup_ensures.bind fun _ => ?_
  refine (cleanupPhases_ensures _ false).bind fun progress => ?_
  cases progress with
  | finished uncertain =>
    refine (Ensures.require fun _ done => done.1).of_imp (fun _ => id) (fun _ machine required => ?_) fun _ _ => id
    exact ⟨required.2.1, required.2.2 trivial⟩
  | going uncertain => exact (cleanupLast_ensures uncertain).of_imp (fun _ begun => begun.1) (fun _ _ => id) fun _ _ => id

end

end Legitimacy.ProcessCapture
