import Legitimacy.LinuxOutput.Commit

namespace Legitimacy.LinuxOutput

open Outcomes CodexExec

theorem watches {α : Type} {program : Calls AdapterErrorCode α} (kept : Preserves Machine.files program) (holds : FileSystem → Prop) :
    Ensures (fun machine => holds machine.files) program (fun _ machine => holds machine.files) fun _ _ => True :=
  keeps kept holds fun _ _ _ => trivial

section

variable {host : Host} {base : FileSystem} {front back : List Placement} {placement : Placement}

theorem renameatNoreplace_ensures {parent : Descriptor} (here : parent.inode = placement.dir) (fresh : Name) :
    Ensures (fun machine => Adds base machine.files (front ++ placement :: back)) (renameatNoreplace host parent placement.name fresh)
      (fun _ machine => Adds base machine.files (front ++ { placement with name := fresh } :: back))
      fun _ machine => Adds base machine.files (front ++ placement :: back) := by
  refine @systemCall_ensures _ host _ (Adds base · (front ++ placement :: back))
    (fun _ files => Adds base files (front ++ { placement with name := fresh } :: back)) fun call files value changed adds performed => ?_
  rw [here] at performed
  split at performed
  · cases performed
  · next target found =>
    split at performed
    · cases performed
    · next absent =>
      obtain ⟨-, rfl⟩ := Prod.mk.inj (Except.ok.inj performed)
      exact adds.rename_split found (notMem_of_lookup absent)

theorem unlinkat_ensures {parent : Descriptor} (here : parent.inode = placement.dir) :
    Ensures (fun machine => Adds base machine.files (front ++ placement :: back)) (unlinkat host parent placement.name)
      (fun _ machine => Adds base machine.files (front ++ back)) fun _ machine => Adds base machine.files (front ++ placement :: back) := by
  refine @systemCall_ensures _ host _ (Adds base · (front ++ placement :: back)) (fun _ files => Adds base files (front ++ back))
    fun call files value changed adds performed => ?_
  rw [here] at performed
  split at performed
  · cases performed
  · next target found =>
    obtain ⟨-, rfl⟩ := Prod.mk.inj (Except.ok.inj performed)
    exact adds.unlink_split_modify found

theorem unlinkatDirectory_ensures {parent : Descriptor} (here : parent.inode = placement.dir) :
    Ensures (fun machine => Adds base machine.files (front ++ placement :: back)) (unlinkatDirectory host parent placement.name)
      (fun _ machine => Adds base machine.files (front ++ back)) fun _ machine => Adds base machine.files (front ++ placement :: back) := by
  refine @systemCall_ensures _ host _ (Adds base · (front ++ placement :: back)) (fun _ files => Adds base files (front ++ back))
    fun call files value changed adds performed => ?_
  rw [here] at performed
  split at performed
  · cases performed
  · split at performed
    · cases performed
    · obtain ⟨-, rfl⟩ := Prod.mk.inj (Except.ok.inj performed)
      exact adds.unlink_split

theorem rollbackCommitted_ensures (publication : CommittedPublication) (bytes : List UInt8) :
    Ensures (fun machine => Adds base machine.files (front ++ placementOf publication :: back)) (rollbackCommitted host publication bytes)
      (fun _ machine => Adds base machine.files (front ++ back)) fun _ _ => True := by
  unfold rollbackCommitted
  refine Ensures.orFail ?_
  refine (watches (observing_preserves ..) (Adds base · _)).bind fun held => ?_
  refine (watches (verifyFinalIdentity_preserves ..) (Adds base · _)).bind fun _ => ?_
  refine (watches (randomName_preserves ..) (Adds base · _)).bind fun quarantine => ?_
  refine ((renameatNoreplace_ensures rfl quarantine).leaving fun _ _ _ => trivial).orFail.bind fun _ => ?_
  refine (watches (verifyFinalIdentity_preserves ..) (Adds base · _)).bind fun _ => ?_
  refine (watches (verifyQuarantinedContent_preserves ..) (Adds base · _)).bind fun _ => ?_
  refine (watches (verifyFinalIdentity_preserves ..) (Adds base · _)).bind fun _ => ?_
  refine (watches (verifyQuarantinedContent_preserves ..) (Adds base · _)).bind fun _ => ?_
  refine ((unlinkat_ensures rfl).leaving fun _ _ _ => trivial).orFail.bind fun _ => ?_
  exact watches (observing_preserves ..) (Adds base · _)

theorem removeMember_ensures (publication : CommittedPublication) (bytes : List UInt8) :
    Ensures (fun machine => Adds base machine.files (front ++ placementOf publication :: back))
      (removeMember host publication publication.name bytes) (fun _ machine => Adds base machine.files (front ++ back))
      fun _ _ => True := by
  unfold removeMember
  refine (watches (revalidateCommitted_preserves ..) (Adds base · _)).bind fun _ => ?_
  refine (watches (randomName_preserves ..) (Adds base · _)).bind fun quarantine => ?_
  refine ((renameatNoreplace_ensures rfl quarantine).leaving fun _ _ _ => trivial).orFail.bind fun _ => ?_
  refine (watches (verifyFinalIdentity_preserves ..) (Adds base · _)).bind fun _ => ?_
  refine (watches (verifyQuarantinedContent_preserves ..) (Adds base · _)).bind fun _ => ?_
  exact ((unlinkat_ensures rfl).leaving fun _ _ _ => trivial).orFail

end

section

variable {host : Host} {base : FileSystem}

theorem rollbackOne_ensures (publication : CommittedPublication) (bytes : List UInt8) (rest : List Placement) (rollbackFailed : Bool) :
    Ensures (fun machine => rollbackFailed = false → Adds base machine.files (placementOf publication :: rest))
      (outcome (rollbackCommitted host publication bytes) : Calls AdapterErrorCode _)
      (Tells (fun _ machine => rollbackFailed = false → Adds base machine.files rest) fun _ _ => True) fun _ _ => False := by
  refine Ensures.tried ?_
  cases rollbackFailed with
  | true => exact Ensures.ended.of_imp (fun _ => id) (fun _ _ _ never => Bool.noConfusion never) fun _ _ => id
  | false =>
    have removed := @rollbackCommitted_ensures host base [] rest publication bytes
    exact removed.of_imp (fun _ adds => adds rfl) (fun _ _ adds _ => adds) fun _ _ => id

theorem rollbackLoop_ensures (pending : List (CommittedPublication × List UInt8)) (rollbackFailed : Bool) :
    Ensures (fun machine => rollbackFailed = false → Adds base machine.files (pending.map fun entry => placementOf entry.1))
      (rollbackLoop host pending rollbackFailed)
      (fun failed machine => failed = false → Adds base machine.files []) fun _ _ => False := by
  induction pending generalizing rollbackFailed with
  | nil => exact Ensures.pure fun _ adds => adds
  | cons entry rest ih =>
    obtain ⟨publication, bytes⟩ := entry
    unfold rollbackLoop
    refine (rollbackOne_ensures publication bytes _ rollbackFailed).bind fun result => ?_
    cases result with
    | ok _ => exact ih rollbackFailed
    | error _ => exact (ih true).of_imp (fun _ _ never => Bool.noConfusion never) (fun _ _ => id) fun _ _ => id

theorem rollbackAfterError_ensures (committed : List (CommittedPublication × List UInt8)) (original : AdapterErrorCode) :
    Ensures (fun machine => Stands base machine.files committed) (rollbackAfterError host committed original)
      (fun _ _ => False) fun code machine => code ≠ .outputRollbackUncertain → Adds base machine.files [] := by
  unfold rollbackAfterError
  have looped := @rollbackLoop_ensures host base committed.reverse false
  have started : ∀ machine : Machine, Stands base machine.files committed →
      false = false → Adds base machine.files (committed.reverse.map fun entry => placementOf entry.1) := by
    intro machine stands _
    rw [List.map_reverse]
    exact stands.adds
  refine Ensures.bind (looped.of_imp started (fun _ _ => id) fun _ _ => False.elim) fun failed => ?_
  refine Ensures.throw fun machine adds => ?_
  cases failed with
  | true => exact fun different => absurd rfl different
  | false => exact fun _ => adds rfl

theorem Commits.target {committed : List (CommittedPublication × List UInt8)} {prepared : PreparedPublication} {bytes : List UInt8}
    {publication : CommittedPublication} {files : FileSystem} (commits : Commits base committed prepared bytes publication files) :
    targetOfCommitted (publication, bytes) = targetOf (prepared, bytes) := by
  unfold targetOfCommitted targetOf
  rw [commits.parent, commits.name]

/-- Either every output stands where it is to be, or nothing is left, unless the rollback is uncertain. -/
theorem commitLoop_ensures (inputs : List Snapshot) (lateVerifier : Except AdapterErrorCode Unit)
    (pending : List (PreparedPublication × List UInt8)) (committed : List (CommittedPublication × List UInt8))
    (rooted : ∀ entry ∈ pending, Rooted base entry.1) :
    Ensures (fun machine => Stands base machine.files committed) (commitLoop host inputs lateVerifier pending committed)
      (fun _ machine => ∃ all, Stands base machine.files all ∧
        all.map targetOfCommitted = committed.map targetOfCommitted ++ pending.map targetOf)
      fun code machine => code ≠ .outputRollbackUncertain → Adds base machine.files [] := by
  induction pending generalizing committed with
  | nil =>
    unfold commitLoop
    have looked : Preserves Machine.files (do
        checked lateVerifier
        revalidateInputs host inputs
        revalidateAll host committed) :=
      (checked_preserves lateVerifier).bind fun _ => (revalidateInputs_preserves host inputs).bind fun _ => revalidateAll_preserves host committed
    refine (keeps_outcome looked (Stands base · committed)).bind fun final => ?_
    cases final with
    | ok _ => exact Ensures.pure fun _ stands => ⟨committed, stands, (List.append_nil _).symm⟩
    | error original => exact (rollbackAfterError_ensures committed original).of_imp (fun _ => id) (fun _ _ => False.elim) fun _ _ => id
  | cons entry rest ih =>
    obtain ⟨prepared, bytes⟩ := entry
    unfold commitLoop
    have guard : Preserves Machine.files (do
        revalidateInputs host inputs
        revalidateAll host committed) :=
      (revalidateInputs_preserves host inputs).bind fun _ => revalidateAll_preserves host committed
    have one : Ensures (fun machine => Stands base machine.files committed)
        (outcome (commitWithHooks host prepared bytes inputs (committed.map Prod.fst) do
          revalidateInputs host inputs
          revalidateAll host committed) : Calls AdapterErrorCode _)
        (fun result machine => match result with
          | .ok publication => Commits base committed prepared bytes publication machine.files
          | .error failure => FailsWith base committed prepared bytes failure machine.files)
        fun code machine => code ≠ .outputRollbackUncertain → Adds base machine.files [] :=
      Ensures.outcome (commitWithHooks_ensures (rooted _ List.mem_cons_self) bytes inputs _ guard)
    refine one.bind fun result => ?_
    match result with
    | .ok publication =>
      refine Ensures.of_start (fun _ commits => commits.target) fun same => ?_
      have others := ih (committed ++ [(publication, bytes)]) fun entry member => rooted entry (List.mem_cons_of_mem _ member)
      refine others.of_imp (fun _ commits => commits.stands) ?_ fun _ _ => id
      rintro _ machine ⟨all, stands, targets⟩
      refine ⟨all, stands, ?_⟩
      rw [targets, List.map_append, List.map_singleton, same, List.append_assoc]
      rfl
    | .error (.preLink original) =>
      exact (rollbackAfterError_ensures committed original).of_imp (fun _ => id) (fun _ _ => False.elim) fun _ _ => id
    | .error (.postLink publication original) =>
      exact (rollbackAfterError_ensures _ original).of_imp (fun _ commits => commits.stands) (fun _ _ => False.elim) fun _ _ => id

end

end Legitimacy.LinuxOutput
