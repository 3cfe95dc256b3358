import Legitimacy.LinuxOutput.Footprint
import Legitimacy.LinuxOutput.OutputSet

namespace Legitimacy.LinuxOutput

open Outcomes CodexExec

variable (host : Host)

theorem observing_preserves {α : Type} (read : Nat → FileSystem → Except Errno α) (code : AdapterErrorCode) :
    Preserves Machine.files (calling code (observe host read)) := (observe_preserves host read).orFail

variable (parent : Descriptor) (committed : CommittedPublication) (held : Descriptor) (name : Name)
  (expected : Nat) (bytes : List UInt8)

theorem checked_preserves {α : Type} (result : Except AdapterErrorCode α) : Preserves Machine.files (checked result) := by
  cases result with
  | ok value => exact Preserves.pure value
  | error code => exact Preserves.throw code

theorem preflightFinal_preserves (inputs : List Snapshot) (guarded : List CommittedPublication) :
    Preserves Machine.files (preflightFinal host parent name inputs guarded) := by
  refine (observe_preserves ..).outcome.bind fun found => ?_
  split
  · exact Preserves.throw _
  · exact Preserves.pure _
  · exact Preserves.throw _

theorem classifyIncumbent_preserves (inputs : List Snapshot) (guarded : List CommittedPublication) :
    Preserves Machine.files (classifyIncumbent host parent name inputs guarded) := by
  refine (observe_preserves ..).outcome.bind fun found => ?_
  split <;> exact Preserves.pure _

theorem verifySyncDirectory_preserves (directory : Descriptor) (expected : Nat) :
    Preserves Machine.files (verifySyncDirectory host directory expected) :=
  (observing_preserves ..).bind fun _ =>
    (observing_preserves ..).bind fun _ =>
      (observing_preserves ..).bind fun _ => Preserves.require _ _

theorem readLoop_preserves (code : AdapterErrorCode) (held : Descriptor) (expected turns : Nat) (bytes : List UInt8) :
    Preserves Machine.files (readLoop host code held expected turns bytes) := by
  induction turns generalizing bytes with
  | zero => exact Preserves.pure _
  | succ turns ih =>
    unfold readLoop
    split
    · exact Preserves.pure _
    · exact (observing_preserves ..).bind fun chunk => (Preserves.require _ _).bind fun _ => ih _

theorem verifyHeld_preserves (expected : HeldExpectation) : Preserves Machine.files (verifyHeld host held expected) :=
  (observing_preserves ..).bind fun _ => (Preserves.require _ _).bind fun _ => (Preserves.require _ _).bind fun _ =>
    (readLoop_preserves ..).bind fun _ => (observing_preserves ..).bind fun _ => (Preserves.require _ _).bind fun _ =>
      (observing_preserves ..).bind fun _ => (Preserves.require _ _).bind fun _ => Preserves.pure _

theorem revalidate_preserves (input : Snapshot) : Preserves Machine.files (Snapshot.revalidate host input) :=
  (observing_preserves ..).bind fun _ => (Preserves.require _ _).bind fun _ => (readLoop_preserves ..).bind fun _ =>
    (observing_preserves ..).bind fun _ => (observing_preserves ..).bind fun _ => Preserves.require _ _

theorem revalidateInputs_preserves (inputs : List Snapshot) : Preserves Machine.files (revalidateInputs host inputs) :=
  Preserves.forM fun input _ => revalidate_preserves host input

theorem verifyFinalIdentity_preserves (metadata : Option Stat) (uid length : Nat) :
    Preserves Machine.files (verifyFinalIdentity host parent name expected metadata uid length) :=
  (observing_preserves ..).bind fun _ => (Preserves.require _ _).bind fun _ => Preserves.require _ _

theorem verifyProcSource_preserves : Preserves Machine.files (verifyProcSource host held expected) := by
  unfold verifyProcSource statProcSource
  exact (observing_preserves ..).bind fun _ => Preserves.require _ _

theorem verifyTemporaryFlags_preserves : Preserves Machine.files (verifyTemporaryFlags host held) :=
  (observing_preserves ..).bind fun _ => (observing_preserves ..).bind fun _ =>
    Preserves.require _ _

theorem verifyIntegrity_preserves :
    Preserves Machine.files (verifyIntegrity host committed bytes) :=
  (verifyHeld_preserves ..).bind fun _ => (Preserves.require _ _).bind fun _ => Preserves.pure _

theorem postlinkChecks_preserves :
    Preserves Machine.files (postlinkChecks host committed bytes) := by
  refine (verifyProcSource_preserves ..).outcome.bind fun source => ?_
  refine (observing_preserves ..).outcome.bind fun sync => ?_
  refine (verifyIntegrity_preserves ..).outcome.bind fun integrity => ?_
  refine Preserves.bind (Preserves.outcome ?_) fun identity => ?_
  · exact (verifyHeld_preserves ..).outcome.bind fun _ => (checked_preserves _).bind fun _ => verifyFinalIdentity_preserves ..
  · exact (Preserves.require _ _).bind fun _ => (Preserves.require _ _).bind fun _ => Preserves.require _ _

theorem revalidateCommitted_preserves :
    Preserves Machine.files (revalidateCommitted host committed bytes) :=
  (verifyIntegrity_preserves ..).outcome.bind fun _ => (verifyFinalIdentity_preserves ..).outcome.bind fun _ =>
    (Preserves.require _ _).bind fun _ => Preserves.require _ _

theorem revalidateAll_preserves (committed : List (CommittedPublication × List UInt8)) :
    Preserves Machine.files (revalidateAll host committed) :=
  Preserves.forM fun _ _ => revalidateCommitted_preserves ..

theorem verifyBeforeLink_preserves {guard : Calls AdapterErrorCode Unit} (kept : Preserves Machine.files guard) (prepared : PreparedPublication)
    (held : Descriptor) (inputs : List Snapshot) (guarded : List CommittedPublication) :
    Preserves Machine.files (verifyBeforeLink host prepared held inputs guarded guard) :=
  (observing_preserves ..).bind fun _ => (observing_preserves ..).bind fun _ =>
    (Preserves.require _ _).bind fun _ => (observing_preserves ..).bind fun _ => (verifyProcSource_preserves ..).bind fun _ =>
      (preflightFinal_preserves ..).bind fun _ => kept.bind fun _ => Preserves.pure _

theorem randomName_preserves (front back : String) : Preserves Machine.files (randomName host front back) :=
  (observing_preserves ..).bind fun _ => (Preserves.require _ _).bind fun _ => Preserves.pure _

theorem verifyQuarantinedContent_preserves (publication : CommittedPublication) (bytes : List UInt8) :
    Preserves Machine.files (verifyQuarantinedContent host publication bytes) :=
  (verifyHeld_preserves ..).bind fun _ => Preserves.pure _

theorem verifyStagingName_preserves :
    Preserves Machine.files (verifyStagingName host parent name expected) :=
  (observing_preserves ..).bind fun _ => Preserves.require _ _

theorem verifyStagingDirectory_preserves (staging : Descriptor) (expected : Nat) (members : List (Name × List UInt8))
    (committed : List CommittedPublication) : Preserves Machine.files (verifyStagingDirectory host staging expected members committed) :=
  (observing_preserves ..).bind fun _ => (Preserves.require _ _).bind fun _ =>
    (observing_preserves ..).bind fun _ => (observing_preserves ..).bind fun _ =>
      (Preserves.require _ _).bind fun _ => Preserves.forM fun _ _ =>
        (observing_preserves ..).bind fun _ => (Preserves.require _ _).bind fun _ => revalidateCommitted_preserves ..

theorem proveStaging_preserves (finalName stagingName : Name) (staging : Descriptor) (stagingIdentity : Nat)
    (members : List (Name × List UInt8)) (committed : List CommittedPublication) (inputs : List Snapshot) :
    Preserves Machine.files (proveStaging host parent finalName stagingName staging stagingIdentity members committed inputs) :=
  (verifyStagingName_preserves ..).bind fun _ => (verifyStagingDirectory_preserves ..).bind fun _ =>
    (revalidateInputs_preserves ..).bind fun _ => preflightFinal_preserves ..

theorem verifyEmptyStagingDirectory_preserves (staging : Descriptor) (expected : Nat) :
    Preserves Machine.files (verifyEmptyStagingDirectory host staging expected) :=
  (observing_preserves ..).bind fun _ => (Preserves.require _ _).bind fun _ =>
    (observing_preserves ..).bind fun _ => (observing_preserves ..).bind fun _ =>
      Preserves.require _ _

end Legitimacy.LinuxOutput

namespace Legitimacy.LinuxOutput

open Outcomes CodexExec

def placementOf (publication : CommittedPublication) : Placement := ⟨publication.parentPath.inode, publication.name, publication.held.inode⟩

/-- The descriptors of a prepared output are those of one directory of `base`. -/
structure Rooted (base : FileSystem) (prepared : PreparedPublication) : Prop where
  same : prepared.parentSync.inode = prepared.parentPath.inode
  there : ∃ node, base.nodes prepared.parentPath.inode = some node

def placements (committed : List (CommittedPublication × List UInt8)) : List Placement :=
  (committed.map fun entry => placementOf entry.1).reverse

def contents (committed : List (CommittedPublication × List UInt8)) : List (Nat × List UInt8) :=
  committed.map fun entry => (entry.1.held.inode, entry.2)

def targetOf (entry : PreparedPublication × List UInt8) : Nat × Name × List UInt8 := (entry.1.parentPath.inode, entry.1.name, entry.2)

def targetOfCommitted (entry : CommittedPublication × List UInt8) : Nat × Name × List UInt8 :=
  (entry.1.parentPath.inode, entry.1.name, entry.2)

/-- The files are those of `base` and the committed outputs. -/
structure Stands (base files : FileSystem) (committed : List (CommittedPublication × List UInt8)) : Prop where
  adds : Adds base files (placements committed)
  filled : Filled files (contents committed)

/-- Besides there is an anonymous file with some bytes. -/
structure Staged (base files : FileSystem) (committed : List (CommittedPublication × List UInt8)) (held : Descriptor) (bytes : List UInt8) :
    Prop where
  stands : Stands base files committed
  own : base.next ≤ held.inode
  apart : ∀ file ∈ contents committed, file.1 ≠ held.inode
  staged : Filled files [(held.inode, bytes)]

/-- A prepared output was committed after the others. -/
structure Commits (base : FileSystem) (committed : List (CommittedPublication × List UInt8)) (prepared : PreparedPublication)
    (bytes : List UInt8) (publication : CommittedPublication) (files : FileSystem) : Prop where
  parent : publication.parentPath = prepared.parentPath
  name : publication.name = prepared.name
  stands : Stands base files (committed ++ [(publication, bytes)])

/-- Before the link the output is not there; after it the failure hands the output over. -/
def FailsWith (base : FileSystem) (committed : List (CommittedPublication × List UInt8)) (prepared : PreparedPublication)
    (bytes : List UInt8) : CommitFailure → FileSystem → Prop
  | .preLink _, files => Stands base files committed
  | .postLink publication _, files => Commits base committed prepared bytes publication files

theorem placements_concat (committed : List (CommittedPublication × List UInt8)) (publication : CommittedPublication) (bytes : List UInt8) :
    placements (committed ++ [(publication, bytes)]) = placementOf publication :: placements committed := by
  simp [placements]

theorem contents_concat (committed : List (CommittedPublication × List UInt8)) (publication : CommittedPublication) (bytes : List UInt8) :
    contents (committed ++ [(publication, bytes)]) = contents committed ++ [(publication.held.inode, bytes)] := by
  simp [contents]

section

variable {host : Host} {base : FileSystem} {committed : List (CommittedPublication × List UInt8)} {held : Descriptor}

theorem openTemporary_ensures (parent : Descriptor) (mode : Nat) :
    Ensures (fun machine => Stands base machine.files committed) (openTemporary host parent mode)
      (fun held machine => Staged base machine.files committed held []) fun _ machine => Stands base machine.files committed := by
  refine @systemCall_ensures _ host _ (Stands base · committed) (fun held files => Staged base files committed held [])
    fun call files value changed stands performed => ?_
  obtain ⟨rfl, rfl⟩ := Prod.mk.inj (Except.ok.inj performed)
  refine ⟨⟨stands.adds.allocate _, stands.filled.allocate _⟩, stands.adds.grown, ?_, ?_⟩
  · intro file member same
    have below := stands.filled.lt_next member
    rw [same] at below
    exact Nat.lt_irrefl _ below
  · rintro file (_ | ⟨_, ⟨⟩⟩)
    exact ⟨_, if_pos rfl, rfl, rfl⟩

theorem Staged.modify {files : FileSystem} {written bytes : List UInt8} (staged : Staged base files committed held written)
    {change : Node → Node} (kept : ∀ node, (change node).kind = node.kind)
    (changed : ∀ node, node.content = written → (change node).content = bytes) :
    Staged base (files.modify held.inode change) committed held bytes := by
  refine ⟨⟨staged.stands.adds.modify_new staged.own, staged.stands.filled.modify_other staged.apart⟩, staged.own, staged.apart, ?_⟩
  rintro file (_ | ⟨_, ⟨⟩⟩)
  obtain ⟨node, found, regular, content⟩ := staged.staged _ List.mem_cons_self
  refine ⟨change node, ?_, (kept node).trans regular, changed node content⟩
  rw [modify_nodes, if_pos rfl, found]
  rfl

theorem write_ensures (written remaining : List UInt8) :
    Ensures (fun machine => Staged base machine.files committed held written) (write host held remaining)
      (fun count machine => Staged base machine.files committed held (written ++ remaining.take count))
      fun _ machine => Staged base machine.files committed held written := by
  refine @systemCall_ensures _ host _ (Staged base · committed held written)
    (fun count files => Staged base files committed held (written ++ remaining.take count)) fun call files value changed staged performed => ?_
  obtain ⟨rfl, rfl⟩ := Prod.mk.inj (Except.ok.inj performed)
  exact staged.modify (fun _ => rfl) fun node content => by rw [content]

theorem writeLoop_ensures (turns : Nat) (written remaining : List UInt8) (enough : remaining.length ≤ turns) :
    Ensures (fun machine => Staged base machine.files committed held written) (writeLoop host held turns remaining)
      (fun _ machine => Staged base machine.files committed held (written ++ remaining))
      fun _ machine => Stands base machine.files committed := by
  induction turns generalizing written remaining with
  | zero =>
    obtain rfl := List.length_eq_zero_iff.1 (Nat.le_zero.1 enough)
    refine Ensures.pure fun machine staged => ?_
    rw [List.append_nil]
    exact staged
  | succ turns ih =>
    unfold writeLoop
    split
    · next none =>
      subst none
      refine Ensures.pure fun machine staged => ?_
      rw [List.append_nil]
      exact staged
    · have one := @write_ensures host base committed held written remaining
      refine Ensures.bind (one.leaving fun _ _ staged => staged.stands).orFail fun count => ?_
      refine Ensures.bind (Ensures.require fun machine staged => staged.stands) fun _ => ?_
      refine Ensures.of_start (fun machine begun => begun.1) fun some => ?_
      have fewer : (remaining.drop count).length ≤ turns := by
        rw [List.length_drop]
        omega
      have rest := ih (written ++ remaining.take count) (remaining.drop count) fewer
      rw [List.append_assoc, List.take_append_drop] at rest
      exact rest.of_imp (fun _ begun => begun.2) (fun _ _ => id) fun _ _ => id

theorem fchmod_ensures (mode : Nat) (bytes : List UInt8) :
    Ensures (fun machine => Staged base machine.files committed held bytes) (fchmod host held mode)
      (fun _ machine => Staged base machine.files committed held bytes) fun _ machine => Staged base machine.files committed held bytes := by
  refine @systemCall_ensures _ host _ (Staged base · committed held bytes) (fun _ files => Staged base files committed held bytes)
    fun call files value changed staged performed => ?_
  obtain ⟨-, rfl⟩ := Prod.mk.inj (Except.ok.inj performed)
  exact staged.modify (fun _ => rfl) fun node content => content

theorem stageTemporary_ensures (prepared : PreparedPublication) (bytes : List UInt8) (inputs : List Snapshot)
    (guarded : List CommittedPublication) :
    Ensures (fun machine => Stands base machine.files committed) (stageTemporary host prepared bytes inputs guarded)
      (fun held machine => Staged base machine.files committed held bytes) fun _ machine => Stands base machine.files committed := by
  unfold stageTemporary
  refine Ensures.bind (keeps (Preserves.require _ _) (Stands base · committed) fun _ _ stands => stands) fun _ => ?_
  refine Ensures.bind (keeps (preflightFinal_preserves ..) (Stands base · committed) fun _ _ stands => stands) fun _ => ?_
  refine Ensures.bind (openTemporary_ensures ..).orFail fun held => ?_
  refine Ensures.bind (keeps (verifyTemporaryFlags_preserves ..) (Staged base · committed held []) fun _ _ staged => staged.stands) fun _ => ?_
  refine Ensures.bind (writeLoop_ensures bytes.length [] bytes (Nat.le_refl _)) fun _ => ?_
  rw [List.nil_append]
  refine Ensures.bind ((fchmod_ensures outputMode bytes).leaving fun _ _ staged => staged.stands).orFail
    fun _ => ?_
  refine Ensures.bind (keeps (verifyHeld_preserves ..) (Staged base · committed held bytes) fun _ _ staged => staged.stands) fun _ => ?_
  refine Ensures.bind (keeps (observe_preserves ..) (Staged base · committed held bytes) fun _ _ staged => staged.stands).orFail fun _ => ?_
  refine Ensures.bind (keeps (observe_preserves ..) (Staged base · committed held bytes) fun _ _ staged => staged.stands).orFail fun _ => ?_
  exact Ensures.pure fun machine staged => staged

theorem linkat_ensures {parent : Descriptor} {name : Name} (there : ∃ node, base.nodes parent.inode = some node) (bytes : List UInt8) :
    Ensures (fun machine => Staged base machine.files committed held bytes) (linkat host held parent name)
      (fun _ machine => ∀ publication, placementOf publication = ⟨parent.inode, name, held.inode⟩ →
        Stands base machine.files (committed ++ [(publication, bytes)]))
      fun _ machine => Staged base machine.files committed held bytes := by
  refine @systemCall_ensures _ host _ (Staged base · committed held bytes)
    (fun _ files => ∀ publication, placementOf publication = ⟨parent.inode, name, held.inode⟩ →
      Stands base files (committed ++ [(publication, bytes)])) fun call files value changed staged performed => ?_
  split at performed
  · cases performed
  · next absent =>
    obtain ⟨-, rfl⟩ := Prod.mk.inj (Except.ok.inj performed)
    intro publication placed
    have linked := @Staged.modify base committed held files bytes bytes staged
      (fun node => { node with links := node.links + 1, stamp := node.stamp + 1 }) (fun _ => rfl) fun _ content => content
    obtain ⟨node, there⟩ := there
    have free := notMem_of_lookup absent
    rw [staged.stands.adds.entries there, ← linked.stands.adds.entries there] at free
    have allocated := linked.staged.lt_next List.mem_cons_self
    have heldSame : publication.held.inode = held.inode := congrArg Placement.inode placed
    refine ⟨?_, ?_⟩
    · rw [placements_concat, placed]
      exact linked.stands.adds.place there linked.own allocated free
    · rw [contents_concat, heldSame]
      intro file member
      have both : Filled (files.modify held.inode fun node => { node with links := node.links + 1, stamp := node.stamp + 1 })
          (contents committed ++ [(held.inode, bytes)]) :=
        fun file member => (List.mem_append.1 member).elim (linked.stands.filled file) (linked.staged file)
      exact @Filled.modify_meta _ _ parent.inode (fun node => { node with entries := (name, held.inode) :: node.entries }) both
        (fun _ => ⟨rfl, rfl⟩) file member

theorem linkTemporary_ensures {prepared : PreparedPublication} (rooted : Rooted base prepared) (bytes : List UInt8) (inputs : List Snapshot)
    (guarded : List CommittedPublication) :
    Ensures (fun machine => Staged base machine.files committed held bytes) (linkTemporary host prepared held inputs guarded)
      (fun _ machine => ∀ publication, placementOf publication = ⟨prepared.parentPath.inode, prepared.name, held.inode⟩ →
        Stands base machine.files (committed ++ [(publication, bytes)]))
      fun _ machine => Stands base machine.files committed := by
  unfold linkTemporary
  have there : ∃ node, base.nodes prepared.parentSync.inode = some node := by
    rw [rooted.same]
    exact rooted.there
  have linked := @linkat_ensures host base committed held prepared.parentSync prepared.name there bytes
  rw [rooted.same] at linked
  refine (linked.leaving fun _ _ staged => staged.stands).tried.bind fun result => ?_
  cases result with
  | ok _ => exact Ensures.pure fun _ stands => stands
  | error errno =>
    dsimp only
    split
    · exact (keeps (classifyIncumbent_preserves ..) (Stands base · committed) fun _ _ stands => stands).bind fun _ =>
        Ensures.throw fun _ stands => stands
    · exact Ensures.throw fun _ stands => stands

theorem commitWithHooks_ensures {prepared : PreparedPublication} (rooted : Rooted base prepared) (bytes : List UInt8) (inputs : List Snapshot)
    (guarded : List CommittedPublication) {guard : Calls AdapterErrorCode Unit} (kept : Preserves Machine.files guard) :
    Ensures (fun machine => Stands base machine.files committed) (commitWithHooks host prepared bytes inputs guarded guard)
      (fun publication machine => Commits base committed prepared bytes publication machine.files)
      fun failure machine => FailsWith base committed prepared bytes failure machine.files := by
  unfold commitWithHooks
  refine Ensures.bind (stageTemporary_ensures prepared bytes inputs guarded).orFail fun held => ?_
  refine Ensures.bind (keeps (verifyBeforeLink_preserves _ kept prepared held inputs guarded) (Staged base · committed held bytes)
    fun _ _ staged => staged.stands).orFail fun identity => ?_
  refine Ensures.bind (linkTemporary_ensures rooted bytes inputs guarded).orFail fun _ => ?_
  refine Ensures.bind (keeps_outcome (observe_preserves ..) (fun files => ∀ publication,
    placementOf publication = ⟨prepared.parentPath.inode, prepared.name, held.inode⟩ →
      Stands base files (committed ++ [(publication, bytes)]))) fun metadata => ?_
  generalize made : CommittedPublication.mk held prepared.parentPath prepared.parentSync prepared.name identity metadata.toOption
    prepared.expectedUid = publication
  have placed : placementOf publication = ⟨prepared.parentPath.inode, prepared.name, held.inode⟩ := by rw [← made]; rfl
  have parent : publication.parentPath = prepared.parentPath := by rw [← made]
  have named : publication.name = prepared.name := by rw [← made]
  have checks : Ensures (fun machine => Commits base committed prepared bytes publication machine.files)
      (orFail (.postLink publication) (postlinkChecks host publication bytes))
      (fun _ machine => Commits base committed prepared bytes publication machine.files)
      fun failure machine => FailsWith base committed prepared bytes failure machine.files :=
    (keeps (postlinkChecks_preserves ..) (Commits base committed prepared bytes publication) fun _ _ commits => commits).orFail
  refine (checks.of_imp (fun _ stands => ⟨parent, named, stands publication placed⟩) (fun _ _ => id) fun _ _ => id).bind fun _ => ?_
  exact Ensures.pure fun _ commits => commits

end

end Legitimacy.LinuxOutput
