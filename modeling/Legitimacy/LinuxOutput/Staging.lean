import Legitimacy.LinuxOutput.Preparation
import Legitimacy.LinuxOutput.Rollback

namespace Legitimacy.LinuxOutput

open Outcomes CodexExec

section

variable {host : Host} {base : FileSystem}

/-- The publications are these outputs, which stand over `base`, with their targets. -/
structure StandsAt (base files : FileSystem) (publications : List CommittedPublication) (all : List (CommittedPublication × List UInt8)) : Prop where
  publications_eq : publications = all.map Prod.fst
  stands : Stands base files all

theorem commitMembers_ensures (inputs : List Snapshot) (pending : List (PreparedPublication × List UInt8))
    (committed : List (CommittedPublication × List UInt8)) (rooted : ∀ entry ∈ pending, Rooted base entry.1) :
    Ensures (fun machine => Stands base machine.files committed) (commitMembers host inputs pending (committed.map Prod.fst))
      (fun publications machine => ∃ all, StandsAt base machine.files publications all ∧
        all.map targetOfCommitted = committed.map targetOfCommitted ++ pending.map targetOf)
      fun failure machine => ∃ all, StandsAt base machine.files failure.committed all ∧
        all.map targetOfCommitted <+: committed.map targetOfCommitted ++ pending.map targetOf := by
  induction pending generalizing committed with
  | nil => exact Ensures.pure fun _ stands => ⟨committed, ⟨rfl, stands⟩, (List.append_nil _).symm⟩
  | cons entry rest ih =>
    obtain ⟨prepared, bytes⟩ := entry
    unfold commitMembers
    have one : Ensures (fun machine => Stands base machine.files committed)
        (outcome (commitWithHooks host prepared bytes inputs (committed.map Prod.fst) (pure ⟨⟩)) : Calls RelativeSetFailure _)
        (fun result machine => match result with
          | .ok publication => Commits base committed prepared bytes publication machine.files
          | .error failure => FailsWith base committed prepared bytes failure machine.files)
        fun failure machine => ∃ all, StandsAt base machine.files failure.committed all ∧
          all.map targetOfCommitted <+: committed.map targetOfCommitted ++ targetOf (prepared, bytes) :: rest.map targetOf :=
      Ensures.outcome (commitWithHooks_ensures (rooted _ List.mem_cons_self) bytes inputs _ (Preserves.pure _))
    refine one.bind fun result => ?_
    match result with
    | .ok publication =>
      refine Ensures.of_start (fun _ commits => commits.target) fun same => ?_
      have others := ih (committed ++ [(publication, bytes)]) fun entry member => rooted entry (List.mem_cons_of_mem _ member)
      rw [List.map_append, List.map_append, List.map_singleton, List.map_singleton, same, List.append_assoc] at others
      exact others.of_imp (fun _ commits => commits.stands) (fun _ _ => id) fun _ _ => id
    | .error (.preLink _) => exact Ensures.throw fun _ stands => ⟨committed, ⟨rfl, stands⟩, List.prefix_append _ _⟩
    | .error (.postLink publication _) =>
      refine Ensures.throw fun machine commits => ⟨committed ++ [(publication, bytes)], ⟨by simp, commits.stands⟩, ?_⟩
      have same := Commits.target commits
      rw [List.map_append, List.map_singleton, same]
      exact ⟨rest.map targetOf, by simp⟩

def Begun (base : FileSystem) (dir : Nat) (members : List (Name × List UInt8)) (publications : List CommittedPublication)
    (files : FileSystem) : Prop :=
  ∃ all, StandsAt base files publications all ∧ all.map targetOfCommitted <+: members.map fun member => (dir, member)

def Complete (base : FileSystem) (dir : Nat) (members : List (Name × List UInt8)) (publications : List CommittedPublication)
    (files : FileSystem) : Prop :=
  ∃ all, StandsAt base files publications all ∧ all.map targetOfCommitted = members.map fun member => (dir, member)

theorem Complete.begun {dir : Nat} {members : List (Name × List UInt8)} {publications : List CommittedPublication} {files : FileSystem}
    (complete : Complete base dir members publications files) : Begun base dir members publications files := by
  obtain ⟨all, stands, targets⟩ := complete
  exact ⟨all, stands, targets ▸ List.prefix_rfl⟩

theorem Begun.nothing (base : FileSystem) (dir : Nat) (members : List (Name × List UInt8)) : Begun base dir members [] base :=
  ⟨[], ⟨rfl, Adds.refl _, nofun⟩, List.nil_prefix⟩

theorem keeps_complete {α : Type} {program : Calls AdapterErrorCode α} (kept : Preserves Machine.files program) (dir : Nat)
    (members : List (Name × List UInt8)) (publications : List CommittedPublication) :
    Ensures (fun machine => Complete base dir members publications machine.files) (orFail (RelativeSetFailure.mk publications) program)
      (fun _ machine => Complete base dir members publications machine.files)
      fun failure machine => Begun base dir members failure.committed machine.files :=
  Ensures.orFail (keeps kept (Complete base dir members publications) fun _ _ complete => complete.begun)

theorem publishRelativeSet_ensures (directory : Descriptor) (members : List (Name × List UInt8)) (inputs : List Snapshot)
    (lateVerifier : Except AdapterErrorCode Unit) :
    Ensures (fun machine => machine.files = base) (publishRelativeSet host directory members inputs lateVerifier)
      (fun publications machine => Complete base directory.inode members publications machine.files)
      fun failure machine => Begun base directory.inode members failure.committed machine.files := by
  have nothing : ∀ machine : Machine, machine.files = base → Begun base directory.inode members [] machine.files := by
    intro machine same
    rw [same]
    exact Begun.nothing base directory.inode members
  unfold publishRelativeSet
  refine ((prepareMembers_shows directory inputs members).leaving fun _ => nothing).orFail.bind_with fun prepared ⟨rooted, targets⟩ => ?_
  refine ((looks (revalidateInputs_preserves host inputs)).leaving fun _ => nothing).orFail.bind fun _ => ?_
  have committing := @commitMembers_ensures host base inputs prepared [] rooted
  rw [List.map_nil, List.map_nil, List.nil_append, targets] at committing
  have started : ∀ machine : Machine, machine.files = base → Stands base machine.files [] := fun machine same => ⟨same ▸ Adds.refl _, nofun⟩
  refine (committing.of_imp started (fun _ _ => id) fun _ _ => id).bind fun committed => ?_
  refine (keeps_complete (checked_preserves lateVerifier) ..).bind fun _ => ?_
  refine (keeps_complete (revalidateInputs_preserves host inputs) ..).bind fun _ => ?_
  refine (keeps_complete (revalidateAll_preserves ..) ..).bind fun _ => ?_
  exact Ensures.pure fun _ complete => complete

end

section

variable {host : Host} {start base : FileSystem} {parent s : Nat} {name : Name}

structure Made (start base : FileSystem) (parent : Nat) (name : Name) (s mode uid : Nat) : Prop where
  adds : Adds start base [⟨parent, name, s⟩]
  node : base.nodes s = some ⟨.directory, mode, uid, 0, 0, [], []⟩

def stagingMode (host : Host) (parentMode : Nat) : Nat := maskedMode host setDirectoryMode ||| parentMode &&& 0o2000

theorem mkdirat_ensures {directory : Descriptor} {node : Node} (there : start.nodes directory.inode = some node) (name : Name) :
    Ensures (fun machine => machine.files = start) (mkdirat host directory name setDirectoryMode)
      (fun _ machine => ∃ s, Made start machine.files directory.inode name s (stagingMode host node.mode) host.euid)
      fun _ machine => machine.files = start := by
  refine @systemCall_ensures _ host _ (· = start)
    (fun _ files => ∃ s, Made start files directory.inode name s (stagingMode host node.mode) host.euid)
    fun call files value changed same performed => ?_
  subst same
  split at performed
  · cases performed
  · next absent =>
    rw [there] at performed
    obtain ⟨-, rfl⟩ := Prod.mk.inj (Except.ok.inj performed)
    have below := lt_next_of_nodes there
    have made : (files.allocate ⟨.directory, stagingMode host node.mode, host.euid, 0, 0, [], []⟩).entries directory.inode =
        files.entries directory.inode := by
      unfold FileSystem.entries
      rw [allocate_nodes, if_neg (by omega)]
    refine ⟨files.next, ?_, ?_⟩
    · refine ((Adds.refl files).allocate _).place there (Nat.le_refl _) (Nat.lt_succ_self _) ?_
      exact made ▸ notMem_of_lookup absent
    · rw [modify_nodes, if_neg (by omega), allocate_nodes, if_pos rfl]
      rfl

theorem createStagingDirectory_ensures {directory : Descriptor} {node : Node} (there : start.nodes directory.inode = some node)
    (attempts : Nat) :
    Ensures (fun machine => machine.files = start) (createStagingDirectory host directory attempts)
      (fun name machine => ∃ s, Made start machine.files directory.inode name s (stagingMode host node.mode) host.euid)
      fun _ machine => machine.files = start := by
  induction attempts with
  | zero => exact Ensures.throw fun _ same => same
  | succ attempts ih =>
    unfold createStagingDirectory
    refine (looks (randomName_preserves ..)).bind fun name => ?_
    refine (mkdirat_ensures there name).tried.bind fun result => ?_
    cases result with
    | ok _ => exact Ensures.pure fun _ made => made
    | error errno =>
      dsimp only
      split
      · exact ih
      · exact Ensures.throw fun _ same => same

end

section

variable {host : Host} {start base files : FileSystem} {parent s mode uid : Nat} {name : Name} {members : List (Name × List UInt8)}
  {publications : List CommittedPublication}

/-- A directory of exactly the members under its name, and nothing else. -/
structure Housed (start files : FileSystem) (parent : Nat) (name : Name) (s : Nat) (members : List (Name × List UInt8)) : Prop where
  adds : Adds start files [⟨parent, name, s⟩]
  directory : ∃ node, files.nodes s = some node ∧ node.kind = .directory
  names : ∀ label, label ∈ (files.entries s).map Prod.fst ↔ label ∈ members.map Prod.fst
  filled : ∀ member ∈ members, ∃ inode, files.lookup s member.1 = some inode ∧ Filled files [(inode, member.2)]

theorem dir_of_target {all : List (CommittedPublication × List UInt8)}
    (targets : all.map targetOfCommitted <+: members.map fun member => (s, member)) : ∀ placement ∈ placements all, placement.dir = s := by
  intro placement member
  obtain ⟨entry, listed, rfl⟩ := List.mem_map.1 (List.mem_reverse.1 member)
  obtain ⟨_, _, same⟩ := List.mem_map.1 (targets.subset (List.mem_map_of_mem listed))
  exact (congrArg Prod.fst same).symm

theorem Begun.outside (made : Made start base parent name s mode uid) (begun : Begun base s members publications files) :
    Adds start files [⟨parent, name, s⟩] := by
  obtain ⟨all, stands, targets⟩ := begun
  have own := (made.adds.new _ List.mem_cons_self).1
  exact made.adds.inside stands.stands.adds fun placement member => (dir_of_target targets placement member) ▸ own

theorem Complete.housed (made : Made start base parent name s mode uid) (complete : Complete base s members publications files) :
    Housed start files parent name s members := by
  have outside := complete.begun.outside made
  obtain ⟨all, ⟨-, adds, filled⟩, targets⟩ := complete
  have entries := adds.entries made.node
  have empty : base.entries s = [] := by
    unfold FileSystem.entries
    rw [made.node]
    rfl
  rw [empty, List.append_nil] at entries
  have ofMember : ∀ member ∈ members, ∃ entry ∈ all, targetOfCommitted entry = (s, member) := by
    intro member listed
    have target : (s, member) ∈ all.map targetOfCommitted := targets ▸ List.mem_map_of_mem listed
    exact List.mem_map.1 target
  have placed : ∀ entry ∈ all, placementOf entry.1 ∈ placements all := fun entry listed => List.mem_reverse.2 (List.mem_map_of_mem listed)
  refine ⟨outside, ⟨_, adds.old s _ made.node, rfl⟩, fun label => ?_, fun member listed => ?_⟩
  · rw [entries]
    constructor
    · intro member
      obtain ⟨entry, listed, rfl⟩ := List.mem_map.1 member
      obtain ⟨source, from_, same⟩ := List.mem_map.1 (List.mem_reverse.1 (mem_namesIn.1 listed))
      have target : targetOfCommitted source ∈ members.map fun member => (s, member) := targets ▸ List.mem_map_of_mem from_
      obtain ⟨member, among, aims⟩ := List.mem_map.1 target
      have label : member.1 = source.1.name := congrArg (fun target => target.2.1) aims
      have named : source.1.name = entry.1 := congrArg Placement.name same
      exact (label.trans named) ▸ List.mem_map_of_mem among
    · intro member
      obtain ⟨wanted, listed, rfl⟩ := List.mem_map.1 member
      obtain ⟨entry, among, aims⟩ := ofMember wanted listed
      have dir : entry.1.parentPath.inode = s := congrArg Prod.fst aims
      have label : entry.1.name = wanted.1 := congrArg (fun target => target.2.1) aims
      have here := placed entry among
      unfold placementOf at here
      rw [dir, label] at here
      have inNames : (wanted.1, entry.1.held.inode) ∈ namesIn (placements all) s := mem_namesIn.2 here
      exact List.mem_map_of_mem (f := Prod.fst) inNames
  · obtain ⟨entry, among, aims⟩ := ofMember member listed
    have dir : entry.1.parentPath.inode = s := congrArg Prod.fst aims
    have label : entry.1.name = member.1 := congrArg (fun target => target.2.1) aims
    have bytes : entry.2 = member.2 := congrArg (fun target => target.2.2) aims
    have here := placed entry among
    unfold placementOf at here
    rw [dir, label] at here
    refine ⟨entry.1.held.inode, adds.lookup_added here, ?_⟩
    rintro file (_ | ⟨_, ⟨⟩⟩)
    exact filled _ (List.mem_map.2 ⟨entry, among, by rw [bytes]⟩)

theorem Housed.rename (housed : Housed start files parent name s members) {fresh : Name} {target : Nat}
    (found : files.lookup parent name = some target) (absent : ¬(files.lookup parent fresh).isSome = true) :
    Housed start
      ((files.modify parent fun node => { node with entries := node.entries.map (renamed name fresh) }).modify target
        fun node => { node with stamp := node.stamp + 1 })
      parent fresh s members := by
  obtain ⟨node, there⟩ := housed.adds.placed _ List.mem_cons_self
  have below := lt_next_of_nodes there
  have own := (housed.adds.new _ List.mem_cons_self).1
  have apart : s ≠ parent := by
    intro same
    subst same
    exact Nat.lt_irrefl _ (Nat.lt_of_lt_of_le below own)
  generalize moved : (files.modify parent fun node => { node with entries := node.entries.map (renamed name fresh) }).modify target
    (fun node => { node with stamp := node.stamp + 1 }) = after
  have entries : after.entries s = files.entries s := by
    subst moved
    refine (entries_modify_of_kept ?_).trans (entries_modify_of_ne apart)
    exact fun _ => rfl
  have filled : ∀ file, Filled files file → Filled after file := by
    intro file holds
    subst moved
    refine Filled.modify_meta (Filled.modify_meta holds ?_) ?_
    · exact fun _ => ⟨rfl, rfl⟩
    · exact fun _ => ⟨rfl, rfl⟩
  refine ⟨?_, ?_, entries ▸ housed.names, fun member listed => ?_⟩
  · subst moved
    have adds := @Adds.rename_split start files (fun node => { node with stamp := node.stamp + 1 }) [] [] ⟨parent, name, s⟩ housed.adds fresh
      target found (notMem_of_lookup absent)
    exact adds
  · subst moved
    refine exists_modify (exists_modify housed.directory ?_) ?_
    · exact fun _ directory => directory
    · exact fun _ directory => directory
  · obtain ⟨inode, found, holds⟩ := housed.filled member listed
    refine ⟨inode, ?_, filled _ holds⟩
    unfold FileSystem.lookup
    rw [entries]
    exact found

theorem renameStaging_ensures {directory : Descriptor} (made : Made start base directory.inode name s mode uid) (finalName : Name)
    (inputs : List Snapshot) :
    Ensures (fun machine => Complete base s members publications machine.files) (renameStaging host directory name finalName inputs)
      (fun _ machine => Housed start machine.files directory.inode finalName s members)
      fun _ machine => Complete base s members publications machine.files := by
  have renames : Ensures (fun machine => Complete base s members publications machine.files) (renameatNoreplace host directory name finalName)
      (fun _ machine => Housed start machine.files directory.inode finalName s members)
      fun _ machine => Complete base s members publications machine.files := by
    refine @systemCall_ensures _ host _ (Complete base s members publications)
      (fun _ files => Housed start files directory.inode finalName s members) fun call files value changed complete performed => ?_
    split at performed
    · cases performed
    · next target found =>
      split at performed
      · cases performed
      · next absent =>
        obtain ⟨-, rfl⟩ := Prod.mk.inj (Except.ok.inj performed)
        exact (complete.housed made).rename found absent
  unfold renameStaging
  refine renames.tried.bind fun result => ?_
  cases result with
  | ok _ => exact Ensures.pure fun _ housed => housed
  | error errno =>
    dsimp only
    split
    · exact (keeps (classifyIncumbent_preserves ..) (Complete base s members publications) fun _ _ complete => complete).bind fun _ =>
        Ensures.throw fun _ complete => complete
    · exact Ensures.throw fun _ complete => complete

theorem finalizeStaging_ensures {directory : Descriptor} (made : Made start base directory.inode name s mode uid) (parentSync staging : Descriptor)
    (finalName : Name) (stagingIdentity : Nat) (inputs : List Snapshot) :
    Ensures (fun machine => Complete base s members publications machine.files)
      (finalizeStaging host directory parentSync finalName name staging stagingIdentity members publications inputs)
      (fun _ machine => Housed start machine.files directory.inode finalName s members)
      fun _ machine => Complete base s members publications machine.files := by
  have looking : ∀ {α : Type} {program : Calls AdapterErrorCode α}, Preserves Machine.files program →
      Ensures (fun machine => Complete base s members publications machine.files) program
        (fun _ machine => Complete base s members publications machine.files)
        fun _ machine => Complete base s members publications machine.files :=
    fun kept => keeps kept (Complete base s members publications) fun _ _ complete => complete
  unfold finalizeStaging
  refine (looking (proveStaging_preserves ..)).bind fun _ => ?_
  refine (looking (observing_preserves ..)).bind fun _ => ?_
  refine (looking (observing_preserves ..)).bind fun _ => ?_
  refine (looking (proveStaging_preserves ..)).bind fun _ => ?_
  refine (looking (proveStaging_preserves ..)).bind fun _ => ?_
  refine (renameStaging_ensures made finalName inputs).bind fun _ => ?_
  refine (keeps_outcome (observe_preserves ..) (Housed start · directory.inode finalName s members)).bind fun _ => ?_
  exact Ensures.pure fun _ housed => housed

theorem zip_of_begun {all : List (CommittedPublication × List UInt8)}
    (targets : all.map targetOfCommitted <+: members.map fun member => (s, member)) :
    (all.map Prod.fst).zip members = all.map fun entry => (entry.1, entry.1.name, entry.2) := by
  induction all generalizing members with
  | nil => rfl
  | cons entry rest ih =>
    cases members with
    | nil => exact absurd (List.prefix_nil.1 targets) nofun
    | cons member others =>
      obtain ⟨first, later⟩ := List.cons_prefix_cons.1 targets
      have same : (entry.1.name, entry.2) = member := congrArg Prod.snd first
      rw [List.map_cons, List.map_cons, List.zip_cons_cons, ih later, same]

theorem placements_cons (entry : CommittedPublication × List UInt8) (rest : List (CommittedPublication × List UInt8)) :
    placements (entry :: rest) = placements rest ++ [placementOf entry.1] := by
  unfold placements
  rw [List.map_cons, List.reverse_cons]

theorem removeMembers_ensures (all : List (CommittedPublication × List UInt8)) :
    Ensures (fun machine => Adds base machine.files (placements all))
      ((all.map fun entry => (entry.1, entry.1.name, entry.2)).forM fun (publication, name, bytes) => removeMember host publication name bytes)
      (fun _ machine => Adds base machine.files []) fun _ _ => True := by
  induction all with
  | nil => exact Ensures.pure fun _ adds => adds
  | cons entry rest ih =>
    rw [List.map_cons, List.forM_eq_forM, List.forM_cons, placements_cons]
    refine (@removeMember_ensures host base (placements rest) [] entry.1 entry.2).bind fun _ => ?_
    rw [List.append_nil]
    exact ih

theorem cleanupStaging_ensures {directory : Descriptor} (made : Made start base directory.inode name s mode uid) (parentSync staging : Descriptor)
    (stagingIdentity : Nat) :
    Ensures (fun machine => Begun base s members publications machine.files)
      (cleanupStaging host directory parentSync name staging stagingIdentity members publications)
      (fun _ machine => Adds start machine.files []) fun code _ => code = .outputRollbackUncertain := by
  unfold cleanupStaging
  refine Ensures.orFail_const ?_
  refine (watches (verifyStagingName_preserves ..) (Begun base s members publications)).bind fun _ => ?_
  refine Ensures.of_exists fun all => ?_
  refine Ensures.of_start (fun _ begun => begun.1.publications_eq) fun same => ?_
  refine Ensures.of_start (fun _ begun => begun.2) fun targets => ?_
  rw [same, zip_of_begun targets]
  refine ((removeMembers_ensures all).of_imp (fun _ begun => begun.1.stands.adds) (fun _ _ => id) fun _ _ => id).bind fun _ => ?_
  refine (watches (verifyEmptyStagingDirectory_preserves ..) (Adds base · [])).bind fun _ => ?_
  refine (watches (verifyStagingName_preserves ..) (Adds base · [])).bind fun _ => ?_
  refine (watches (verifyEmptyStagingDirectory_preserves ..) (Adds base · [])).bind fun _ => ?_
  have removes := @unlinkatDirectory_ensures host start [] [] ⟨directory.inode, name, s⟩ directory rfl
  refine (removes.of_imp (fun _ adds => made.adds.inside adds (List.forall_mem_nil _)) (fun _ _ => id) fun _ _ _ => trivial).orFail.bind fun _ => ?_
  exact watches (observing_preserves ..) (Adds start · [])

end

end Legitimacy.LinuxOutput
