import Legitimacy.LinuxOutput.Commit

namespace Legitimacy.LinuxOutput

open Outcomes CodexExec

def resolve (files : FileSystem) : Nat → List Name → Option Nat
  | dir, [] => some dir
  | dir, component :: rest =>
    match files.lookup dir component with
    | none => none
    | some inode =>
      match files.nodes inode with
      | none => none
      | some node => if node.kind = .directory then resolve files inode rest else none

def startOf (host : Host) (absolute : Bool) : Nat := if absolute then host.root else host.cwd

def locate (host : Host) (files : FileSystem) (output : List UInt8) : Option (Nat × Name) :=
  match parseOutputPath output with
  | .error _ => none
  | .ok parsed => (resolve files (startOf host parsed.absolute) parsed.ancestors).map fun dir => (dir, parsed.finalName)

section

variable {base files : FileSystem} {added : List Placement}

theorem nodes_of_lookup {dir target : Nat} {name : Name} (found : base.lookup dir name = some target) :
    ∃ node, base.nodes dir = some node := by
  cases there : base.nodes dir with
  | some node => exact ⟨node, rfl⟩
  | none =>
    unfold FileSystem.lookup FileSystem.entries at found
    rw [there] at found
    cases found

theorem Adds.lookup_old (adds : Adds base files added) {dir target : Nat} {name : Name} (found : base.lookup dir name = some target) :
    files.lookup dir name = some target := by
  obtain ⟨node, there⟩ := nodes_of_lookup found
  have listed := mem_of_lookup found
  have new : (namesIn added dir).lookup name = none := by
    rw [List.lookup_eq_none_iff]
    intro entry member
    have fresh := adds.fresh _ (mem_namesIn.1 member)
    have apart : name ≠ entry.1 := by
      intro same
      exact fresh (same ▸ List.mem_map_of_mem listed)
    simpa using apart
  unfold FileSystem.lookup
  rw [adds.entries there, List.lookup_append, new]
  exact found

theorem Adds.lookup_added (adds : Adds base files added) {dir inode : Nat} {name : Name} (listed : ⟨dir, name, inode⟩ ∈ added) :
    files.lookup dir name = some inode := by
  obtain ⟨node, there⟩ := adds.placed _ listed
  cases found : files.lookup dir name with
  | none =>
    have absent := notMem_of_lookup (show ¬(files.lookup dir name).isSome = true by rw [found]; nofun)
    rw [adds.entries there, List.map_append, List.mem_append, not_or] at absent
    exact absurd (List.mem_map_of_mem (f := Prod.fst) (mem_namesIn.2 listed : (name, inode) ∈ namesIn added dir)) absent.1
  | some target =>
    have member := mem_of_lookup found
    rw [adds.entries there] at member
    rcases List.mem_append.1 member with here | before
    · have same := List.inj_on_of_nodup_map adds.distinct (mem_namesIn.1 here) listed rfl
      cases same
      rfl
    · exact absurd (List.mem_map_of_mem before) (adds.fresh _ listed)

theorem Adds.resolve_old (adds : Adds base files added) {dir target : Nat} {path : List Name} (found : resolve base dir path = some target) :
    resolve files dir path = some target := by
  induction path generalizing dir with
  | nil => exact found
  | cons component rest ih =>
    unfold resolve at found ⊢
    cases first : base.lookup dir component with
    | none =>
      rw [first] at found
      cases found
    | some inode =>
      rw [first] at found
      rw [adds.lookup_old first]
      dsimp only at found ⊢
      cases there : base.nodes inode with
      | none =>
        rw [there] at found
        cases found
      | some node =>
        rw [there] at found
        rw [adds.old inode node there]
        dsimp only at found ⊢
        split at found
        · next directory =>
          rw [if_pos directory]
          exact ih found
        · cases found

theorem Adds.locate_old (adds : Adds base files added) {host : Host} {output : List UInt8} {target : Nat × Name}
    (found : locate host base output = some target) : locate host files output = some target := by
  unfold locate at found ⊢
  cases parsing : parseOutputPath output with
  | error code =>
    rw [parsing] at found
    cases found
  | ok parsed =>
    rw [parsing] at found
    obtain ⟨dir, resolved, rfl⟩ := Option.map_eq_some_iff.1 found
    exact Option.map_eq_some_iff.2 ⟨dir, adds.resolve_old resolved, rfl⟩

end

section

variable {host : Host} {base : FileSystem}

theorem looks {ε α : Type} {program : Calls ε α} (kept : Preserves Machine.files program) :
    Ensures (fun machine => machine.files = base) program (fun _ machine => machine.files = base) fun _ machine => machine.files = base :=
  keeps kept (· = base) fun _ _ same => same

theorem observe_shows {α : Type} {read : Nat → FileSystem → Except Errno α} {shown : α → Prop}
    (reads : ∀ call value, read call base = .ok value → shown value) :
    Ensures (fun machine => machine.files = base) (observe host read) (fun value machine => machine.files = base ∧ shown value)
      fun _ machine => machine.files = base := by
  refine (@observe_ensures α host read (· = base)).of_imp (fun _ => id) ?_ fun _ _ => id
  rintro value machine ⟨same, call, performed⟩
  exact ⟨same, reads call value (same ▸ performed)⟩

theorem fstat_shows (descriptor : Descriptor) :
    Ensures (fun machine => machine.files = base) (fstat host descriptor)
      (fun stat machine => machine.files = base ∧ ∃ node, base.nodes descriptor.inode = some node ∧ stat = statOf descriptor.inode node)
      fun _ machine => machine.files = base := by
  refine observe_shows fun call stat performed => ?_
  unfold statInode at performed
  split at performed
  · next node found => exact ⟨node, found, (Except.ok.inj performed).symm⟩
  · cases performed

theorem openDirectory_shows (parent : Descriptor) (name : Name) (flags : List OpenFlag) :
    Ensures (fun machine => machine.files = base) (openDirectory host parent name flags)
      (fun opened machine => machine.files = base ∧ base.lookup parent.inode name = some opened.inode ∧
        ∃ node, base.nodes opened.inode = some node ∧ node.kind = .directory)
      fun _ machine => machine.files = base := by
  refine observe_shows fun call opened performed => ?_
  split at performed
  · cases performed
  · next inode found =>
    split at performed
    · cases performed
    · next node there =>
      split at performed
      · next directory =>
        cases performed
        exact ⟨found, node, there, directory⟩
      · cases performed

theorem requireDirectory_preserves (stat : Stat) : Preserves Machine.files (requireDirectory stat) := by
  unfold requireDirectory
  split
  · exact Preserves.pure _
  · split <;> exact Preserves.throw _

theorem walkAncestors_shows (parent : Descriptor) (ancestors : List Name) :
    Ensures (fun machine => machine.files = base) (walkAncestors host parent ancestors)
      (fun opened machine => machine.files = base ∧ resolve base parent.inode ancestors = some opened.inode)
      fun _ machine => machine.files = base := by
  induction ancestors generalizing parent with
  | nil => exact Ensures.pure fun _ same => ⟨same, rfl⟩
  | cons component rest ih =>
    unfold walkAncestors
    refine (looks (observing_preserves ..)).bind fun observed => ?_
    refine (looks (requireDirectory_preserves ..)).bind fun _ => ?_
    refine (openDirectory_shows parent component _).orFail.bind_with fun opened ⟨found, node, there, directory⟩ => ?_
    refine (looks (observing_preserves ..)).bind fun pinned => ?_
    refine (looks (Preserves.require _ _)).bind fun _ => ?_
    refine (ih opened).of_imp (fun _ => id) ?_ fun _ _ => id
    rintro final machine ⟨same, resolved⟩
    refine ⟨same, ?_⟩
    unfold resolve
    rw [found]
    dsimp only
    rw [there]
    dsimp only
    rw [if_pos directory]
    exact resolved

/-- An opened parent: both descriptors are of the directory that the path leads to. -/
structure Parent (host : Host) (base : FileSystem) (parsed : ParsedOutputPath) (parentPath parentSync : Descriptor) : Prop where
  resolved : resolve base (startOf host parsed.absolute) parsed.ancestors = some parentPath.inode
  same : parentSync.inode = parentPath.inode
  there : ∃ node, base.nodes parentPath.inode = some node

theorem openStart_shows (absolute : Bool) :
    Ensures (fun machine => machine.files = base) (openStart host absolute)
      (fun opened machine => machine.files = base ∧ opened.inode = startOf host absolute) fun _ machine => machine.files = base :=
  observe_shows fun _ opened performed => by cases performed; rfl

theorem reopen_shows (directory : Descriptor) (flags : List OpenFlag) :
    Ensures (fun machine => machine.files = base) (reopen host directory flags)
      (fun opened machine => machine.files = base ∧ opened.inode = directory.inode) fun _ machine => machine.files = base :=
  observe_shows fun _ opened performed => by cases performed; rfl

theorem openParent_shows (parsed : ParsedOutputPath) :
    Ensures (fun machine => machine.files = base) (openParent host parsed)
      (fun opened machine => machine.files = base ∧ Parent host base parsed opened.1 opened.2.1) fun _ machine => machine.files = base := by
  unfold openParent
  refine (openStart_shows parsed.absolute).orFail.bind_with fun start begins => ?_
  refine (walkAncestors_shows start parsed.ancestors).bind_with fun parentPath resolved => ?_
  refine (fstat_shows parentPath).orFail.bind_with fun stat ⟨node, there, _⟩ => ?_
  refine (reopen_shows parentPath _).orFail.bind_with fun parentSync same => ?_
  refine (looks (verifySyncDirectory_preserves ..)).bind fun _ => ?_
  exact Ensures.pure fun _ final => ⟨final, begins ▸ resolved, same, node, there⟩

theorem checked_shows {α : Type} (result : Except AdapterErrorCode α) :
    Ensures (fun machine => machine.files = base) (checked result) (fun value machine => machine.files = base ∧ result = .ok value)
      fun _ machine => machine.files = base := by
  cases result with
  | ok value => exact Ensures.pure fun _ same => ⟨same, rfl⟩
  | error code => exact Ensures.throw fun _ same => same

theorem prepareWithHooks_shows (output : List UInt8) (inputs : List Snapshot) (expectedUid : Nat) :
    Ensures (fun machine => machine.files = base) (prepareWithHooks host output inputs expectedUid)
      (fun prepared machine => machine.files = base ∧ Rooted base prepared ∧
        locate host base output = some (prepared.parentPath.inode, prepared.name)) fun _ machine => machine.files = base := by
  unfold prepareWithHooks
  refine (looks (Preserves.require _ _)).bind fun _ => ?_
  refine (checked_shows (parseOutputPath output)).bind_with fun parsed parsing => ?_
  refine (openParent_shows parsed).bind_with fun opened parent => ?_
  obtain ⟨parentPath, parentSync, parentIdentity⟩ := opened
  refine (looks (preflightFinal_preserves ..)).bind fun _ => ?_
  refine Ensures.pure fun _ final => ⟨final, ⟨parent.same, parent.there⟩, ?_⟩
  unfold locate
  rw [parsing]
  exact Option.map_eq_some_iff.2 ⟨_, parent.resolved, rfl⟩

theorem prepareAll_shows (inputs : List Snapshot) (publications : List PublicationSpec) :
    Ensures (fun machine => machine.files = base) (prepareAll host inputs publications)
      (fun prepared machine => machine.files = base ∧ (∀ output ∈ prepared, Rooted base output) ∧
        publications.map (fun publication => locate host base publication.output) =
          prepared.map fun output => some (output.parentPath.inode, output.name)) fun _ machine => machine.files = base := by
  induction publications with
  | nil => exact Ensures.pure fun _ same => ⟨same, nofun, rfl⟩
  | cons publication rest ih =>
    unfold prepareAll
    refine (prepareWithHooks_shows publication.output inputs host.euid).bind_with fun prepared ⟨rooted, located⟩ => ?_
    refine ih.bind fun others => ?_
    refine Ensures.pure fun _ ⟨final, allRooted, allLocated⟩ => ⟨final, ?_, ?_⟩
    · exact List.forall_mem_cons.2 ⟨rooted, allRooted⟩
    · rw [List.map_cons, List.map_cons, located, allLocated]

theorem prepareRelative_shows (directory : Descriptor) (name : Name) (inputs : List Snapshot) (expectedUid : Nat) :
    Ensures (fun machine => machine.files = base) (prepareRelative host directory name inputs expectedUid)
      (fun prepared machine => machine.files = base ∧ Rooted base prepared ∧ prepared.parentPath.inode = directory.inode ∧ prepared.name = name)
      fun _ machine => machine.files = base := by
  unfold prepareRelative
  refine (looks (Preserves.require _ _)).bind fun _ => ?_
  refine (fstat_shows directory).orFail.bind_with fun parentStat ⟨node, there, _⟩ => ?_
  refine (reopen_shows directory _).orFail.bind_with fun parentPath path => ?_
  refine (reopen_shows directory _).orFail.bind_with fun parentSync sync => ?_
  refine (looks (observing_preserves ..)).bind fun opened => ?_
  refine (looks (Preserves.require _ _)).bind fun _ => ?_
  refine (looks (verifySyncDirectory_preserves ..)).bind fun _ => ?_
  refine (looks (preflightFinal_preserves ..)).bind fun _ => ?_
  exact Ensures.pure fun _ final => ⟨final, ⟨sync.trans path.symm, node, path ▸ there⟩, path, rfl⟩

theorem prepareMembers_shows (directory : Descriptor) (inputs : List Snapshot) (members : List (Name × List UInt8)) :
    Ensures (fun machine => machine.files = base) (prepareMembers host directory inputs members)
      (fun prepared machine => machine.files = base ∧ (∀ entry ∈ prepared, Rooted base entry.1) ∧
        prepared.map targetOf = members.map fun member => (directory.inode, member)) fun _ machine => machine.files = base := by
  induction members with
  | nil => exact Ensures.pure fun _ same => ⟨same, nofun, rfl⟩
  | cons member rest ih =>
    obtain ⟨name, bytes⟩ := member
    unfold prepareMembers
    refine (prepareRelative_shows directory name inputs host.euid).bind_with fun prepared ⟨rooted, inside, named⟩ => ?_
    refine ih.bind fun others => ?_
    refine Ensures.pure fun _ ⟨final, allRooted, allTargets⟩ => ⟨final, ?_, ?_⟩
    · exact List.forall_mem_cons.2 ⟨rooted, allRooted⟩
    · rw [List.map_cons, List.map_cons, allTargets]
      unfold targetOf
      rw [inside, named]

end

end Legitimacy.LinuxOutput
