import Legitimacy.LinuxOutput.Staging

namespace Legitimacy.LinuxOutput

open Outcomes CodexExec

def Unchanged (before after : FileSystem) : Prop := ∀ inode node, before.nodes inode = some node → after.nodes inode = some node

/-- The old files and directories have got names that are allowed, and are otherwise what they were. -/
def OnlyAdds (before after : FileSystem) (allowed : Nat × Name → Prop) : Prop :=
  ∀ inode node, before.nodes inode = some node → ∃ added, after.nodes inode = some { node with entries := added ++ node.entries } ∧
    ∀ entry ∈ added, allowed (inode, entry.1)

def HoldsFile (files : FileSystem) (dir : Nat) (name : Name) (bytes : List UInt8) : Prop :=
  ∃ inode node, files.lookup dir name = some inode ∧ files.nodes inode = some node ∧ node.kind = .regularFile ∧ node.content = bytes

/-- What a run either achieves or leaves alone, unless it reports that the rollback is uncertain. -/
def AllOrNothing (before : FileSystem) (published : FileSystem → Prop) (run : Except AdapterErrorCode Unit × Machine) : Prop :=
  match run.1 with
  | .ok _ => published run.2.files
  | .error code => code ≠ .outputRollbackUncertain → Unchanged before run.2.files

/-- Every output is at its path with its bytes, and nothing else is added. -/
structure SetPublished (host : Host) (before : FileSystem) (publications : List PublicationSpec) (after : FileSystem) : Prop where
  members : ∀ publication ∈ publications, ∃ dir name, locate host after publication.output = some (dir, name) ∧
    HoldsFile after dir name publication.bytes
  others : OnlyAdds before after fun place => ∃ publication ∈ publications, locate host before publication.output = some place

/-- A directory of exactly the members is at the path of the output set, and nothing else is added. -/
structure DirectoryPublished (host : Host) (before : FileSystem) (outputSet : List UInt8) (members : List (Name × List UInt8))
    (after : FileSystem) : Prop where
  directory : ∃ dir name inode node, locate host after outputSet = some (dir, name) ∧ after.lookup dir name = some inode ∧
    after.nodes inode = some node ∧ node.kind = .directory ∧ (∀ label, label ∈ node.entries.map Prod.fst ↔ label ∈ members.map Prod.fst) ∧
    ∀ member ∈ members, HoldsFile after inode member.1 member.2
  others : OnlyAdds before after fun place => locate host before outputSet = some place

/-- The staging directory that has just been made can be looked up, opened and looked at, and its mode is exactly that of the publisher. -/
def Opens (host : Host) (mode : Nat) (made : Machine) : Prop :=
  host.faults made.calls = none ∧ host.faults (made.calls + 1) = none ∧ host.faults (made.calls + 2) = none ∧
    mode &&& 0o7777 = setDirectoryMode

instance (host : Host) (mode : Nat) (made : Machine) : Decidable (Opens host mode made) := inferInstanceAs (Decidable (_ ∧ _ ∧ _ ∧ _))

/-- Whenever the publication of a directory set has made a staging directory, that directory opens: no bit of its mode is masked, and none is
inherited from the parent. -/
def StagingUsable (host : Host) (outputSet : List UInt8) (members : List (Name × List UInt8)) (inputs : List Snapshot) (machine : Machine) : Prop :=
  ∀ parentPath parentSync finalName prepared stagingName made node,
    (prepareDirectorySet host outputSet members inputs).on machine = (.ok (parentPath, parentSync, finalName), prepared) →
    (createStagingDirectory host parentPath stagingAttempts).on prepared = (.ok stagingName, made) →
    prepared.files.nodes parentPath.inode = some node → Opens host (stagingMode host node.mode) made

section

variable {base files : FileSystem} {added : List Placement}

theorem Adds.unchanged (adds : Adds base files []) : Unchanged base files := adds.old

theorem Adds.onlyAdds (adds : Adds base files added) {allowed : Nat × Name → Prop} (allows : ∀ placement ∈ added, allowed placement.key) :
    OnlyAdds base files allowed := by
  intro inode node found
  refine ⟨_, adds.old inode node found, fun entry member => ?_⟩
  exact allows _ (mem_namesIn.1 member)

theorem Adds.holdsFile (adds : Adds base files added) {placement : Placement} (listed : placement ∈ added) {bytes : List UInt8}
    (filled : Filled files [(placement.inode, bytes)]) : HoldsFile files placement.dir placement.name bytes := by
  obtain ⟨node, found, regular, content⟩ := filled _ List.mem_cons_self
  exact ⟨placement.inode, node, adds.lookup_added listed, found, regular, content⟩

end

section

variable {host : Host} {start : FileSystem}

theorem AllOrNothing.of_ensures {published : FileSystem → Prop} {program : Calls AdapterErrorCode Unit} {machine : Machine}
    (ensures : Ensures (fun other => other.files = machine.files) program (fun _ final => published final.files)
      fun code final => code ≠ .outputRollbackUncertain → Unchanged machine.files final.files) :
    AllOrNothing machine.files published (program.on machine) := by
  rcases ensures.ends machine rfl with ⟨value, final, run, holds⟩ | ⟨code, final, run, holds⟩
  · rw [run]
    exact holds
  · rw [run]
    exact holds

theorem rejectCrossOutputAlias_preserves (prepared : List PreparedPublication) : Preserves Machine.files (rejectCrossOutputAlias prepared) := by
  induction prepared with
  | nil => exact Preserves.pure _
  | cons left rest ih => exact (Preserves.require _ _).bind fun _ => ih

/-- Where an output stands, as `locate` says it, and its bytes. -/
def placeOf (entry : CommittedPublication × List UInt8) : Option (Nat × Name) × List UInt8 :=
  (some (entry.1.parentPath.inode, entry.1.name), entry.2)

theorem placeOf_all {publications : List PublicationSpec} {prepared : List PreparedPublication}
    {all : List (CommittedPublication × List UInt8)}
    (located : publications.map (fun publication => locate host start publication.output) =
      prepared.map fun output => some (output.parentPath.inode, output.name))
    (targets : all.map targetOfCommitted = (prepared.zip (publications.map PublicationSpec.bytes)).map targetOf) :
    all.map placeOf = publications.map fun publication => (locate host start publication.output, publication.bytes) := by
  have places : (all.map targetOfCommitted).map (fun target => (some (target.1, target.2.1), target.2.2)) = all.map placeOf := by
    rw [List.map_map]
    rfl
  have zipped : publications.map (fun publication => (locate host start publication.output, publication.bytes)) =
      (publications.map fun publication => locate host start publication.output).zip (publications.map PublicationSpec.bytes) :=
    List.zip_map'.symm
  rw [← places, targets, zipped, located, List.zip_map_left, List.map_map]
  rfl

theorem setPublished_of_stands {publications : List PublicationSpec} {files : FileSystem} {all : List (CommittedPublication × List UInt8)}
    (stands : Stands start files all)
    (places : all.map placeOf = publications.map fun publication => (locate host start publication.output, publication.bytes)) :
    SetPublished host start publications files := by
  refine ⟨fun publication listed => ?_, stands.adds.onlyAdds fun placement member => ?_⟩
  · have place : (locate host start publication.output, publication.bytes) ∈ all.map placeOf := places ▸ List.mem_map_of_mem listed
    obtain ⟨entry, among, same⟩ := List.mem_map.1 place
    have located : locate host start publication.output = some (entry.1.parentPath.inode, entry.1.name) := (congrArg Prod.fst same).symm
    have bytes : entry.2 = publication.bytes := congrArg Prod.snd same
    refine ⟨_, _, stands.adds.locate_old located, ?_⟩
    have placed : placementOf entry.1 ∈ placements all := List.mem_reverse.2 (List.mem_map_of_mem among)
    refine stands.adds.holdsFile placed ?_
    rintro file (_ | ⟨_, ⟨⟩⟩)
    exact stands.filled _ (List.mem_map.2 ⟨entry, among, by rw [bytes]; rfl⟩)
  · obtain ⟨entry, among, rfl⟩ := List.mem_map.1 (List.mem_reverse.1 member)
    have place : placeOf entry ∈ publications.map fun publication => (locate host start publication.output, publication.bytes) :=
      places ▸ List.mem_map_of_mem among
    obtain ⟨publication, listed, same⟩ := List.mem_map.1 place
    exact ⟨publication, listed, congrArg Prod.fst same⟩

theorem publishSet_ensures (publications : List PublicationSpec) (inputs : List Snapshot) (lateVerifier : Except AdapterErrorCode Unit) :
    Ensures (fun machine => machine.files = start) (publishSet host publications inputs lateVerifier)
      (fun _ machine => SetPublished host start publications machine.files)
      fun code machine => code ≠ .outputRollbackUncertain → Unchanged start machine.files := by
  have untouched : ∀ (code : AdapterErrorCode) (machine : Machine), machine.files = start →
      code ≠ .outputRollbackUncertain → Unchanged start machine.files := by
    intro _ machine same _
    rw [same]
    exact fun _ _ found => found
  unfold publishSet
  refine ((looks (Preserves.require _ _)).leaving untouched).bind fun _ => ?_
  refine ((prepareAll_shows inputs publications).leaving untouched).bind_with fun prepared ⟨rooted, located⟩ => ?_
  refine ((looks (rejectCrossOutputAlias_preserves prepared)).leaving untouched).bind fun _ => ?_
  refine ((looks (revalidateInputs_preserves host inputs)).leaving untouched).bind fun _ => ?_
  have among : ∀ entry ∈ prepared.zip (publications.map PublicationSpec.bytes), Rooted start entry.1 :=
    fun entry member => rooted entry.1 (List.of_mem_zip member).1
  have committing := @commitLoop_ensures host start inputs lateVerifier _ [] among
  refine committing.of_imp ?_ ?_ ?_
  · rintro machine same
    exact ⟨same ▸ Adds.refl _, nofun⟩
  · rintro _ machine ⟨all, stands, targets⟩
    exact setPublished_of_stands stands (placeOf_all located targets)
  · exact fun code machine adds different => (adds different).unchanged

theorem prepareDirectorySet_shows (outputSet : List UInt8) (members : List (Name × List UInt8)) (inputs : List Snapshot) :
    Ensures (fun machine => machine.files = start) (prepareDirectorySet host outputSet members inputs)
      (fun prepared machine => machine.files = start ∧ locate host start outputSet = some (prepared.1.inode, prepared.2.2) ∧
        ∃ node, start.nodes prepared.1.inode = some node)
      fun _ machine => machine.files = start := by
  unfold prepareDirectorySet
  refine (looks (Preserves.require _ _)).bind fun _ => ?_
  refine (checked_shows (parseOutputPath outputSet)).bind_with fun parsed parsing => ?_
  refine (openStart_shows parsed.absolute).orFail.bind_with fun first begins => ?_
  refine (walkAncestors_shows first parsed.ancestors).bind_with fun parentPath resolved => ?_
  refine (looks (observing_preserves ..)).bind fun parentSync => ?_
  refine (fstat_shows parentPath).orFail.bind_with fun stat ⟨node, there, _⟩ => ?_
  refine (looks (verifySyncDirectory_preserves ..)).bind fun _ => ?_
  refine (looks (preflightFinal_preserves ..)).bind fun _ => ?_
  refine (looks (revalidateInputs_preserves host inputs)).bind fun _ => ?_
  refine Ensures.pure fun _ same => ⟨same, ?_, node, there⟩
  unfold locate
  rw [parsing]
  exact Option.map_eq_some_iff.2 ⟨_, begins ▸ resolved, rfl⟩

theorem directoryPublished_of_housed {outputSet : List UInt8} {members : List (Name × List UInt8)} {files : FileSystem} {dir s : Nat} {name : Name}
    (located : locate host start outputSet = some (dir, name)) (housed : Housed start files dir name s members) :
    DirectoryPublished host start outputSet members files := by
  refine ⟨?_, housed.adds.onlyAdds ?_⟩
  · obtain ⟨node, there, directory⟩ := housed.directory
    have found := housed.adds.lookup_added List.mem_cons_self
    refine ⟨dir, name, s, node, housed.adds.locate_old located, found, there, directory, ?_, fun member listed => ?_⟩
    · have names := housed.names
      unfold FileSystem.entries at names
      rwa [there] at names
    · obtain ⟨inode, found, filled⟩ := housed.filled member listed
      obtain ⟨node, there, regular, content⟩ := filled _ List.mem_cons_self
      exact ⟨inode, node, found, there, regular, content⟩
  · rintro placement (_ | ⟨_, ⟨⟩⟩)
    exact located

section

variable {base : FileSystem} {directory : Descriptor} {stagingName : Name} {s mode uid : Nat}

theorem publishStaging_ensures (made : Made start base directory.inode stagingName s mode uid) (parentSync staging : Descriptor)
    (opened : staging.inode = s) (finalName : Name) (members : List (Name × List UInt8)) (inputs : List Snapshot)
    (lateVerifier : Except AdapterErrorCode Unit) :
    Ensures (fun machine => machine.files = base)
      (publishStaging host directory parentSync finalName stagingName staging members inputs lateVerifier)
      (fun _ machine => Housed start machine.files directory.inode finalName s members)
      fun code machine => code ≠ .outputRollbackUncertain → Unchanged start machine.files := by
  subst opened
  unfold publishStaging
  refine (publishRelativeSet_ensures staging members inputs lateVerifier).tried.bind fun result => ?_
  have cleaning := fun committed => @cleanupStaging_ensures host start base staging.inode mode uid stagingName members committed directory made
    parentSync staging staging.inode
  have failing : ∀ committed code, Ensures (fun machine => Begun base staging.inode members committed machine.files)
      (do
        cleanupStaging host directory parentSync stagingName staging staging.inode members committed
        throw code : Calls AdapterErrorCode Unit)
      (fun _ machine => Housed start machine.files directory.inode finalName staging.inode members)
      fun code machine => code ≠ .outputRollbackUncertain → Unchanged start machine.files := by
    intro committed code
    refine ((cleaning committed).leaving fun _ _ uncertain different => absurd uncertain different).bind fun _ => ?_
    exact Ensures.throw fun _ adds _ => adds.unchanged
  cases result with
  | error failure =>
    simp only [pure_bind]
    exact failing failure.committed failure.error
  | ok publications =>
    simp only [pure_bind]
    refine (finalizeStaging_ensures made parentSync staging finalName staging.inode inputs).tried.bind fun result => ?_
    cases result with
    | ok _ => exact Ensures.pure fun _ housed => housed
    | error code => exact (failing publications code).of_imp (fun _ complete => complete.begun) (fun _ _ => id) fun _ _ => id

theorem calling_observe_bind_on {α β : Type} {code : AdapterErrorCode} {read : Nat → FileSystem → Except Errno α}
    {next : α → Calls AdapterErrorCode β} {machine : Machine} {value : α} (shows : read machine.calls machine.files = .ok value) :
    (calling code (observe host read) >>= next).on machine =
      if host.faults machine.calls = none then (next value).on ⟨machine.files, machine.calls + 1⟩
      else (.error code, ⟨machine.files, machine.calls + 1⟩) := by
  have first : (calling code (observe host read)).on machine =
      (if host.faults machine.calls = none then .ok value else .error code, ⟨machine.files, machine.calls + 1⟩) := by
    show (let (outcome, final) := systemCall host (fun call files => (read call files).map fun value => (value, files)) machine
      (outcome.mapError fun _ => code, final)) = _
    unfold systemCall
    cases refused : host.faults machine.calls with
    | some errno => rfl
    | none =>
      dsimp only
      rw [shows]
      rfl
  rw [bind_on, first]
  by_cases refused : host.faults machine.calls = none
  · rw [if_pos refused, if_pos refused]
  · rw [if_neg refused, if_neg refused]

theorem openStaging_on (made : Made start base directory.inode stagingName s mode host.euid) {machine : Machine} (here : machine.files = base) :
    ∃ final, final.files = base ∧ (openStaging host directory stagingName).on machine =
      (if Opens host mode machine then .ok ⟨s, .readOnly, [.directory, .nofollow]⟩ else .error .outputPublish, final) := by
  obtain ⟨files, calls⟩ := machine
  subst here
  have found := made.adds.lookup_added List.mem_cons_self
  have stat : statInode s files = .ok (statOf s ⟨.directory, mode, host.euid, 0, 0, [], []⟩) := by
    unfold statInode
    rw [made.node]
  have properties : exactStagingProperties host (statOf s ⟨.directory, mode, host.euid, 0, 0, [], []⟩) = true ↔ mode &&& 0o7777 = setDirectoryMode := by
    simp [exactStagingProperties, statOf]
  unfold openStaging statat openDirectory fstat
  rw [calling_observe_bind_on (show _ = Except.ok (statOf s ⟨.directory, mode, host.euid, 0, 0, [], []⟩) by dsimp only; rw [found]; exact stat)]
  by_cases first : host.faults calls = none
  case neg =>
    rw [if_neg first, if_neg fun opens => first opens.1]
    exact ⟨⟨files, calls + 1⟩, rfl, rfl⟩
  rw [if_pos first, calling_observe_bind_on
    (show _ = Except.ok (Descriptor.mk s .readOnly [.directory, .nofollow]) by dsimp only; rw [found]; dsimp only; rw [made.node]; rfl)]
  by_cases second : host.faults (calls + 1) = none
  case neg =>
    rw [if_neg second, if_neg fun opens => second opens.2.1]
    exact ⟨⟨files, calls + 2⟩, rfl, rfl⟩
  rw [if_pos second, calling_observe_bind_on stat]
  by_cases third : host.faults (calls + 1 + 1) = none
  case neg =>
    rw [if_neg third, if_neg fun opens => third opens.2.2.1]
    exact ⟨⟨files, calls + 3⟩, rfl, rfl⟩
  refine ⟨⟨files, calls + 3⟩, rfl, ?_⟩
  rw [if_pos third, bind_on, require_on]
  by_cases private_ : mode &&& 0o7777 = setDirectoryMode
  · have opens : Opens host mode ⟨files, calls⟩ := ⟨first, second, third, private_⟩
    rw [if_pos ⟨by simp [sameDirectory, statOf], properties.2 private_⟩, if_pos opens]
    rfl
  · rw [if_neg fun both => private_ (properties.1 both.2), if_neg fun opens => private_ opens.2.2.2]

end

theorem Made.not_unchanged {base : FileSystem} {parent s mode uid : Nat} {name : Name} (made : Made start base parent name s mode uid) :
    ¬Unchanged start base := by
  intro unchanged
  obtain ⟨node, there⟩ := made.adds.placed _ List.mem_cons_self
  have now := (made.adds.old parent node there).symm.trans (unchanged parent node there)
  have entries := congrArg (fun node => node.map fun node => node.entries.length) now
  simp [namesIn] at entries

section

variable {outputSet : List UInt8} {members : List (Name × List UInt8)} {inputs : List Snapshot} {lateVerifier : Except AdapterErrorCode Unit}
  {machine prepared made : Machine} {parentPath parentSync : Descriptor} {finalName stagingName : Name}

theorem publishDirectorySet_on (preparing : (prepareDirectorySet host outputSet members inputs).on machine = (.ok (parentPath, parentSync, finalName), prepared))
    (creating : (createStagingDirectory host parentPath stagingAttempts).on prepared = (.ok stagingName, made)) :
    (publishDirectorySet host outputSet members inputs lateVerifier).on machine =
      (openStaging host parentPath stagingName >>= fun staging =>
        publishStaging host parentPath parentSync finalName stagingName staging members inputs lateVerifier).on made := by
  unfold publishDirectorySet
  rw [bind_on, preparing]
  dsimp only
  rw [bind_on, creating]

theorem abandoned (preparing : (prepareDirectorySet host outputSet members inputs).on machine = (.ok (parentPath, parentSync, finalName), prepared))
    (creating : (createStagingDirectory host parentPath stagingAttempts).on prepared = (.ok stagingName, made)) {node : Node}
    (there : prepared.files.nodes parentPath.inode = some node) (closed : ¬Opens host (stagingMode host node.mode) made) :
    ¬AllOrNothing machine.files (DirectoryPublished host machine.files outputSet members)
      ((publishDirectorySet host outputSet members inputs lateVerifier).on machine) := by
  obtain ⟨same, -⟩ := (prepareDirectorySet_shows outputSet members inputs).ok rfl preparing
  obtain ⟨s, placed⟩ := (createStagingDirectory_ensures there stagingAttempts).ok rfl creating
  obtain ⟨final, kept, opening⟩ := @openStaging_on host _ _ parentPath stagingName s _ placed made rfl
  rw [if_neg closed] at opening
  rw [publishDirectorySet_on preparing creating, bind_on, opening]
  intro holds
  have unchanged : Unchanged machine.files final.files := holds (by decide)
  rw [kept, ← same] at unchanged
  exact placed.not_unchanged unchanged

theorem publishDirectorySet_of_usable (usable : StagingUsable host outputSet members inputs machine) :
    AllOrNothing machine.files (DirectoryPublished host machine.files outputSet members)
      ((publishDirectorySet host outputSet members inputs lateVerifier).on machine) := by
  have untouched : ∀ (code : AdapterErrorCode) (other : Machine), other.files = machine.files →
      code ≠ .outputRollbackUncertain → Unchanged machine.files other.files := by
    intro _ other same _
    rw [same]
    exact fun _ _ found => found
  rcases (@prepareDirectorySet_shows host machine.files outputSet members inputs).ends machine rfl with
    ⟨⟨parentPath, parentSync, finalName⟩, prepared, preparing, same, located, node, there⟩ | ⟨code, final, preparing, same⟩
  · rw [← same] at there
    rcases (createStagingDirectory_ensures there stagingAttempts).ends prepared rfl with
      ⟨stagingName, made, creating, s, placed⟩ | ⟨code, final, creating, kept⟩
    · obtain ⟨opened, here, opening⟩ := @openStaging_on host _ _ parentPath stagingName s _ placed made rfl
      rw [if_pos (usable _ _ _ _ _ _ _ preparing creating there)] at opening
      rw [publishDirectorySet_on preparing creating, bind_on, opening]
      rw [same] at placed
      dsimp only
      have staged := @publishStaging_ensures host machine.files made.files parentPath stagingName s _ _ placed parentSync
        ⟨s, .readOnly, [.directory, .nofollow]⟩ rfl finalName members inputs lateVerifier
      rcases staged.ends opened here with ⟨_, final, run, housed⟩ | ⟨code, final, run, unchanged⟩
      · rw [run]
        exact directoryPublished_of_housed located housed
      · rw [run]
        exact unchanged
    · unfold publishDirectorySet
      rw [bind_on, preparing]
      dsimp only
      rw [bind_on, creating]
      exact untouched code final (kept.trans same)
  · unfold publishDirectorySet
    rw [bind_on, preparing]
    exact untouched code final same

end

end

/-- A set of outputs is always published as a whole or not at all. A directory set is exactly when no staging directory is left unopened. -/
theorem publication_all_or_nothing (host : Host) (publications : List PublicationSpec) (outputSet : List UInt8) (members : List (Name × List UInt8))
    (inputs : List Snapshot) (lateVerifier : Except AdapterErrorCode Unit) (machine : Machine) :
    AllOrNothing machine.files (SetPublished host machine.files publications) ((publishSet host publications inputs lateVerifier).on machine) ∧
      (AllOrNothing machine.files (DirectoryPublished host machine.files outputSet members)
          ((publishDirectorySet host outputSet members inputs lateVerifier).on machine) ↔
        StagingUsable host outputSet members inputs machine) := by
  refine ⟨AllOrNothing.of_ensures (publishSet_ensures publications inputs lateVerifier), fun holds => ?_, publishDirectorySet_of_usable⟩
  intro parentPath parentSync finalName prepared stagingName made node preparing creating there
  by_contra closed
  exact abandoned preparing creating there closed holds

/-- A process that has no descriptor left when it opens the staging directory. -/
def crowdedHost : Host where
  faults := fun call => if call = 10 then some .mfile else none
  transfers := fun _ => 1
  entropy := fun _ => [1]
  root := 0
  cwd := 0
  euid := 1000
  umask := 0o022
  procfs := true
  largeFile := true

theorem emptyDirectory_unallocated (inode : Nat) (above : 1 ≤ inode) :
    (if inode = 0 then some (⟨.directory, 0o755, 1000, 0, 0, [], []⟩ : Node) else none) = none := if_neg (by omega)

def emptyDirectory : FileSystem where
  nodes := fun inode => if inode = 0 then some ⟨.directory, 0o755, 1000, 0, 0, [], []⟩ else none
  next := 1
  unallocated := emptyDirectory_unallocated

/-- The call that opens the staging directory fails, and the staging directory stays. -/
theorem crowded_host_abandons_staging :
    ¬AllOrNothing emptyDirectory (DirectoryPublished crowdedHost emptyDirectory [111] [([97], [])])
      ((publishDirectorySet crowdedHost [111] [([97], [])] [] (.ok ⟨⟩)).on ⟨emptyDirectory, 0⟩) := by
  have preparing : (prepareDirectorySet crowdedHost [111] [([97], [])] []).on ⟨emptyDirectory, 0⟩ =
      (.ok (⟨0, .readOnly, [.path, .directory, .nofollow]⟩, ⟨0, .readOnly, [.directory, .nofollow]⟩, [111]), ⟨emptyDirectory, 7⟩) := by
    have parsed : parseOutputPath [111] = .ok ⟨false, [], [111]⟩ := rfl
    have valid : (validateMembers [([97], [])]).on (⟨emptyDirectory, 0⟩ : Machine) = (.ok ⟨⟩, ⟨emptyDirectory, 0⟩) := rfl
    have started : (calling .outputPublish (openStart crowdedHost false)).on ⟨emptyDirectory, 0⟩ =
        (.ok ⟨0, .readOnly, [.path, .directory, .nofollow]⟩, ⟨emptyDirectory, 1⟩) := rfl
    unfold prepareDirectorySet
    rw [bind_on, valid, parsed]
    show (calling AdapterErrorCode.outputPublish (openStart crowdedHost false) >>= _).on _ = _
    rw [bind_on, started]
    rfl
  have named : ∃ name, (randomName crowdedHost ".legitimacy-output-set-" ".staging").on ⟨emptyDirectory, 7⟩ = (.ok name, ⟨emptyDirectory, 8⟩) :=
    ⟨_, rfl⟩
  obtain ⟨name, named⟩ := named
  have making : ∃ made, (mkdirat crowdedHost ⟨0, .readOnly, [.path, .directory, .nofollow]⟩ name setDirectoryMode).on ⟨emptyDirectory, 8⟩ =
      (.ok ⟨⟩, ⟨made, 9⟩) := ⟨_, rfl⟩
  obtain ⟨made, making⟩ := making
  have creating : (createStagingDirectory crowdedHost ⟨0, .readOnly, [.path, .directory, .nofollow]⟩ stagingAttempts).on ⟨emptyDirectory, 7⟩ =
      (.ok name, ⟨made, 9⟩) := by
    unfold stagingAttempts createStagingDirectory
    rw [bind_on, named]
    dsimp only
    rw [bind_on, outcome_on, making]
    rfl
  have there : emptyDirectory.nodes 0 = some ⟨.directory, 0o755, 1000, 0, 0, [], []⟩ := rfl
  refine abandoned preparing creating there fun opens => ?_
  have refused : crowdedHost.faults 10 = none := opens.2.1
  cases refused

end Legitimacy.LinuxOutput
