import Legitimacy.Outcomes

namespace Legitimacy.LinuxOutput

open Outcomes

abbrev Name := List UInt8

inductive FileType
  | regularFile
  | directory
  | symlink
  | other
deriving DecidableEq

structure Node where
  kind : FileType
  mode : Nat
  uid : Nat
  links : Nat
  /-- The times of the last change of content, mode or links. -/
  stamp : Nat
  content : List UInt8
  entries : List (Name × Nat)
deriving DecidableEq

/-- Inodes are numbers that stand for a device and an inode number. -/
structure FileSystem where
  nodes : Nat → Option Node
  next : Nat
  unallocated : ∀ inode, next ≤ inode → nodes inode = none

namespace FileSystem

def entries (files : FileSystem) (directory : Nat) : List (Name × Nat) := ((files.nodes directory).map Node.entries).getD []

def lookup (files : FileSystem) (directory : Nat) (name : Name) : Option Nat := (files.entries directory).lookup name

def modify (files : FileSystem) (inode : Nat) (change : Node → Node) : FileSystem where
  nodes := fun other => if other = inode then (files.nodes other).map change else files.nodes other
  next := files.next
  unallocated := by
    intro other above
    rw [files.unallocated other above]
    split <;> rfl

def allocate (files : FileSystem) (node : Node) : FileSystem where
  nodes := fun other => if other = files.next then some node else files.nodes other
  next := files.next + 1
  unallocated := by
    intro other above
    rw [if_neg (by omega), files.unallocated other (by omega)]

end FileSystem

inductive Errno
  | exist | noent | notdir | isdir | xdev | notsup | nosys | inval | io | mfile | notempty | acces | nospc
deriving DecidableEq

inductive OpenFlag
  | path | directory | nofollow | tmpfile | largefile
deriving DecidableEq

inductive AccessMode
  | readOnly
  | readWrite
deriving DecidableEq

structure Descriptor where
  inode : Nat
  access : AccessMode
  flags : List OpenFlag

structure Stat where
  ino : Nat
  kind : FileType
  mode : Nat
  uid : Nat
  nlink : Nat
  size : Nat
  times : Nat
deriving DecidableEq

def statOf (inode : Nat) (node : Node) : Stat := ⟨inode, node.kind, node.mode, node.uid, node.links, node.content.length, node.stamp⟩

/-- The system under the publisher: which call is refused and why, how many bytes a call transfers at most, and what never changes. -/
structure Host where
  faults : Nat → Option Errno
  transfers : Nat → Nat
  entropy : Nat → List UInt8
  root : Nat
  cwd : Nat
  euid : Nat
  umask : Nat
  procfs : Bool
  largeFile : Bool

structure Machine where
  files : FileSystem
  calls : Nat

abbrev Calls (ε : Type) := Program Machine ε

/-- One system call: it is refused without an effect, fails, or has its effect. A call that is interrupted is made again, so that its
interruptions are not told apart. -/
def systemCall {α : Type} (host : Host) (perform : Nat → FileSystem → Except Errno (α × FileSystem)) : Calls Errno α := fun machine =>
  match host.faults machine.calls with
  | some errno => (.error errno, { machine with calls := machine.calls + 1 })
  | none =>
    match perform machine.calls machine.files with
    | .ok (value, files) => (.ok value, ⟨files, machine.calls + 1⟩)
    | .error errno => (.error errno, { machine with calls := machine.calls + 1 })

def observe {α : Type} (host : Host) (read : Nat → FileSystem → Except Errno α) : Calls Errno α :=
  systemCall host fun call files => (read call files).map fun value => (value, files)

section

variable (host : Host)

def statInode (inode : Nat) (files : FileSystem) : Except Errno Stat :=
  match files.nodes inode with
  | some node => .ok (statOf inode node)
  | none => .error .noent

def fstat (descriptor : Descriptor) : Calls Errno Stat := observe host fun _ => statInode descriptor.inode

def statat (parent : Descriptor) (name : Name) : Calls Errno Stat := observe host fun _ files =>
  match files.lookup parent.inode name with
  | some inode => statInode inode files
  | none => .error .noent

def fsync (_ : Descriptor) : Calls Errno Unit := observe host fun _ _ => .ok ⟨⟩

def fcntlGetfl (descriptor : Descriptor) : Calls Errno (AccessMode × List OpenFlag) := observe host fun _ _ =>
  .ok (descriptor.access, if host.largeFile then descriptor.flags ++ [.largefile] else descriptor.flags)

def fcntlGetfd (_ : Descriptor) : Calls Errno Unit := observe host fun _ _ => .ok ⟨⟩

def getrandom : Calls Errno (List UInt8) := observe host fun call _ => .ok (host.entropy call)

def openStart (absolute : Bool) : Calls Errno Descriptor := observe host fun _ _ =>
  .ok ⟨if absolute then host.root else host.cwd, .readOnly, [.path, .directory, .nofollow]⟩

def openDirectory (parent : Descriptor) (name : Name) (flags : List OpenFlag) : Calls Errno Descriptor := observe host fun _ files =>
  match files.lookup parent.inode name with
  | none => .error .noent
  | some inode =>
    match files.nodes inode with
    | none => .error .noent
    | some node => if node.kind = .directory then .ok ⟨inode, .readOnly, flags⟩ else .error .notdir

/-- Opens the directory behind a descriptor once more. -/
def reopen (directory : Descriptor) (flags : List OpenFlag) : Calls Errno Descriptor := observe host fun _ _ =>
  .ok ⟨directory.inode, .readOnly, flags⟩

def openProc : Calls Errno Unit := observe host fun _ _ => .ok ⟨⟩

def fstatfsProc : Calls Errno Bool := observe host fun _ _ => .ok host.procfs

/-- `fstatat` of the name that `/proc` has for a descriptor. -/
def statProcSource (held : Descriptor) : Calls Errno Stat := fstat host held

def readDirectory (directory : Descriptor) : Calls Errno (List Name) := observe host fun _ files =>
  .ok ((files.entries directory.inode).map Prod.fst)

def pread (held : Descriptor) (length offset : Nat) : Calls Errno (List UInt8) := observe host fun call files =>
  .ok ((((files.nodes held.inode).map Node.content).getD []).drop offset |>.take (min length (host.transfers call)))

end

section

variable (host : Host)

def maskedMode (mode : Nat) : Nat := mode &&& (0o7777 ^^^ host.umask)

def openTemporary (_ : Descriptor) (mode : Nat) : Calls Errno Descriptor := systemCall host fun _ files =>
  .ok (⟨files.next, .readWrite, [.tmpfile]⟩, files.allocate ⟨.regularFile, maskedMode host mode, host.euid, 0, 0, [], []⟩)

def write (held : Descriptor) (bytes : List UInt8) : Calls Errno Nat := systemCall host fun call files =>
  let count := min bytes.length (host.transfers call)
  .ok (count, files.modify held.inode fun node => { node with content := node.content ++ bytes.take count, stamp := node.stamp + 1 })

def fchmod (held : Descriptor) (mode : Nat) : Calls Errno Unit := systemCall host fun _ files =>
  .ok (⟨⟩, files.modify held.inode fun node => { node with mode := mode, stamp := node.stamp + 1 })

def linkat (held parent : Descriptor) (name : Name) : Calls Errno Unit := systemCall host fun _ files =>
  if (files.lookup parent.inode name).isSome then .error .exist
  else
    let linked := files.modify held.inode fun node => { node with links := node.links + 1, stamp := node.stamp + 1 }
    .ok (⟨⟩, linked.modify parent.inode fun node => { node with entries := (name, held.inode) :: node.entries })

/-- A directory inherits the set-group-id bit of its parent. -/
def mkdirat (parent : Descriptor) (name : Name) (mode : Nat) : Calls Errno Unit := systemCall host fun _ files =>
  if (files.lookup parent.inode name).isSome then .error .exist
  else
    let inherited := (((files.nodes parent.inode).map Node.mode).getD 0) &&& 0o2000
    let made := files.allocate ⟨.directory, maskedMode host mode ||| inherited, host.euid, 0, 0, [], []⟩
    .ok (⟨⟩, made.modify parent.inode fun node => { node with entries := (name, files.next) :: node.entries })

def renamed (old new : Name) (entry : Name × Nat) : Name × Nat := if entry.1 = old then (new, entry.2) else entry

def renameatNoreplace (parent : Descriptor) (old new : Name) : Calls Errno Unit := systemCall host fun _ files =>
  match files.lookup parent.inode old with
  | none => .error .noent
  | some inode =>
    if (files.lookup parent.inode new).isSome then .error .exist
    else
      let moved := files.modify parent.inode fun node => { node with entries := node.entries.map (renamed old new) }
      .ok (⟨⟩, moved.modify inode fun node => { node with stamp := node.stamp + 1 })

def unlinkat (parent : Descriptor) (name : Name) : Calls Errno Unit := systemCall host fun _ files =>
  match files.lookup parent.inode name with
  | none => .error .noent
  | some inode =>
    let removed := files.modify parent.inode fun node => { node with entries := node.entries.filter fun entry => entry.1 ≠ name }
    .ok (⟨⟩, removed.modify inode fun node => { node with links := node.links - 1, stamp := node.stamp + 1 })

def unlinkatDirectory (parent : Descriptor) (name : Name) : Calls Errno Unit := systemCall host fun _ files =>
  match files.lookup parent.inode name with
  | none => .error .noent
  | some inode =>
    if files.entries inode ≠ [] then .error .notempty
    else .ok (⟨⟩, files.modify parent.inode fun node => { node with entries := node.entries.filter fun entry => entry.1 ≠ name })

end

theorem observe_preserves {α : Type} (host : Host) (read : Nat → FileSystem → Except Errno α) :
    Preserves Machine.files (observe host read) := by
  refine ⟨fun machine => ?_⟩
  rw [show (observe host read).on machine = systemCall host (fun call files => (read call files).map fun value => (value, files)) machine
    from rfl]
  unfold systemCall
  cases host.faults machine.calls with
  | some errno => rfl
  | none =>
    dsimp only
    cases read machine.calls machine.files with
    | ok value => rfl
    | error errno => rfl

theorem keeps {ε α : Type} {program : Calls ε α} (kept : Preserves Machine.files program) (holds : FileSystem → Prop)
    {left : ε → Machine → Prop} (weaker : ∀ failure machine, holds machine.files → left failure machine) :
    Ensures (fun machine => holds machine.files) program (fun _ machine => holds machine.files) left := kept.ensures weaker

theorem keeps_outcome {ε ε' α : Type} {program : Calls ε α} (kept : Preserves Machine.files program) (holds : FileSystem → Prop)
    {left : ε' → Machine → Prop} :
    Ensures (fun machine => holds machine.files) (outcome program) (fun _ machine => holds machine.files) left :=
  Ensures.outcome (kept.ensures fun _ _ holding => holding)

theorem systemCall_ensures {α : Type} {host : Host} {perform : Nat → FileSystem → Except Errno (α × FileSystem)} {holds : FileSystem → Prop}
    {reached : α → FileSystem → Prop}
    (effect : ∀ call files value changed, holds files → perform call files = .ok (value, changed) → reached value changed) :
    Ensures (fun machine => holds machine.files) (systemCall host perform) (fun value machine => reached value machine.files)
      fun _ machine => holds machine.files := by
  refine ⟨fun machine begun => ?_⟩
  show (∃ value final, systemCall host perform machine = _ ∧ _) ∨ ∃ failure final, systemCall host perform machine = _ ∧ _
  unfold systemCall
  cases host.faults machine.calls with
  | some errno => exact .inr ⟨errno, _, rfl, begun⟩
  | none =>
    cases performed : perform machine.calls machine.files with
    | ok result => exact .inl ⟨result.1, _, rfl, effect _ _ _ _ begun performed⟩
    | error errno => exact .inr ⟨errno, _, rfl, begun⟩

theorem observe_ensures {α : Type} {host : Host} {read : Nat → FileSystem → Except Errno α} {holds : FileSystem → Prop} :
    Ensures (fun machine => holds machine.files) (observe host read)
      (fun value machine => holds machine.files ∧ ∃ call, read call machine.files = .ok value) fun _ machine => holds machine.files := by
  unfold observe
  refine @systemCall_ensures α host _ holds (fun value files => holds files ∧ ∃ call, read call files = .ok value)
    fun call files value changed begun performed => ?_
  cases shown : read call files with
  | error errno =>
    rw [shown] at performed
    cases performed
  | ok value' =>
    rw [shown] at performed
    cases performed
    exact ⟨begun, call, shown⟩

end Legitimacy.LinuxOutput
