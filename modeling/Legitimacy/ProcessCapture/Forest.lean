import Mathlib.Data.List.Nodup
import Mathlib.Tactic.Common

namespace Legitimacy.ProcessCapture

inductive ExitStatus
  | code (value : Nat)
  | signal (number : Nat) (coreDumped : Bool)
deriving DecidableEq

inductive Life
  | running
  | zombie (status : ExitStatus)
deriving DecidableEq

/-- A parent is the supervisor, another process, or one that does not matter here. -/
inductive Parent
  | supervisor
  | process (identity : Nat)
  | outside
deriving DecidableEq

/-- A process has a number as long as it exists. Whether it descends from the captured child never changes. -/
structure Process where
  number : Nat
  parent : Parent
  life : Life
  captured : Bool
deriving DecidableEq

/-- What a process owes to its parent: captured processes are below the supervisor, and parents run. -/
def Lineage (processes : Nat → Option Process) (identity : Nat) (process : Process) : Prop :=
  match process.parent with
  | .supervisor => process.captured = true
  | .outside => process.captured = false
  | .process parent => parent < identity ∧ ∃ above, processes parent = some above ∧ above.life = .running ∧ above.captured = process.captured

structure WellFormed (processes : Nat → Option Process) (next : Nat) : Prop where
  fresh : ∀ identity, next ≤ identity → processes identity = none
  numbered : ∀ identity other process twin, processes identity = some process → processes other = some twin →
    process.number = twin.number → identity = other
  lineage : ∀ identity process, processes identity = some process → Lineage processes identity process

/-- Identities are given once; numbers are given again when their process is gone. -/
structure Forest where
  processes : Nat → Option Process
  next : Nat
  sound : WellFormed processes next

section

variable {processes : Nat → Option Process} {next : Nat}

def forked (processes : Nat → Option Process) (next : Nat) (child : Process) : Nat → Option Process := fun identity =>
  if identity = next then some child else processes identity

def orphaned (identity : Nat) (process : Process) : Process :=
  if process.parent = .process identity then { process with parent := if process.captured then .supervisor else .outside } else process

def exited (processes : Nat → Option Process) (identity : Nat) (status : ExitStatus) : Nat → Option Process := fun other =>
  (processes other).map fun process =>
    if other = identity then { process with life := .zombie status } else orphaned identity process

def removed (processes : Nat → Option Process) (identity : Nat) : Nat → Option Process := fun other =>
  if other = identity then none else processes other

theorem WellFormed.lt_next (sound : WellFormed processes next) {identity : Nat} {process : Process}
    (found : processes identity = some process) : identity < next := by
  by_contra above
  rw [sound.fresh identity (by omega)] at found
  cases found

theorem WellFormed.fork (sound : WellFormed processes next) {parent number : Nat} {above : Process} (found : processes parent = some above)
    (running : above.life = .running) (free : ∀ identity process, processes identity = some process → process.number ≠ number) :
    WellFormed (forked processes next ⟨number, .process parent, .running, above.captured⟩) (next + 1) := by
  have below := sound.lt_next found
  refine ⟨fun identity high => ?_, fun identity other process twin first second same => ?_, fun identity process here => ?_⟩
  · unfold forked
    rw [if_neg (by omega), sound.fresh identity (by omega)]
  · unfold forked at first second
    split at first <;> split at second
    · next left right => exact left.trans right.symm
    · cases first
      exact absurd same.symm (free other twin second)
    · cases second
      exact absurd same (free identity process first)
    · exact sound.numbered identity other process twin first second same
  · unfold forked at here
    split at here
    · next newest =>
      subst newest
      cases here
      refine ⟨below, above, ?_, running, rfl⟩
      unfold forked
      rw [if_neg (by omega), found]
    · have held := sound.lineage identity process here
      unfold Lineage at held ⊢
      cases source : process.parent with
      | supervisor =>
        rw [source] at held
        exact held
      | outside =>
        rw [source] at held
        exact held
      | process higher =>
        rw [source] at held
        obtain ⟨lower, top, there, rest⟩ := held
        refine ⟨lower, top, ?_, rest⟩
        have bounded := sound.lt_next there
        unfold forked
        rw [if_neg (by omega), there]

theorem WellFormed.exit (sound : WellFormed processes next) {identity : Nat} (status : ExitStatus) :
    WellFormed (exited processes identity status) next := by
  have number : ∀ other process, (if other = identity then { process with life := .zombie status } else orphaned identity process).number =
      process.number := by
    intro other process
    split
    · rfl
    · unfold orphaned
      split <;> rfl
  refine ⟨fun other high => ?_, fun first second process twin atFirst atSecond same => ?_, fun other process here => ?_⟩
  · unfold exited
    rw [sound.fresh other high]
    rfl
  · obtain ⟨before, found, rfl⟩ := Option.map_eq_some_iff.1 atFirst
    obtain ⟨behind, there, rfl⟩ := Option.map_eq_some_iff.1 atSecond
    rw [number, number] at same
    exact sound.numbered first second before behind found there same
  · obtain ⟨before, found, rfl⟩ := Option.map_eq_some_iff.1 here
    have held := sound.lineage other before found
    have parents : ∀ higher, higher ≠ identity → (∃ above, processes higher = some above ∧ above.life = .running ∧ above.captured = before.captured) →
        ∃ above, exited processes identity status higher = some above ∧ above.life = .running ∧ above.captured = before.captured := by
      rintro higher different ⟨above, there, running, kin⟩
      refine ⟨orphaned identity above, ?_, ?_, ?_⟩
      · unfold exited
        rw [there, Option.map_some, if_neg different]
      · unfold orphaned
        split <;> exact running
      · unfold orphaned
        split <;> exact kin
    have kept : ∀ after : Process, after.parent = before.parent → after.captured = before.captured → before.parent ≠ .process identity →
        Lineage (exited processes identity status) other after := by
      intro after sameParent sameKin different
      unfold Lineage at held ⊢
      rw [sameParent, sameKin]
      cases source : before.parent with
      | supervisor =>
        rw [source] at held
        exact held
      | outside =>
        rw [source] at held
        exact held
      | process higher =>
        rw [source] at held different
        exact ⟨held.1, parents higher (fun same => different (congrArg Parent.process same)) held.2⟩
    by_cases same : other = identity
    · rw [if_pos same]
      refine kept _ rfl rfl fun source => ?_
      unfold Lineage at held
      rw [source] at held
      omega
    · rw [if_neg same]
      unfold orphaned
      by_cases child : before.parent = .process identity
      · rw [if_pos child]
        cases kin : before.captured with
        | true =>
          rw [if_pos rfl]
          exact (rfl : true = true)
        | false =>
          rw [if_neg Bool.false_ne_true]
          exact (rfl : false = false)
      · rw [if_neg child]
        exact kept before rfl rfl child

/-- A zombie has no children, so that it can go. -/
theorem WellFormed.remove (sound : WellFormed processes next) {identity : Nat} {process : Process} {status : ExitStatus}
    (found : processes identity = some process) (zombie : process.life = .zombie status) : WellFormed (removed processes identity) next := by
  have left : ∀ {other twin}, removed processes identity other = some twin → other ≠ identity ∧ processes other = some twin := by
    intro other twin here
    unfold removed at here
    split at here
    · cases here
    · next different => exact ⟨different, here⟩
  refine ⟨fun other high => ?_, fun first second one another atFirst atSecond same => ?_, fun other kept here => ?_⟩
  · unfold removed
    rw [sound.fresh other high, ite_self]
  · exact sound.numbered first second one another (left atFirst).2 (left atSecond).2 same
  · have held := sound.lineage other kept (left here).2
    unfold Lineage at held ⊢
    cases source : kept.parent with
    | supervisor =>
      rw [source] at held
      exact held
    | outside =>
      rw [source] at held
      exact held
    | process higher =>
      rw [source] at held
      obtain ⟨lower, above, there, running, kin⟩ := held
      refine ⟨lower, above, ?_, running, kin⟩
      unfold removed
      rw [if_neg, there]
      intro same
      rw [same, found] at there
      cases there
      rw [zombie] at running
      cases running

end

namespace Forest

def inUse (forest : Forest) (number : Nat) : Bool :=
  (List.range forest.next).any fun identity => (forest.processes identity).any fun process => process.number = number

theorem free_of_not_inUse {forest : Forest} {number : Nat} (free : ¬forest.inUse number = true) {identity : Nat} {process : Process}
    (found : forest.processes identity = some process) : process.number ≠ number := by
  intro same
  refine free (List.any_eq_true.2 ⟨identity, List.mem_range.2 (forest.sound.lt_next found), ?_⟩)
  rw [found, Option.any_some]
  exact decide_eq_true same

def fork (forest : Forest) (parent number : Nat) : Forest :=
  match found : forest.processes parent with
  | none => forest
  | some above =>
    if running : above.life = .running then
      if free : forest.inUse number then forest
      else ⟨forked forest.processes forest.next ⟨number, .process parent, .running, above.captured⟩, forest.next + 1,
        forest.sound.fork found running fun _ _ there => free_of_not_inUse free there⟩
    else forest

def exit (forest : Forest) (identity : Nat) (status : ExitStatus) : Forest :=
  match forest.processes identity with
  | none => forest
  | some process =>
    if process.life = .running then ⟨exited forest.processes identity status, forest.next, forest.sound.exit status⟩ else forest

def remove (forest : Forest) (identity : Nat) : Forest :=
  match found : forest.processes identity with
  | none => forest
  | some process =>
    match zombie : process.life with
    | .running => forest
    | .zombie _ => ⟨removed forest.processes identity, forest.next, forest.sound.remove found zombie⟩

def collect (forest : Forest) (identity : Nat) : Forest :=
  match forest.processes identity with
  | none => forest
  | some process => if process.parent = .supervisor then forest else forest.remove identity

def childNumbers (forest : Forest) : List Nat :=
  (List.range forest.next).filterMap fun identity =>
    match forest.processes identity with
    | none => none
    | some process => if process.parent = .supervisor then some process.number else none

def find (forest : Forest) (number : Nat) : Option Nat :=
  (List.range forest.next).find? fun identity => (forest.processes identity).any fun process => process.number = number

end Forest

/-- What the captured processes and the others do on their own. -/
inductive ProcessMove
  | fork (parent number : Nat)
  | exit (identity : Nat) (status : ExitStatus)
  | collect (identity : Nat)

def Forest.move (forest : Forest) : ProcessMove → Forest
  | .fork parent number => forest.fork parent number
  | .exit identity status => forest.exit identity status
  | .collect identity => forest.collect identity

end Legitimacy.ProcessCapture
