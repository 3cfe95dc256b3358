import Legitimacy.ProcessCapture.Kinship
import Legitimacy.ProcessCapture.Supervision

namespace Legitimacy.ProcessCapture

open Outcomes CodexExec

section

/-- What happens between two operations, and their counting, leave a property alone. -/
structure Stable (holds : Machine → Prop) : Prop where
  happen : ∀ machine move, holds machine → holds (machine.happen move)
  count : ∀ machine calls, holds machine → holds { machine with calls := calls }

variable {α ε : Type} {host : Host} {start : Machine → Prop}

theorem Stable.settle {holds : Machine → Prop} (stable : Stable holds) {machine : Machine} (moves : List Move) (holding : holds machine) :
    holds (machine.settle moves) := by
  unfold Machine.settle
  induction moves generalizing machine with
  | nil => exact holding
  | cons move rest ih => exact ih (stable.happen machine move holding)

theorem Stable.and {holds other : Machine → Prop} (first : Stable holds) (second : Stable other) :
    Stable fun machine => holds machine ∧ other machine where
  happen := fun machine move both => ⟨first.happen machine move both.1, second.happen machine move both.2⟩
  count := fun machine calls both => ⟨first.count machine calls both.1, second.count machine calls both.2⟩

theorem operation_ensures (stable : Stable start) {perform : Machine → Option (α × Machine)} {reached : α → Machine → Prop}
    (effect : ∀ machine value after, start machine → perform machine = some (value, after) → reached value after.note) :
    Ensures start (operation host perform) reached fun _ machine => start machine := by
  refine ⟨fun machine begun => ?_⟩
  have settled := stable.count _ (machine.calls + 1) (stable.settle (host.moves machine.calls) begun)
  show (∃ value final, operation host perform machine = _ ∧ _) ∨ ∃ failure final, operation host perform machine = _ ∧ _
  unfold operation
  dsimp only
  split
  · exact .inr ⟨⟨⟩, _, rfl, settled⟩
  · cases performed : perform { machine.settle (host.moves machine.calls) with calls := machine.calls + 1 } with
    | some result => exact .inl ⟨result.1, _, rfl, effect _ _ _ settled performed⟩
    | none => exact .inr ⟨⟨⟩, _, rfl, settled⟩

theorem act_ensures (stable : Stable start) {perform : Machine → α × Machine} {reached : α → Machine → Prop} {left : ε → Machine → Prop}
    (effect : ∀ machine, start machine → reached (perform machine).1 (perform machine).2.note) :
    Ensures start (act host perform) reached left := by
  refine ⟨fun machine begun => ?_⟩
  have settled := stable.count _ (machine.calls + 1) (stable.settle (host.moves machine.calls) begun)
  exact .inl ⟨_, _, rfl, effect _ settled⟩

theorem own_ensures {read : Machine → α} {left : ε → Machine → Prop} :
    Ensures start (own read) (fun value machine => start machine ∧ read machine = value) left :=
  ⟨fun machine begun => .inl ⟨_, machine, rfl, begun, rfl⟩⟩

theorem assign_ensures {change : Machine → Machine} {reached : Unit → Machine → Prop} {left : ε → Machine → Prop}
    (effect : ∀ machine, start machine → reached ⟨⟩ (change machine).note) : Ensures start (assign change) reached left :=
  ⟨fun machine begun => .inl ⟨_, _, rfl, effect machine begun⟩⟩

theorem succeeds_ensures {program : Calls Unit α} {reached : Machine → Prop} {left : ε → Machine → Prop}
    (ensures : Ensures start program (fun _ machine => reached machine) fun _ machine => reached machine) :
    Ensures start (succeeds program) (fun _ machine => reached machine) left := by
  unfold succeeds
  have tried : Ensures start (outcome program : Calls ε _) (fun _ machine => reached machine) left := Ensures.outcome ensures
  refine tried.bind fun result => ?_
  cases result with
  | ok _ => exact Ensures.pure fun _ holds => holds
  | error _ => exact Ensures.pure fun _ holds => holds

end

/-- Every process of which a pidfd was ever held and that still exists is still held. -/
def Scene.Retains (scene : Scene) : Prop :=
  ∀ identity ∈ scene.held, ∀ process, scene.forest.processes identity = some process → ∃ child ∈ scene.owned, child.pidfd = identity

/-- The held pidfds are of children of the supervisor, each under its number. Those with a number in `loose` are of processes that were
just reaped. -/
structure Scene.Sound (scene : Scene) (loose : List Nat) : Prop where
  known : ∀ child ∈ scene.owned, child.pidfd ∈ scene.held
  older : ∀ identity ∈ scene.held, identity < scene.forest.next
  retains : scene.Retains
  children : ∀ child ∈ scene.owned, child.number ∉ loose → scene.forest.IsChild child.pidfd child.number
  gone : ∀ child ∈ scene.owned, child.number ∈ loose → scene.forest.processes child.pidfd = none
  keys : (scene.owned.map OwnedChild.number).Nodup

/-- The main child is held until its status is known. -/
def MainHeld (main identity : Nat) (loose : List Nat) (owned : List OwnedChild) : Option ExitStatus → Prop
  | none => (⟨main, identity, true⟩ : OwnedChild) ∈ owned ∧ main ∉ loose ∧ ∀ child ∈ owned, child.main = true → child.number = main
  | some _ => ∀ child ∈ owned, child.main = false

/-- A signal to a descendant of the captured child, which has the number under which it was found. -/
def Delivery.Hits (delivery : Delivery) : Prop := delivery.process.captured = true ∧ delivery.process.number = delivery.number

/-- The invariant of the supervisor, from its start to its end. -/
structure Tended (main identity : Nat) (loose : List Nat) (machine : Machine) : Prop where
  scene : machine.scene.Sound loose
  mainHeld : MainHeld main identity loose machine.scene.owned machine.status
  past : ∀ scene ∈ machine.past, scene.Retains
  hits : ∀ delivery ∈ machine.sent, delivery.Hits

section

variable {main identity : Nat} {loose : List Nat}

theorem Scene.Sound.move {scene : Scene} (sound : scene.Sound loose) (move : ProcessMove) :
    ({ scene with forest := scene.forest.move move } : Scene).Sound loose where
  known := sound.known
  older := fun identity held => Nat.lt_of_lt_of_le (sound.older identity held) (scene.forest.next_move move)
  retains := by
    intro identity held process found
    cases before : scene.forest.processes identity with
    | none =>
      have gone := Forest.gone_move (sound.older identity held) before move
      cases gone.symm.trans found
    | some old => exact sound.retains identity held old before
  children := fun child owned firm => (sound.children child owned firm).move move
  gone := fun child owned reaped =>
    Forest.gone_move (sound.older _ (sound.known child owned)) (sound.gone child owned reaped) move
  keys := sound.keys

theorem Tended.note {machine : Machine} (tended : Tended main identity loose machine) : Tended main identity loose machine.note where
  scene := tended.scene
  mainHeld := tended.mainHeld
  past := List.forall_mem_cons.2 ⟨tended.scene.retains, tended.past⟩
  hits := tended.hits

theorem tended_stable (main identity : Nat) (loose : List Nat) : Stable (Tended main identity loose) where
  happen := by
    intro machine move tended
    cases move with
    | process move =>
      refine Tended.note ⟨?_, tended.mainHeld, tended.past, tended.hits⟩
      exact tended.scene.move move
    | worker move => exact ⟨tended.scene, tended.mainHeld, tended.past, tended.hits⟩
  count := fun _ _ tended => ⟨tended.scene, tended.mainHeld, tended.past, tended.hits⟩

theorem owned_stable (owned : List OwnedChild) : Stable fun machine => machine.scene.owned = owned where
  happen := by
    intro machine move same
    cases move with
    | process move => exact same
    | worker move => exact same
  count := fun _ _ same => same

theorem forest_stable {holds : Forest → Prop} (moves : ∀ forest move, holds forest → holds (forest.move move)) :
    Stable fun machine => holds machine.scene.forest where
  happen := by
    intro machine move holding
    cases move with
    | process move => exact moves _ move holding
    | worker move => exact holding
  count := fun _ _ holding => holding

theorem insertOwned_perm (child : OwnedChild) (owned : List OwnedChild) : (insertOwned child owned).Perm (child :: owned) := by
  induction owned with
  | nil => exact List.Perm.refl _
  | cons first rest ih =>
    unfold insertOwned
    split
    · exact List.Perm.refl _
    · exact (ih.cons first).trans (List.Perm.swap child first rest)

theorem mem_insertOwned {child other : OwnedChild} {owned : List OwnedChild} : other ∈ insertOwned child owned ↔ other = child ∨ other ∈ owned :=
  (insertOwned_perm child owned).mem_iff.trans List.mem_cons

theorem notMem_of_not_containsKey {owned : List OwnedChild} {number : Nat} (absent : ¬containsKey owned number = true) :
    number ∉ owned.map OwnedChild.number := by
  intro member
  obtain ⟨child, listed, same⟩ := List.mem_map.1 member
  exact absent (List.any_eq_true.2 ⟨child, listed, decide_eq_true same⟩)

theorem Scene.Sound.adopt {scene : Scene} (sound : scene.Sound []) {number pidfd : Nat} (child : scene.forest.IsChild pidfd number)
    (absent : number ∉ scene.owned.map OwnedChild.number) : (scene.adopt ⟨number, pidfd, false⟩).Sound [] where
  known := by
    intro other member
    rcases mem_insertOwned.1 member with rfl | before
    · exact List.mem_cons_self
    · exact List.mem_cons_of_mem _ (sound.known other before)
  older := List.forall_mem_cons.2 ⟨child.lt_next, sound.older⟩
  retains := by
    intro other held process found
    rcases List.mem_cons.1 held with rfl | before
    · exact ⟨_, mem_insertOwned.2 (.inl rfl), rfl⟩
    · obtain ⟨holder, owned, same⟩ := sound.retains other before process found
      exact ⟨holder, mem_insertOwned.2 (.inr owned), same⟩
  children := by
    intro other member firm
    rcases mem_insertOwned.1 member with rfl | before
    · exact child
    · exact sound.children other before firm
  gone := fun _ _ => nofun
  keys := by
    have listed := (insertOwned_perm ⟨number, pidfd, false⟩ scene.owned).map OwnedChild.number
    exact listed.nodup_iff.2 (List.nodup_cons.2 ⟨absent, sound.keys⟩)

theorem MainHeld.adopt {owned : List OwnedChild} {status : Option ExitStatus} (held : MainHeld main identity [] owned status)
    (number pidfd : Nat) : MainHeld main identity [] (insertOwned ⟨number, pidfd, false⟩ owned) status := by
  cases status with
  | none =>
    refine ⟨mem_insertOwned.2 (.inr held.1), held.2.1, fun other member isMain => ?_⟩
    rcases mem_insertOwned.1 member with rfl | before
    · cases isMain
    · exact held.2.2 other before isMain
  | some status =>
    intro other member
    rcases mem_insertOwned.1 member with rfl | before
    · rfl
    · exact held other before

end

section

variable {host : Host} {main identity : Nat}

theorem pidfdOpen_ensures {start : Machine → Prop} (stable : Stable start) (noted : ∀ machine, start machine → start machine.note)
    (number : Nat) (child : ∀ machine, start machine → ∃ identity, machine.scene.forest.IsChild identity number) :
    Ensures start (pidfdOpen host number) (fun pidfd machine => start machine ∧ machine.scene.forest.IsChild pidfd number)
      fun _ machine => start machine := by
  refine operation_ensures stable fun machine pidfd after begun performed => ?_
  obtain ⟨found, here, same⟩ := Option.map_eq_some_iff.1 performed
  cases same
  obtain ⟨actual, isChild⟩ := child machine begun
  rw [isChild.find] at here
  cases here
  exact ⟨noted machine begun, isChild⟩

structure Opening (main identity : Nat) (numbers : List Nat) (some_ : Prop) (machine : Machine) : Prop where
  tended : Tended main identity [] machine
  listed : ∀ number ∈ numbers, ∃ child, machine.scene.forest.IsChild child number
  held : some_ → machine.scene.owned ≠ []

theorem opening_stable (main identity : Nat) (numbers : List Nat) (some_ : Prop) : Stable (Opening main identity numbers some_) where
  happen := by
    intro machine move opening
    refine ⟨(tended_stable main identity []).happen machine move opening.tended, fun number member => ?_, fun holds => ?_⟩
    · obtain ⟨child, isChild⟩ := opening.listed number member
      exact ⟨child, (@forest_stable (·.IsChild child number) fun _ move isChild => isChild.move move).happen machine move isChild⟩
    · exact (owned_stable machine.scene.owned).happen machine move rfl ▸ opening.held holds
  count := fun _ _ opening => ⟨(tended_stable main identity []).count _ _ opening.tended, opening.listed, opening.held⟩

theorem Opening.note {numbers : List Nat} {some_ : Prop} {machine : Machine} (opening : Opening main identity numbers some_ machine) :
    Opening main identity numbers some_ machine.note := ⟨opening.tended.note, opening.listed, opening.held⟩

theorem Opening.rest {number : Nat} {rest : List Nat} {some_ : Prop} {machine : Machine}
    (opening : Opening main identity (number :: rest) some_ machine) (held : machine.scene.owned ≠ []) :
    Opening main identity rest True machine :=
  ⟨opening.tended, fun other member => opening.listed other (List.mem_cons_of_mem number member), fun _ => held⟩

theorem openMissing_ensures (numbers : List Nat) (some_ : Prop) :
    Ensures (Opening main identity numbers some_) (openMissing host numbers)
      (fun _ machine => Tended main identity [] machine ∧ (some_ ∨ numbers ≠ [] → machine.scene.owned ≠ []))
      fun _ machine => Tended main identity [] machine := by
  induction numbers generalizing some_ with
  | nil => exact Ensures.pure fun machine opening => ⟨opening.tended, fun either => opening.held (either.resolve_right (· rfl))⟩
  | cons number rest ih =>
    unfold openMissing
    have later : Ensures (Opening main identity rest True) (openMissing host rest)
        (fun _ machine => Tended main identity [] machine ∧ (some_ ∨ number :: rest ≠ [] → machine.scene.owned ≠ []))
        fun _ machine => Tended main identity [] machine :=
      (ih True).of_imp (fun _ => id) (fun _ _ opened => ⟨opened.1, fun _ => opened.2 (.inl trivial)⟩) fun _ _ => id
    refine own_ensures.bind fun owned => ?_
    split
    · next present =>
      refine later.of_imp (fun machine opening => ?_) (fun _ _ => id) fun _ _ => id
      obtain ⟨opening, same⟩ := opening
      refine opening.rest fun empty => ?_
      rw [← same, empty] at present
      cases present
    · next absent =>
      have stable := (opening_stable main identity (number :: rest) some_).and (owned_stable owned)
      have opened := @pidfdOpen_ensures host _ stable (fun _ begun => ⟨begun.1.note, begun.2⟩) number
        fun machine begun => begun.1.listed number List.mem_cons_self
      refine (opened.leaving fun _ _ begun => begun.1.tended).bind fun pidfd => ?_
      have adopted : Ensures (fun machine => (Opening main identity (number :: rest) some_ machine ∧ machine.scene.owned = owned) ∧
            machine.scene.forest.IsChild pidfd number)
          (assign fun machine => { machine with scene := machine.scene.adopt ⟨number, pidfd, false⟩ } : Calls Unit Unit)
          (fun _ => Opening main identity rest True) fun _ machine => Tended main identity [] machine := by
        refine assign_ensures fun machine ⟨⟨opening, same⟩, child⟩ => ?_
        have free : number ∉ machine.scene.owned.map OwnedChild.number := same ▸ notMem_of_not_containsKey absent
        have tended : Tended main identity [] { machine with scene := machine.scene.adopt ⟨number, pidfd, false⟩ } :=
          ⟨opening.tended.scene.adopt child free, opening.tended.mainHeld.adopt number pidfd, opening.tended.past, opening.tended.hits⟩
        refine ⟨tended.note, fun other member => opening.listed other (List.mem_cons_of_mem number member), fun _ empty => ?_⟩
        have held : (⟨number, pidfd, false⟩ : OwnedChild) ∈ insertOwned ⟨number, pidfd, false⟩ machine.scene.owned := mem_insertOwned.2 (.inl rfl)
        rw [show insertOwned ⟨number, pidfd, false⟩ machine.scene.owned = [] from empty] at held
        cases held
      exact adopted.bind fun _ => later

theorem observeDirect_ensures :
    Ensures (Tended main identity []) (observeDirect host)
      (fun _ machine => Tended main identity [] machine ∧ (machine.scene.owned = [] → machine.scene.forest.Empty))
      fun _ machine => Tended main identity [] machine := by
  unfold observeDirect
  have listed : Ensures (Tended main identity []) (directChildPids host)
      (fun numbers machine => Opening main identity numbers False machine ∧ machine.scene.forest.childNumbers = numbers)
      fun _ machine => Tended main identity [] machine := by
    refine operation_ensures (tended_stable main identity []) fun machine numbers after tended performed => ?_
    cases performed
    exact ⟨⟨tended.note, fun number member => Forest.mem_childNumbers.1 member, False.elim⟩, rfl⟩
  refine listed.bind fun numbers => ?_
  cases numbers with
  | nil => exact Ensures.pure fun machine ⟨opening, none_⟩ => ⟨opening.tended, fun _ => Forest.empty_of_childless none_⟩
  | cons number rest =>
    refine (openMissing_ensures (number :: rest) False).of_imp (fun _ begun => begun.1) (fun _ machine opened => ?_) fun _ _ => id
    exact ⟨opened.1, fun empty => absurd empty (opened.2 (.inr (List.cons_ne_nil _ _)))⟩

theorem freshAbsence_ensures :
    Ensures (Tended main identity []) (freshAbsence host)
      (fun absent machine => Tended main identity [] machine ∧ (absent = true → machine.scene.forest.Empty))
      fun _ machine => Tended main identity [] machine := by
  unfold freshAbsence
  refine observeDirect_ensures.bind fun _ => ?_
  refine own_ensures.of_imp (fun _ => id) (fun absent machine looked => ?_) fun _ _ => id
  obtain ⟨⟨tended, empty⟩, same⟩ := looked
  refine ⟨tended, fun absence => empty (List.isEmpty_iff.1 ?_)⟩
  exact same.trans absence

end

section

variable {host : Host} {main identity : Nat} {owned : List OwnedChild}

/-- Between two changes of the map it stays what it is. -/
def Tending (main identity : Nat) (loose : List Nat) (owned : List OwnedChild) (machine : Machine) : Prop :=
  Tended main identity loose machine ∧ machine.scene.owned = owned

theorem tending_stable (main identity : Nat) (loose : List Nat) (owned : List OwnedChild) : Stable (Tending main identity loose owned) :=
  (tended_stable main identity loose).and (owned_stable owned)

theorem pidfdSendSignal_ensures {child : OwnedChild} (listed : child ∈ owned) (signal : Signal) :
    Ensures (Tending main identity [] owned) (pidfdSendSignal host child signal) (fun _ => Tending main identity [] owned)
      fun _ => Tending main identity [] owned := by
  refine operation_ensures (tending_stable main identity [] owned) fun machine value after tending performed => ?_
  obtain ⟨tended, same⟩ := tending
  have isChild := tended.scene.children child (same ▸ listed) List.not_mem_nil
  split at performed
  · cases performed
    exact ⟨tended.note, same⟩
  · next process found =>
    cases performed
    have hits := isChild.captured found
    have sent : Tended main identity [] { machine with sent := ⟨signal, child.number, process⟩ :: machine.sent } :=
      ⟨tended.scene, tended.mainHeld, tended.past, List.forall_mem_cons.2 ⟨hits, tended.hits⟩⟩
    exact ⟨sent.note, same⟩

theorem signalLoop_ensures (signal : Signal) (children : List OwnedChild) (listed : children ⊆ owned) (uncertain : Bool) :
    Ensures (Tending main identity [] owned) (signalLoop host signal children uncertain) (fun _ => Tending main identity [] owned)
      fun _ => Tending main identity [] owned := by
  induction children generalizing uncertain with
  | nil => exact Ensures.pure fun _ tending => tending
  | cons child rest ih =>
    unfold signalLoop
    refine (succeeds_ensures (pidfdSendSignal_ensures (listed List.mem_cons_self) signal)).bind fun sent => ?_
    exact ih (fun other member => listed (List.mem_cons_of_mem child member)) _

theorem signalOwned_ensures (signal : Signal) :
    Ensures (Tended main identity []) (signalOwned host signal) (fun _ => Tended main identity []) fun _ => Tended main identity [] := by
  unfold signalOwned
  refine own_ensures.bind fun owned => ?_
  have loop := @signalLoop_ensures host main identity owned signal owned (List.Subset.refl _) false
  refine (loop.leaving fun _ _ tending => tending.1).bind fun uncertain => ?_
  exact (Ensures.require fun _ tending => tending.1).of_imp (fun _ => id) (fun _ _ required => required.2.1) fun _ _ => id

end

section

variable {host : Host} {main identity : Nat} {loose : List Nat}

theorem Scene.Sound.reap {scene : Scene} (sound : scene.Sound loose) {child : OwnedChild} (listed : child ∈ scene.owned)
    (firm : child.number ∉ loose) {process : Process} {status : ExitStatus} (found : scene.forest.processes child.pidfd = some process)
    (zombie : process.life = .zombie status) :
    ({ scene with forest := scene.forest.remove child.pidfd } : Scene).Sound (child.number :: loose) where
  known := sound.known
  older := fun identity held => (Forest.next_remove scene.forest child.pidfd).symm ▸ sound.older identity held
  retains := fun identity held process there => sound.retains identity held process (Forest.mem_of_remove there)
  children := by
    intro other owned loosened
    obtain ⟨different, still⟩ := List.ne_and_not_mem_of_not_mem_cons loosened
    obtain ⟨process, there, supervised, numbered⟩ := sound.children other owned still
    refine ⟨process, ?_, supervised, numbered⟩
    refine (Forest.processes_remove_of_ne scene.forest fun same => ?_).trans there
    have numbers := (sound.children child listed firm).captured (same ▸ there)
    exact different (numbered.symm.trans numbers.2)
  gone := by
    intro other owned loosened
    rcases List.mem_cons.1 loosened with same | before
    · have equal : other = child := List.inj_on_of_nodup_map sound.keys owned listed same
      rw [equal]
      exact Forest.processes_remove_self scene.forest found zombie
    · by_cases same : other.pidfd = child.pidfd
      · rw [same]
        exact Forest.processes_remove_self scene.forest found zombie
      · exact (Forest.processes_remove_of_ne scene.forest same).trans (sound.gone other owned before)
  keys := sound.keys

theorem Scene.Sound.release {scene : Scene} (sound : scene.Sound loose) {owned : List OwnedChild} (kept : owned.Sublist scene.owned)
    (all : ∀ child ∈ scene.owned, child ∈ owned ↔ child.number ∉ loose) : ({ scene with owned := owned } : Scene).Sound [] where
  known := fun child member => sound.known child (kept.subset member)
  older := sound.older
  retains := by
    intro identity held process found
    obtain ⟨child, listed, same⟩ := sound.retains identity held process found
    refine ⟨child, (all child listed).2 fun loosened => ?_, same⟩
    have gone := sound.gone child listed loosened
    rw [same] at gone
    cases gone.symm.trans found
  children := fun child member _ => sound.children child (kept.subset member) ((all child (kept.subset member)).1 member)
  gone := fun _ _ => nofun
  keys := sound.keys.sublist (kept.map _)

theorem Tended.loose_iff {other : List Nat} {machine : Machine} (tended : Tended main identity loose machine)
    (same : ∀ number, number ∈ loose ↔ number ∈ other) : Tended main identity other machine where
  scene := {
    known := tended.scene.known
    older := tended.scene.older
    retains := tended.scene.retains
    children := fun child owned firm => tended.scene.children child owned fun loosened => firm ((same _).1 loosened)
    gone := fun child owned loosened => tended.scene.gone child owned ((same _).2 loosened)
    keys := tended.scene.keys }
  mainHeld := by
    have held := tended.mainHeld
    cases status : machine.status with
    | none =>
      rw [status] at held
      exact ⟨held.1, fun loosened => held.2.1 ((same main).2 loosened), held.2.2⟩
    | some _ =>
      rw [status] at held
      exact held
  past := tended.past
  hits := tended.hits

theorem reapChild_tended {owned : List OwnedChild} {child : OwnedChild} (listed : child ∈ owned) (firm : child.number ∉ loose)
    (adopted : child.main = false) {machine after : Machine} {status : Option ExitStatus} (tending : Tending main identity loose owned machine)
    (performed : reapChild child.pidfd machine = some (status, after)) :
    Tending main identity (if status.isSome then child.number :: loose else loose) owned after := by
  obtain ⟨tended, same⟩ := tending
  have present : child ∈ machine.scene.owned := same ▸ listed
  unfold reapChild at performed
  split at performed
  · cases performed
  · next process found =>
    split at performed
    · cases performed
    · split at performed
      · cases performed
        exact ⟨tended, same⟩
      · next status zombie =>
        cases performed
        refine ⟨⟨tended.scene.reap present firm found zombie, ?_, tended.past, tended.hits⟩, same⟩
        have held := tended.mainHeld
        show MainHeld main identity _ machine.scene.owned machine.status
        cases known : machine.status with
        | some _ =>
          rw [known] at held
          exact held
        | none =>
          rw [known] at held
          refine ⟨held.1, fun loosened => ?_, held.2.2⟩
          rcases List.mem_cons.1 loosened with numbered | before
          · have equal : (⟨main, identity, true⟩ : OwnedChild) = child := List.inj_on_of_nodup_map tended.scene.keys held.1 present numbered
            rw [← equal] at adopted
            cases adopted
          · exact held.2.1 before

theorem waitidPidfd_ensures {owned : List OwnedChild} {child : OwnedChild} (listed : child ∈ owned) (firm : child.number ∉ loose)
    (adopted : child.main = false) :
    Ensures (Tending main identity loose owned) (waitidPidfd host child)
      (fun reaped machine => Tending main identity (if reaped then child.number :: loose else loose) owned machine)
      fun _ => Tending main identity loose owned := by
  refine operation_ensures (tending_stable main identity loose owned) fun machine reaped after tending performed => ?_
  obtain ⟨⟨status, changed⟩, reaping, same⟩ := Option.map_eq_some_iff.1 performed
  cases same
  have tending := reapChild_tended listed firm adopted tending reaping
  exact ⟨tending.1.note, tending.2⟩

theorem reapLoop_ensures {owned : List OwnedChild} (children : List OwnedChild) (listed : children ⊆ owned)
    (distinct : (children.map OwnedChild.number).Nodup) (reaped : List Nat) (firm : ∀ child ∈ children, child.number ∉ reaped) (uncertain : Bool) :
    Ensures (Tending main identity reaped owned) (reapLoop host children reaped uncertain)
      (fun result => Tending main identity result.1 owned) fun _ _ => False := by
  induction children generalizing reaped uncertain with
  | nil => exact Ensures.pure fun _ tending => tending
  | cons child rest ih =>
    have restListed : rest ⊆ owned := fun other member => listed (List.mem_cons_of_mem child member)
    have restDistinct := (List.nodup_cons.1 distinct).2
    have restFirm : ∀ other ∈ rest, other.number ∉ reaped := fun other member => firm other (List.mem_cons_of_mem child member)
    unfold reapLoop
    split
    · exact ih restListed restDistinct reaped restFirm uncertain
    · next adopted =>
      have waited : Ensures (Tending main identity reaped owned) (waitidPidfd host child) _ _ :=
        waitidPidfd_ensures (listed List.mem_cons_self) (firm child List.mem_cons_self) (Bool.eq_false_iff.2 adopted)
      refine waited.tried.bind fun result => ?_
      cases result with
      | error _ => exact ih restListed restDistinct reaped restFirm true
      | ok gone =>
        dsimp only
        cases gone with
        | false => exact ih restListed restDistinct reaped restFirm uncertain
        | true =>
          have later : ∀ other ∈ rest, other.number ∉ reaped ++ [child.number] := by
            intro other member loosened
            rcases List.mem_append.1 loosened with before | same
            · exact restFirm other member before
            · rw [List.mem_singleton] at same
              exact (List.nodup_cons.1 distinct).1 (same ▸ List.mem_map_of_mem member)
          refine (ih restListed restDistinct _ later uncertain).of_imp (fun machine tending => ⟨tending.1.loose_iff fun number => ?_, tending.2⟩)
            (fun _ _ => id) fun _ _ => id
          rw [if_pos rfl, List.mem_cons, List.mem_append, List.mem_singleton, or_comm]

theorem reapAdopted_ensures :
    Ensures (Tended main identity []) (reapAdopted host) (fun _ => Tended main identity []) fun _ => Tended main identity [] := by
  unfold reapAdopted
  refine own_ensures.bind fun owned => ?_
  refine Ensures.of_start (fun machine begun => begun.2 ▸ begun.1.scene.keys) fun distinct => ?_
  have loop := @reapLoop_ensures host main identity owned owned (List.Subset.refl _) distinct [] (fun _ _ => List.not_mem_nil) false
  refine (loop.leaving fun _ _ => False.elim).bind fun result => ?_
  obtain ⟨reaped, uncertain⟩ := result
  have released : Ensures (Tending main identity reaped owned)
      (assign fun machine => { machine with scene := machine.scene.forgetReaped reaped } : Calls Unit Unit)
      (fun _ => Tended main identity []) fun _ => Tended main identity [] := by
    refine assign_ensures fun machine ⟨tended, _⟩ => ?_
    have sound := tended.scene.release (List.filter_sublist (p := fun child => child.number ∉ reaped)) fun child member => by
      rw [List.mem_filter]
      simp [member]
    have kept : Tended main identity [] { machine with scene := machine.scene.forgetReaped reaped } := by
      refine ⟨sound, ?_, tended.past, tended.hits⟩
      have held := tended.mainHeld
      show MainHeld main identity [] _ machine.status
      cases known : machine.status with
      | none =>
        rw [known] at held
        refine ⟨List.mem_filter.2 ⟨held.1, decide_eq_true held.2.1⟩, List.not_mem_nil, fun child member => ?_⟩
        exact held.2.2 child (List.mem_filter.1 member).1
      | some _ =>
        rw [known] at held
        exact fun child member => held child (List.mem_filter.1 member).1
    exact kept.note
  refine released.bind fun _ => ?_
  exact (Ensures.require fun _ tended => tended).of_imp (fun _ => id) (fun _ _ required => required.2) fun _ _ => id

end

end Legitimacy.ProcessCapture
