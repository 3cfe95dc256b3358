import Legitimacy.ProcessCapture.Forest

namespace Legitimacy.ProcessCapture

/-- A child of the supervisor with its number. -/
def Forest.IsChild (forest : Forest) (identity number : Nat) : Prop :=
  ∃ process, forest.processes identity = some process ∧ process.parent = .supervisor ∧ process.number = number

/-- The supervisor is the parent of a process, or of its parent, and so on. -/
inductive Forest.Below (forest : Forest) : Nat → Prop
  | child {identity number : Nat} : forest.IsChild identity number → Below forest identity
  | next {identity parent : Nat} {process : Process} : forest.processes identity = some process → process.parent = .process parent →
      Below forest parent → Below forest identity

/-- No descendant of the captured child exists. -/
def Forest.Empty (forest : Forest) : Prop := ∀ identity process, forest.processes identity = some process → process.captured = false

namespace Forest

variable {forest : Forest} {identity number : Nat}

theorem IsChild.lt_next (child : forest.IsChild identity number) : identity < forest.next := by
  obtain ⟨process, found, -⟩ := child
  exact forest.sound.lt_next found

theorem IsChild.captured (child : forest.IsChild identity number) {process : Process} (found : forest.processes identity = some process) :
    process.captured = true ∧ process.number = number := by
  obtain ⟨same, there, supervised, numbered⟩ := child
  cases there.symm.trans found
  have held := forest.sound.lineage identity process found
  unfold Lineage at held
  rw [supervised] at held
  exact ⟨held, numbered⟩

theorem find_of_exists {process : Process} (found : forest.processes identity = some process) : forest.find process.number = some identity := by
  have listed : identity ∈ List.range forest.next := List.mem_range.2 (forest.sound.lt_next found)
  have hit : ((forest.processes identity).any fun other => other.number = process.number) = true := by
    rw [found, Option.any_some]
    exact decide_eq_true rfl
  cases first : forest.find process.number with
  | none => exact absurd hit (List.find?_eq_none.1 first identity listed)
  | some other =>
    have same := List.find?_some first
    cases there : forest.processes other with
    | none =>
      rw [there] at same
      cases same
    | some twin =>
      rw [there, Option.any_some] at same
      rw [forest.sound.numbered other identity twin process there found (of_decide_eq_true same)]

theorem IsChild.find (child : forest.IsChild identity number) : forest.find number = some identity := by
  obtain ⟨process, found, -, rfl⟩ := child
  exact find_of_exists found

theorem mem_childNumbers : number ∈ forest.childNumbers ↔ ∃ identity, forest.IsChild identity number := by
  unfold childNumbers
  rw [List.mem_filterMap]
  constructor
  · rintro ⟨identity, -, listed⟩
    split at listed
    · cases listed
    · next process found =>
      split at listed
      · next supervised =>
        cases listed
        exact ⟨identity, process, found, supervised, rfl⟩
      · cases listed
  · rintro ⟨identity, process, found, supervised, rfl⟩
    refine ⟨identity, List.mem_range.2 (forest.sound.lt_next found), ?_⟩
    rw [found]
    dsimp only
    rw [if_pos supervised]

theorem below_of_captured {process : Process} (found : forest.processes identity = some process) (captured : process.captured = true) :
    forest.Below identity := by
  induction identity using Nat.strongRecOn generalizing process with
  | ind identity ih =>
    have held := forest.sound.lineage identity process found
    unfold Lineage at held
    cases source : process.parent with
    | supervisor => exact .child ⟨process, found, source, rfl⟩
    | outside =>
      rw [source] at held
      rw [captured] at held
      cases held
    | process parent =>
      rw [source] at held
      obtain ⟨lower, above, there, -, kin⟩ := held
      exact .next found source (ih parent lower there (kin.trans captured))

theorem empty_of_childless (childless : forest.childNumbers = []) : forest.Empty := by
  intro identity process found
  cases captured : process.captured with
  | false => rfl
  | true =>
    have below := below_of_captured found captured
    clear found captured
    induction below with
    | child here =>
      have listed := mem_childNumbers.2 ⟨_, here⟩
      rw [childless] at listed
      cases listed
    | next _ _ _ ih => exact ih

section

theorem processes_fork (forest : Forest) (parent number : Nat) {identity : Nat} (old : identity < forest.next) :
    (forest.fork parent number).processes identity = forest.processes identity := by
  unfold fork
  split
  · rfl
  · split
    · split
      · rfl
      · exact if_neg (by omega)
    · rfl

theorem next_fork (forest : Forest) (parent number : Nat) : forest.next ≤ (forest.fork parent number).next := by
  unfold fork
  split
  · exact Nat.le_refl _
  · split
    · split
      · exact Nat.le_refl _
      · exact Nat.le_succ _
    · exact Nat.le_refl _

theorem next_exit (forest : Forest) (identity : Nat) (status : ExitStatus) : (forest.exit identity status).next = forest.next := by
  unfold exit
  split
  · rfl
  · split <;> rfl

theorem next_remove (forest : Forest) (identity : Nat) : (forest.remove identity).next = forest.next := by
  unfold remove
  split
  · rfl
  · split <;> rfl

theorem next_collect (forest : Forest) (identity : Nat) : (forest.collect identity).next = forest.next := by
  unfold collect
  split
  · rfl
  · split
    · rfl
    · exact next_remove forest identity

theorem processes_remove_of_ne (forest : Forest) {identity other : Nat} (different : other ≠ identity) :
    (forest.remove identity).processes other = forest.processes other := by
  unfold remove
  split
  · rfl
  · split
    · rfl
    · exact if_neg different

theorem processes_remove_self (forest : Forest) {process : Process} {status : ExitStatus} (found : forest.processes identity = some process)
    (zombie : process.life = .zombie status) : (forest.remove identity).processes identity = none := by
  unfold remove
  split
  · next none_ => exact none_
  · next there =>
    cases found.symm.trans there
    split
    · next running =>
      rw [zombie] at running
      cases running
    · exact if_pos rfl

theorem next_move (forest : Forest) (move : ProcessMove) : forest.next ≤ (forest.move move).next := by
  cases move with
  | fork parent number => exact next_fork forest parent number
  | exit identity status => exact Nat.le_of_eq (next_exit forest identity status).symm
  | collect identity => exact Nat.le_of_eq (next_collect forest identity).symm

theorem IsChild.move (child : forest.IsChild identity number) (move : ProcessMove) : (forest.move move).IsChild identity number := by
  obtain ⟨process, found, supervised, numbered⟩ := child
  cases move with
  | fork parent fresh =>
    refine ⟨process, ?_, supervised, numbered⟩
    exact (processes_fork forest parent fresh (forest.sound.lt_next found)).trans found
  | exit other status =>
    show (forest.exit other status).IsChild identity number
    unfold exit
    split
    · exact ⟨process, found, supervised, numbered⟩
    · split
      · refine ⟨if identity = other then { process with life := .zombie status } else orphaned other process, ?_, ?_, ?_⟩
        · show exited forest.processes other status identity = _
          unfold exited
          rw [found, Option.map_some]
        · split
          · exact supervised
          · unfold orphaned
            rw [supervised, if_neg nofun]
            exact supervised
        · split
          · exact numbered
          · unfold orphaned
            rw [supervised, if_neg nofun]
            exact numbered
      · exact ⟨process, found, supervised, numbered⟩
  | collect other =>
    show (forest.collect other).IsChild identity number
    unfold collect
    split
    · exact ⟨process, found, supervised, numbered⟩
    · next twin there =>
      split
      · exact ⟨process, found, supervised, numbered⟩
      · next unsupervised =>
        refine ⟨process, ?_, supervised, numbered⟩
        refine (processes_remove_of_ne forest ?_).trans found
        intro same
        rw [same] at found
        cases found.symm.trans there
        exact unsupervised supervised

/-- A process that is gone does not come back. -/
theorem gone_move (old : identity < forest.next) (gone : forest.processes identity = none) (move : ProcessMove) :
    (forest.move move).processes identity = none := by
  cases move with
  | fork parent number => exact (processes_fork forest parent number old).trans gone
  | exit other status =>
    show (forest.exit other status).processes identity = none
    unfold exit
    split
    · exact gone
    · split
      · show exited forest.processes other status identity = none
        unfold exited
        rw [gone]
        rfl
      · exact gone
  | collect other =>
    show (forest.collect other).processes identity = none
    unfold collect
    split
    · exact gone
    · next process found =>
      split
      · exact gone
      · refine (processes_remove_of_ne forest ?_).trans gone
        rintro rfl
        rw [gone] at found
        cases found

theorem mem_of_remove {other : Nat} {process : Process} (found : (forest.remove identity).processes other = some process) :
    forest.processes other = some process := by
  by_cases same : other = identity
  · subst same
    unfold remove at found
    split at found
    · exact found
    · split at found
      · exact found
      · cases (if_pos rfl).symm.trans found
  · rwa [processes_remove_of_ne forest same] at found

theorem Empty.remove (empty : forest.Empty) (identity : Nat) : (forest.remove identity).Empty :=
  fun other process found => empty other process (mem_of_remove found)

/-- Nobody is left to fork another descendant. -/
theorem Empty.move (empty : forest.Empty) (move : ProcessMove) : (forest.move move).Empty := by
  intro identity process found
  cases move with
  | fork parent number =>
    change (forest.fork parent number).processes identity = some process at found
    unfold fork at found
    split at found
    · exact empty identity process found
    · next above there =>
      split at found
      · split at found
        · exact empty identity process found
        · change forked forest.processes forest.next _ identity = some process at found
          unfold forked at found
          split at found
          · cases found
            exact empty parent above there
          · exact empty identity process found
      · exact empty identity process found
  | exit other status =>
    change (forest.exit other status).processes identity = some process at found
    unfold exit at found
    split at found
    · exact empty identity process found
    · split at found
      · obtain ⟨before, there, rfl⟩ := Option.map_eq_some_iff.1 (show (forest.processes identity).map _ = some process from found)
        have free := empty identity before there
        split
        · exact free
        · unfold orphaned
          split <;> exact free
      · exact empty identity process found
  | collect other =>
    change (forest.collect other).processes identity = some process at found
    unfold collect at found
    split at found
    · exact empty identity process found
    · split at found
      · exact empty identity process found
      · exact empty.remove other identity process found

end

end Forest

end Legitimacy.ProcessCapture
