import Legitimacy.ExceptRun
import Mathlib.Data.Finset.Basic
import Mathlib.Data.List.Lex
import Mathlib.Data.Prod.Lex
import Mathlib.Data.Finset.Dedup
import Mathlib.Data.Finset.Range

namespace CandidateSearch

open ExceptRun

section

variable {ε α κ : Type} {better : α → α → Except ε Bool} {candidates others : List α}

def bestOf (better : α → α → Except ε Bool) : List α → Except ε (Option α)
  | [] => .ok none
  | first :: rest => do
    let best ← rest.foldlM (fun best candidate => do
      let improves ← better candidate best
      .ok (if improves then candidate else best)) first
    .ok (some best)

variable [LinearOrder κ] {key : α → κ}

/-- Among the candidates, to be better is to have the smaller key. -/
def Compares (better : α → α → Except ε Bool) (key : α → κ) (candidates : List α) : Prop :=
  ∀ left ∈ candidates, ∀ right ∈ candidates, better left right = .ok (decide (key left < key right))

theorem exists_foldlM_best (compares : Compares better key candidates) {first : α} {rest : List α} (isFirst : first ∈ candidates)
    (within : ∀ candidate ∈ rest, candidate ∈ candidates) : ∃ best ∈ candidates,
      rest.foldlM (fun best candidate => do
        let improves ← better candidate best
        .ok (if improves then candidate else best)) first = .ok best ∧
      (best = first ∨ best ∈ rest) ∧ key best ≤ key first ∧ ∀ candidate ∈ rest, key best ≤ key candidate := by
  induction rest generalizing first with
  | nil => exact ⟨first, isFirst, rfl, .inl rfl, le_rfl, by simp⟩
  | cons candidate rest ih =>
    have isCandidate := within candidate List.mem_cons_self
    have step := compares candidate isCandidate first isFirst
    have later := fun other listed => within other (List.mem_cons_of_mem candidate listed)
    rw [List.foldlM_cons, step]
    by_cases improves : key candidate < key first
    · obtain ⟨best, isBest, run, place, atMost, least⟩ := ih isCandidate later
      refine ⟨best, isBest, ?_, .inr ?_, atMost.trans improves.le, fun other listed => ?_⟩
      · rw [decide_eq_true improves]
        exact run
      · rcases place with rfl | inRest
        · exact List.mem_cons_self
        · exact List.mem_cons_of_mem candidate inRest
      · rcases List.mem_cons.1 listed with rfl | inRest
        · exact atMost
        · exact least other inRest
    · obtain ⟨best, isBest, run, place, atMost, least⟩ := ih isFirst later
      refine ⟨best, isBest, ?_, place.imp_right (List.mem_cons_of_mem candidate), atMost, fun other listed => ?_⟩
      · rw [decide_eq_false improves]
        exact run
      · rcases List.mem_cons.1 listed with rfl | inRest
        · exact atMost.trans (not_lt.1 improves)
        · exact least other inRest

theorem exists_bestOf (compares : Compares better key candidates) (nonempty : candidates ≠ []) :
    ∃ best ∈ candidates, bestOf better candidates = .ok (some best) ∧ ∀ candidate ∈ candidates, key best ≤ key candidate := by
  obtain ⟨first, rest, rfl⟩ := List.exists_cons_of_ne_nil nonempty
  obtain ⟨best, isBest, run, -, atMost, least⟩ := exists_foldlM_best compares List.mem_cons_self fun _ listed => List.mem_cons_of_mem first listed
  refine ⟨best, isBest, bind_eq_ok.2 ⟨best, run, rfl⟩, fun candidate listed => ?_⟩
  rcases List.mem_cons.1 listed with rfl | later
  · exact atMost
  · exact least candidate later

theorem key_bestOf (compares : Compares better key candidates) (same : ∀ candidate, candidate ∈ others ↔ candidate ∈ candidates) {best other : α}
    (run : bestOf better candidates = .ok (some best)) (otherRun : bestOf better others = .ok (some other)) : key best = key other := by
  have comparesOthers : Compares better key others := fun left isLeft right isRight =>
      compares left ((same left).1 isLeft) right ((same right).1 isRight)
  have nonempty : candidates ≠ [] := by
    rintro rfl
    cases run
  have some : others ≠ [] := by
    rintro rfl
    cases otherRun
  obtain ⟨found, isFound, foundRun, least⟩ := exists_bestOf compares nonempty
  obtain ⟨next, isNext, nextRun, leastNext⟩ := exists_bestOf comparesOthers some
  obtain rfl := Option.some.inj (Except.ok.inj (run.symm.trans foundRun))
  obtain rfl := Option.some.inj (Except.ok.inj (otherRun.symm.trans nextRun))
  exact le_antisymm (least other ((same other).1 isNext)) (leastNext best ((same best).2 isFound))

end

section

variable {nodes : List Nat} {left right side : Finset ℕ}

def Precedes (left right : Finset ℕ) : Prop := ∃ node, (∀ other < node, other ∈ left ↔ other ∈ right) ∧ node ∈ left ∧ node ∉ right

/-- For each number whether it is missing, which is how sets are compared. -/
def absences (nodes : List Nat) (side : Finset ℕ) : List Bool := nodes.map fun node => decide (node ∉ side)

theorem absences_eq_iff : absences nodes left = absences nodes right ↔ ∀ node ∈ nodes, node ∈ left ↔ node ∈ right := by
  unfold absences
  rw [List.map_inj_left]
  simp only [decide_eq_decide, not_iff_not]

theorem absences_lt_iff (ascending : nodes.Pairwise (· < ·)) : absences nodes left < absences nodes right ↔
    ∃ node ∈ nodes, (∀ other ∈ nodes, other < node → (other ∈ left ↔ other ∈ right)) ∧ node ∈ left ∧ node ∉ right := by
  induction ascending with
  | nil => simp [absences]
  | @cons first rest head _ ih =>
    change decide (first ∉ left) :: absences rest left < decide (first ∉ right) :: absences rest right ↔ _
    rw [List.cons_lt_cons_iff, ih]
    constructor
    · rintro (here | ⟨same, node, listed, before, isLeft, notRight⟩)
      · obtain ⟨present, absent⟩ := Bool.lt_iff.1 here
        have isLeft := not_not.1 (of_decide_eq_false present)
        have notRight := of_decide_eq_true absent
        refine ⟨first, List.mem_cons_self, fun other isOther below => ?_, isLeft, notRight⟩
        rcases List.mem_cons.1 isOther with rfl | later
        · exact absurd below (lt_irrefl _)
        · exact absurd below (Nat.lt_asymm (head other later))
      · refine ⟨node, List.mem_cons_of_mem first listed, fun other isOther below => ?_, isLeft, notRight⟩
        rcases List.mem_cons.1 isOther with rfl | later
        · exact not_iff_not.1 (decide_eq_decide.1 same)
        · exact before other later below
    · rintro ⟨node, listed, before, isLeft, notRight⟩
      rcases List.mem_cons.1 listed with rfl | later
      · exact .inl (by simp [isLeft, notRight])
      · refine .inr ⟨decide_eq_decide.2 (not_congr (before first List.mem_cons_self (head node later))), node, later, fun other isOther below => ?_,
          isLeft, notRight⟩
        exact before other (List.mem_cons_of_mem first isOther) below

variable {count : Nat} (isLeft : left ⊆ Finset.range count) (isRight : right ⊆ Finset.range count)

include isLeft isRight

theorem absences_range_inj : absences (List.range count) left = absences (List.range count) right ↔ left = right := by
  rw [absences_eq_iff]
  constructor
  · intro same
    ext node
    by_cases below : node < count
    · exact same node (List.mem_range.2 below)
    · exact iff_of_false (fun member => below (Finset.mem_range.1 (isLeft member))) fun member => below (Finset.mem_range.1 (isRight member))
  · rintro rfl node -
    rfl

omit isRight in
theorem absences_range_lt : absences (List.range count) left < absences (List.range count) right ↔ Precedes left right := by
  rw [absences_lt_iff List.pairwise_lt_range]
  constructor
  · rintro ⟨node, listed, before, inLeft, notRight⟩
    refine ⟨node, fun other below => before other (List.mem_range.2 (below.trans (List.mem_range.1 listed))) below, inLeft, notRight⟩
  · rintro ⟨node, before, inLeft, notRight⟩
    exact ⟨node, List.mem_range.2 (Finset.mem_range.1 (isLeft inLeft)), fun other _ below => before other below, inLeft, notRight⟩

end

end CandidateSearch
