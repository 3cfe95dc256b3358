import Mathlib.Algebra.Order.Field.Basic
import Mathlib.Data.List.Induction

namespace HighestAverages

variable {K : Type} [Field K] [LinearOrder K] {tolerance : K} {divisor : Nat → K} {strengths : List K}

def better (tolerance : K) (best : Option (Nat × K)) (candidate : K × Nat) : Option (Nat × K) :=
  match best with
  | none => some (candidate.2, candidate.1)
  | some (index, quotient) =>
    if quotient + tolerance < candidate.1 then some (candidate.2, candidate.1) else some (index, quotient)

def scan (tolerance : K) (quotients : List K) : Option (Nat × K) := quotients.zipIdx.foldl (better tolerance) none

def quotients (divisor : Nat → K) (strengths : List K) (awarded : List Nat) : List K :=
  strengths.zipWith (fun strength count => strength / divisor count) awarded

def awardSeat (tolerance : K) (divisor : Nat → K) (strengths : List K) (awarded : List Nat) : List Nat :=
  match scan tolerance (quotients divisor strengths awarded) with
  | some (index, _) => awarded.modify index (· + 1)
  | none => awarded

def award (tolerance : K) (divisor : Nat → K) (strengths : List K) : Nat → List Nat
  | 0 => List.replicate strengths.length 0
  | seats + 1 => awardSeat tolerance divisor strengths (award tolerance divisor strengths seats)

/-- No party's next seat has a larger average than a seat that was awarded. -/
def MinMax (divisor : Nat → K) (strengths : List K) (awarded : List Nat) : Prop :=
  ∀ (i j : Nat) (strength other : K) (count seats : Nat), strengths[i]? = some strength → awarded[i]? = some count →
    strengths[j]? = some other → awarded[j]? = some (seats + 1) → strength / divisor count ≤ other / divisor seats

/-- What the scan guarantees: an entry that beats all entries before it, and no entry beats it by more than the tolerance. -/
structure Picks (tolerance : K) (quotients : List K) (index : Nat) (quotient : K) : Prop where
  entry : quotients[index]? = some quotient
  first : ∀ earlier < index, ∀ other, quotients[earlier]? = some other → other < quotient
  most : ∀ other ∈ quotients, other ≤ quotient + tolerance

theorem scan_append (tolerance : K) (quotients : List K) (last : K) :
    scan tolerance (quotients ++ [last]) = better tolerance (scan tolerance quotients) (last, quotients.length) := by
  simp [scan, List.zipIdx_append]

theorem exists_scan (tolerance : K) {quotients : List K} (nonempty : quotients ≠ []) :
    ∃ index quotient, scan tolerance quotients = some (index, quotient) := by
  rcases List.eq_nil_or_concat quotients with none | ⟨front, last, split⟩
  · exact absurd none nonempty
  · rw [split, List.concat_eq_append, scan_append]
    unfold better
    split
    · exact ⟨_, _, rfl⟩
    · split
      · exact ⟨_, _, rfl⟩
      · exact ⟨_, _, rfl⟩

variable {index : Nat}

theorem scan_picks [IsStrictOrderedRing K] (tolerant : 0 ≤ tolerance) {quotients : List K} {quotient : K}
    (picked : scan tolerance quotients = some (index, quotient)) : Picks tolerance quotients index quotient := by
  induction quotients using List.reverseRecOn generalizing index quotient with
  | nil => cases picked
  | append_singleton front last ih =>
    have lastEntry : (front ++ [last])[front.length]? = some last := by simp
    rw [scan_append] at picked
    cases before : scan tolerance front with
    | none =>
      have start : front = [] := by
        by_contra nonempty
        obtain ⟨kept, value, some⟩ := exists_scan tolerance nonempty
        rw [before] at some
        cases some
      rw [before] at picked
      subst start
      obtain ⟨rfl, rfl⟩ : 0 = index ∧ last = quotient := by simpa [better] using picked
      refine ⟨lastEntry, fun earlier below => absurd below (Nat.not_lt_zero _), fun other listed => ?_⟩
      rw [List.mem_singleton.1 listed]
      exact le_add_of_nonneg_right tolerant
    | some kept =>
      obtain ⟨keptIndex, keptQuotient⟩ := kept
      have earlierPick := ih before
      have inFront : keptIndex < front.length := (List.getElem?_eq_some_iff.1 earlierPick.entry).1
      rw [before] at picked
      unfold better at picked
      dsimp only at picked
      by_cases replaces : keptQuotient + tolerance < last
      · rw [if_pos replaces] at picked
        obtain ⟨rfl, rfl⟩ : front.length = index ∧ last = quotient := by simpa using picked
        refine ⟨lastEntry, fun earlier below other atEarlier => ?_, fun other listed => ?_⟩
        · rw [List.getElem?_append_left below] at atEarlier
          exact lt_of_le_of_lt (earlierPick.most other (List.mem_of_getElem? atEarlier)) replaces
        · rcases List.mem_append.1 listed with earlier | atLast
          · exact (earlierPick.most other earlier).trans (replaces.le.trans (le_add_of_nonneg_right tolerant))
          · rw [List.mem_singleton.1 atLast]
            exact le_add_of_nonneg_right tolerant
      · rw [if_neg replaces] at picked
        obtain ⟨rfl, rfl⟩ : keptIndex = index ∧ keptQuotient = quotient := by simpa using picked
        refine ⟨?_, fun earlier below other atEarlier => ?_, fun other listed => ?_⟩
        · rw [List.getElem?_append_left inFront]
          exact earlierPick.entry
        · rw [List.getElem?_append_left (below.trans inFront)] at atEarlier
          exact earlierPick.first earlier below other atEarlier
        · rcases List.mem_append.1 listed with earlier | atLast
          · exact earlierPick.most other earlier
          · rw [List.mem_singleton.1 atLast]
            exact not_lt.1 replaces

theorem Picks.unique {quotients : List K} {other : K} {left right : Nat} {first second : K}
    (leftPick : Picks tolerance quotients left first) (rightPick : Picks other quotients right second)
    (leftLargest : ∀ entry ∈ quotients, entry ≤ first) (rightLargest : ∀ entry ∈ quotients, entry ≤ second) :
    (left, first) = (right, second) := by
  have same : first = second :=
    le_antisymm (rightLargest first (List.mem_of_getElem? leftPick.entry)) (leftLargest second (List.mem_of_getElem? rightPick.entry))
  subst same
  rcases lt_trichotomy left right with before | equal | after
  · exact absurd (rightPick.first left before first leftPick.entry) (lt_irrefl _)
  · rw [equal]
  · exact absurd (leftPick.first right after first rightPick.entry) (lt_irrefl _)

theorem scan_largest [IsStrictOrderedRing K] {quotients : List K} {quotient : K}
    (picked : scan 0 quotients = some (index, quotient)) :
    ∀ entry ∈ quotients, entry ≤ quotient := fun entry listed => by
  simpa using (scan_picks le_rfl picked).most entry listed

theorem length_awardSeat (tolerance : K) (divisor : Nat → K) (strengths : List K) (awarded : List Nat) :
    (awardSeat tolerance divisor strengths awarded).length = awarded.length := by
  unfold awardSeat
  split
  · exact List.length_modify _ _ _
  · rfl

@[simp]
theorem length_award (tolerance : K) (divisor : Nat → K) (strengths : List K) (seats : Nat) :
    (award tolerance divisor strengths seats).length = strengths.length := by
  induction seats with
  | zero => exact List.length_replicate
  | succ seats ih => exact (length_awardSeat _ _ _ _).trans ih

variable {awarded : List Nat}

theorem exists_awardSeat [IsStrictOrderedRing K] (tolerant : 0 ≤ tolerance) (parties : strengths ≠ []) (divisor : Nat → K)
    (sized : awarded.length = strengths.length) :
    ∃ index quotient, scan tolerance (quotients divisor strengths awarded) = some (index, quotient) ∧
      index < awarded.length ∧ awardSeat tolerance divisor strengths awarded = awarded.modify index (· + 1) := by
  have length : (quotients divisor strengths awarded).length = strengths.length := by simp [quotients, sized]
  have candidates : quotients divisor strengths awarded ≠ [] := by
    intro none
    rw [none] at length
    exact parties (List.length_eq_zero_iff.1 length.symm)
  obtain ⟨index, quotient, picked⟩ := exists_scan tolerance candidates
  have inside := (List.getElem?_eq_some_iff.1 (scan_picks tolerant picked).entry).1
  refine ⟨index, quotient, picked, by omega, ?_⟩
  unfold awardSeat
  rw [picked]

theorem sum_modify {counts : List Nat} (inside : index < counts.length) :
    (counts.modify index (· + 1)).sum = counts.sum + 1 := by
  induction counts generalizing index with
  | nil => simp at inside
  | cons count rest ih =>
    cases index with
    | zero => simp; omega
    | succ index =>
      have later := ih (Nat.lt_of_succ_lt_succ inside)
      simp only [List.modify_succ_cons, List.sum_cons, later]
      omega

theorem sum_award [IsStrictOrderedRing K] (tolerant : 0 ≤ tolerance) (parties : strengths ≠ []) (seats : Nat) :
    (award tolerance divisor strengths seats).sum = seats := by
  induction seats with
  | zero => simp [award]
  | succ seats ih =>
    have sized := length_award tolerance divisor strengths seats
    obtain ⟨index, -, -, inside, step⟩ := exists_awardSeat tolerant parties divisor sized
    rw [award, step, sum_modify inside, ih]

omit [LinearOrder K] in
theorem quotient_at {quotient : K} (entry : (quotients divisor strengths awarded)[index]? = some quotient) :
    ∃ strength count, strengths[index]? = some strength ∧ awarded[index]? = some count ∧ quotient = strength / divisor count := by
  obtain ⟨strength, count, atStrength, atCount, value⟩ := List.getElem?_zipWith_eq_some.1 entry
  exact ⟨strength, count, atStrength, atCount, value.symm⟩

omit [LinearOrder K] in
theorem mem_quotients {count : Nat} {strength : K} (atStrength : strengths[index]? = some strength)
    (atCount : awarded[index]? = some count) : strength / divisor count ∈ quotients divisor strengths awarded :=
  List.mem_of_getElem? (List.getElem?_zipWith_eq_some.2 ⟨strength, count, atStrength, atCount, rfl⟩)

theorem MinMax.modify [IsStrictOrderedRing K] (positive : ∀ count, 0 < divisor count) (grows : Monotone divisor)
    (nonneg : ∀ strength ∈ strengths, 0 ≤ strength) (minMax : MinMax divisor strengths awarded) {quotient : K}
    (entry : (quotients divisor strengths awarded)[index]? = some quotient)
    (largest : ∀ other ∈ quotients divisor strengths awarded, other ≤ quotient) :
    MinMax divisor strengths (awarded.modify index (· + 1)) := by
  intro i j strength other count seats atI countAt atJ seatsAt
  rw [List.getElem?_modify] at countAt seatsAt
  obtain ⟨before, atBefore, countEq⟩ := Option.map_eq_some_iff.1 countAt
  obtain ⟨seatsBefore, atSeats, seatsEq⟩ := Option.map_eq_some_iff.1 seatsAt
  have more : before ≤ count := by
    rw [← countEq]
    split <;> omega
  have shrinks : strength / divisor count ≤ strength / divisor before :=
    div_le_div_of_nonneg_left (nonneg strength (List.mem_of_getElem? atI)) (positive before) (grows more)
  refine shrinks.trans ?_
  by_cases here : index = j
  · subst here
    rw [if_pos rfl] at seatsEq
    obtain rfl : seatsBefore = seats := by omega
    obtain ⟨winner, seat, atWinner, atSeat, value⟩ := quotient_at entry
    rw [Option.some.inj (atWinner.symm.trans atJ), Option.some.inj (atSeat.symm.trans atSeats)] at value
    rw [← value]
    exact largest _ (mem_quotients atI atBefore)
  · rw [if_neg here] at seatsEq
    subst seatsEq
    exact minMax i j strength other before seats atI atBefore atJ atSeats

theorem MinMax.largest {quotient : K} (minMax : MinMax divisor strengths (awarded.modify index (· + 1)))
    (entry : (quotients divisor strengths awarded)[index]? = some quotient) :
    ∀ other ∈ quotients divisor strengths awarded, other ≤ quotient := by
  intro other listed
  obtain ⟨i, atOther⟩ := List.getElem?_of_mem listed
  by_cases here : index = i
  · subst here
    exact (Option.some.inj (atOther.symm.trans entry)).le
  · obtain ⟨strength, count, atI, countAt, otherEq⟩ := quotient_at atOther
    obtain ⟨winner, seats, atWinner, seatsAt, quotientEq⟩ := quotient_at entry
    rw [otherEq, quotientEq]
    refine minMax i index strength winner count seats atI ?_ atWinner ?_
    · rw [List.getElem?_modify, countAt, Option.map_eq_map, Option.map_some, if_neg here]
    · rw [List.getElem?_modify, seatsAt, Option.map_eq_map, Option.map_some, if_pos rfl]

theorem minMax_start (tolerance : K) (divisor : Nat → K) (strengths : List K) :
    MinMax divisor strengths (award tolerance divisor strengths 0) := by
  intro i j strength other count seats atI countAt atJ seatsAt
  have zero := List.eq_of_mem_replicate (List.mem_of_getElem? seatsAt)
  omega

theorem minMax_award [IsStrictOrderedRing K] (positive : ∀ count, 0 < divisor count) (grows : Monotone divisor)
    (nonneg : ∀ strength ∈ strengths, 0 ≤ strength) (parties : strengths ≠ []) (seats : Nat) : MinMax divisor strengths (award 0 divisor strengths seats) := by
  induction seats with
  | zero => exact minMax_start 0 divisor strengths
  | succ seats ih =>
    obtain ⟨index, quotient, picked, -, step⟩ := exists_awardSeat le_rfl parties divisor (length_award 0 divisor strengths seats)
    rw [award, step]
    exact ih.modify positive grows nonneg (scan_picks le_rfl picked).entry (scan_largest picked)

/-- In every round of the method without tolerance, the scan with it finds the same party. -/
def Undisturbed (tolerance : K) (divisor : Nat → K) (strengths : List K) (house : Nat) : Prop :=
  ∀ seats < house, scan tolerance (quotients divisor strengths (award 0 divisor strengths seats)) =
    scan 0 (quotients divisor strengths (award 0 divisor strengths seats))

theorem Undisturbed.award_eq {house : Nat} (undisturbed : Undisturbed tolerance divisor strengths house) {seats : Nat}
    (within : seats ≤ house) : award tolerance divisor strengths seats = award 0 divisor strengths seats := by
  induction seats with
  | zero => rfl
  | succ seats ih =>
    rw [award, award, ih (by omega), awardSeat, awardSeat, undisturbed seats (by omega)]

theorem minMax_iff [IsStrictOrderedRing K] (tolerant : 0 ≤ tolerance) (positive : ∀ count, 0 < divisor count) (grows : Monotone divisor)
    (nonneg : ∀ strength ∈ strengths, 0 ≤ strength) (parties : strengths ≠ []) (house : Nat) :
    (∀ seats ≤ house, MinMax divisor strengths (award tolerance divisor strengths seats)) ↔
      Undisturbed tolerance divisor strengths house := by
  constructor
  · intro correct seats
    induction seats using Nat.strongRecOn with
    | ind seats ih =>
      intro below
      have earlier : Undisturbed tolerance divisor strengths seats := fun round before => ih round before (before.trans below)
      have same := earlier.award_eq le_rfl
      have sized := length_award 0 divisor strengths seats
      obtain ⟨index, quotient, picked, -, step⟩ := exists_awardSeat tolerant parties divisor sized
      obtain ⟨first, largest, exact, -, -⟩ := exists_awardSeat le_rfl parties divisor sized
      have after := correct (seats + 1) below
      rw [award, same, step] at after
      have picks := scan_picks tolerant picked
      rw [picked, exact, picks.unique (scan_picks le_rfl exact) (after.largest picks.entry) (scan_largest exact)]
  · intro undisturbed seats within
    rw [undisturbed.award_eq within]
    exact minMax_award positive grows nonneg parties seats

end HighestAverages
