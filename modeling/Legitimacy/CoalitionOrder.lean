import Legitimacy.Combinations
import Legitimacy.Iteration
import Mathlib.Data.Finset.Sort
import Mathlib.Data.Nat.Bitwise

namespace Legitimacy.Diagnostics

open ExceptRun Iteration

/-- What stops a program that overflows, shifts or indexes out of range, or divides by zero. -/
inductive Fault where
  | shift
  | subtract
  | divide
  | index
deriving DecidableEq

inductive ConsistencyMode where
  | full
  | bounded (maxRemoved : Nat)
deriving DecidableEq

def oneShl (bits : Nat) : Except Fault UInt64 :=
  if bits < 64 then .ok (1 <<< UInt64.ofNat bits) else .error .shift

def checkedSub (left right : Nat) : Except Fault Nat :=
  if right ≤ left then .ok (left - right) else .error .subtract

def itemAt (items : List Nat) (position : Nat) : Except Fault Nat :=
  items[position]?.elim (.error .index) .ok

structure BitsetCoalitions where
  claimCount : Nat
  nextMask : Option UInt64

def BitsetCoalitions.new (claimCount coalitionSize : Nat) : Except Fault BitsetCoalitions :=
  if coalitionSize = 0 ∨ coalitionSize > claimCount then .ok ⟨claimCount, none⟩
  else do
    let bit ← oneShl coalitionSize
    if bit < 1 then .error .subtract else .ok ⟨claimCount, some (bit - 1)⟩

/-- The addition is checked, the negation wraps. -/
def nextSamePopcount (mask : UInt64) : Except Fault (Option UInt64) :=
  let smallest := mask &&& -mask
  if mask.toNat + smallest.toNat < 2 ^ 64 then
    let ripple := mask + smallest
    let ones := mask ^^^ ripple
    if smallest = 0 then .error .divide else .ok (some (((ones >>> 2) / smallest) ||| ripple))
  else .ok none

def maskToIndices (mask : UInt64) (claimCount : Nat) : Except Fault (List Nat) :=
  (List.range claimCount).foldlM (fun indices index => do
    let bit ← oneShl index
    .ok (if mask &&& bit ≠ 0 then indices ++ [index] else indices)) []

def BitsetCoalitions.next (coalitions : BitsetCoalitions) : Except Fault (Option (List Nat) × BitsetCoalitions) :=
  match coalitions.nextMask with
  | none => .ok (none, coalitions)
  | some mask => do
    let limit ← oneShl coalitions.claimCount
    let next ← nextSamePopcount mask
    let indices ← maskToIndices mask coalitions.claimCount
    .ok (some indices, { coalitions with nextMask := next.filter (· < limit) })

structure VecCoalitions where
  claimCount : Nat
  current : Option (List Nat)

def VecCoalitions.new (claimCount coalitionSize : Nat) : VecCoalitions :=
  if coalitionSize = 0 ∨ coalitionSize > claimCount then ⟨claimCount, none⟩ else ⟨claimCount, some (List.range coalitionSize)⟩

/-- What follows a position that was moved up: each item comes directly after the one before it. -/
def followClosely (next : List Nat) (position : Nat) : Except Fault (List Nat) :=
  (List.range' (position + 1) (next.length - (position + 1))).foldlM (fun next suffix => do
    let before ← itemAt next (suffix - 1)
    .ok (next.set suffix (before + 1))) next

/-- The positions below `position` that are still to be tried, the last one first. -/
def raiseBelow (current : List Nat) (claimCount : Nat) : Nat → Except Fault (Option (List Nat))
  | 0 => .ok none
  | position + 1 => do
    let room ← checkedSub claimCount current.length
    let item ← itemAt current position
    if item < room + position then do
      let next ← followClosely (current.set position (item + 1)) position
      .ok (some next)
    else raiseBelow current claimCount position

def nextVecCombination (current : List Nat) (claimCount : Nat) : Except Fault (Option (List Nat)) :=
  raiseBelow current claimCount current.length

def VecCoalitions.next (coalitions : VecCoalitions) : Except Fault (Option (List Nat) × VecCoalitions) :=
  match coalitions.current with
  | none => .ok (none, coalitions)
  | some result => do
    let current ← nextVecCombination result coalitions.claimCount
    .ok (some result, { coalitions with current := current })

inductive CoalitionSizeEnumeration where
  | bitset (coalitions : BitsetCoalitions)
  | vector (coalitions : VecCoalitions)

def CoalitionSizeEnumeration.new (claimCount coalitionSize : Nat) : Except Fault CoalitionSizeEnumeration :=
  if claimCount ≤ 63 then do
    let coalitions ← BitsetCoalitions.new claimCount coalitionSize
    .ok (.bitset coalitions)
  else .ok (.vector (VecCoalitions.new claimCount coalitionSize))

def CoalitionSizeEnumeration.next : CoalitionSizeEnumeration → Except Fault (Option (List Nat) × CoalitionSizeEnumeration)
  | .bitset coalitions => do
    let (indices, coalitions) ← coalitions.next
    .ok (indices, .bitset coalitions)
  | .vector coalitions => do
    let (indices, coalitions) ← coalitions.next
    .ok (indices, .vector coalitions)

structure CoalitionEnumeration where
  claimCount : Nat
  nextSize : Nat
  maxRemoved : Nat
  current : Option CoalitionSizeEnumeration

/-- Subtracting one from no claims leaves none. -/
def ConsistencyMode.bound (mode : ConsistencyMode) (claimCount : Nat) : Nat :=
  match mode with
  | .full => claimCount - 1
  | .bounded maxRemoved => min maxRemoved (claimCount - 1)

def CoalitionEnumeration.new (claimCount : Nat) (mode : ConsistencyMode) : CoalitionEnumeration :=
  ⟨claimCount, 1, mode.bound claimCount, none⟩

def CoalitionEnumeration.fromCurrent (enumeration : CoalitionEnumeration) : Except Fault (Option (List Nat) × CoalitionEnumeration) :=
  match enumeration.current with
  | none => .ok (none, enumeration)
  | some current => do
    let (indices, current) ← current.next
    .ok (indices, { enumeration with current := some current })

/-- The rounds of the loop; each begins another size, of which so many are left. -/
def CoalitionEnumeration.seek : Nat → CoalitionEnumeration → Except Fault (Option (List Nat) × CoalitionEnumeration)
  | 0, enumeration => enumeration.fromCurrent
  | sizes + 1, enumeration => do
    let (indices, enumeration) ← enumeration.fromCurrent
    match indices with
    | some indices => return (some indices, enumeration)
    | none =>
      let current ← CoalitionSizeEnumeration.new enumeration.claimCount enumeration.nextSize
      seek sizes { enumeration with current := some current, nextSize := enumeration.nextSize + 1 }

def CoalitionEnumeration.next (enumeration : CoalitionEnumeration) : Except Fault (Option (List Nat) × CoalitionEnumeration) :=
  enumeration.seek (enumeration.maxRemoved + 1 - enumeration.nextSize)

open Combinations

section

theorem followClosely_eq {kept rest : List Nat} {item : Nat} :
    followClosely (kept ++ item :: rest) kept.length = .ok (kept ++ List.range' item (rest.length + 1)) := by
  suffices general : ∀ done todo : Nat, done + todo = rest.length →
      (List.range' (kept.length + 1 + done) todo).foldlM (fun next suffix => do
        let before ← itemAt next (suffix - 1)
        .ok (next.set suffix (before + 1))) (kept ++ List.range' item (done + 1) ++ rest.drop done) =
      Except.ok (ε := Fault) (kept ++ List.range' item (rest.length + 1)) by
    have whole := general 0 rest.length (Nat.zero_add _)
    have length : (kept ++ item :: rest).length - (kept.length + 1) = rest.length := by simp; omega
    rw [followClosely, length]
    simpa using whole
  intro done todo
  induction todo generalizing done with
  | zero =>
    rintro rfl
    simp [pure, Except.pure]
  | succ todo ih =>
    intro count
    have inside : done < rest.length := by omega
    have before : itemAt (kept ++ List.range' item (done + 1) ++ rest.drop done) (kept.length + 1 + done - 1) = .ok (item + done) := by
      have place : kept.length + 1 + done - 1 = kept.length + done := by omega
      simp [itemAt, place, List.append_assoc, List.getElem?_append_right, List.getElem?_append_left]
    have step : (kept ++ List.range' item (done + 1) ++ rest.drop done).set (kept.length + 1 + done) (item + done + 1) =
        kept ++ List.range' item (done + 1 + 1) ++ rest.drop (done + 1) := by
      have place : kept.length + 1 + done = (kept ++ List.range' item (done + 1)).length := by simp; omega
      rw [place, List.set_append_right _ _ (Nat.le_refl _), Nat.sub_self, List.drop_eq_getElem_cons inside, List.set_cons_zero,
        @List.range'_concat 1 item (done + 1)]
      simp [Nat.add_assoc]
    rw [@List.range'_succ (kept.length + 1 + done) todo 1, List.foldlM_cons]
    refine bind_eq_ok.2 ⟨_, bind_eq_ok.2 ⟨_, before, rfl⟩, ?_⟩
    rw [step]
    exact ih (done + 1) (by omega)

theorem raiseBelow_eq {current : List Nat} {claimCount position : Nat} (few : current.length ≤ claimCount) (inside : position ≤ current.length)
    (stuck : advance claimCount (current.drop position) = none) :
    raiseBelow current claimCount position = .ok (advance claimCount current) := by
  induction position with
  | zero =>
    rw [List.drop_zero] at stuck
    rw [raiseBelow, stuck]
  | succ position ih =>
    have here : position < current.length := inside
    have split := List.drop_eq_getElem_cons here
    have length : (current.drop (position + 1)).length = current.length - (position + 1) := List.length_drop
    have room : checkedSub claimCount current.length = .ok (claimCount - current.length) := if_pos few
    have item : itemAt current position = .ok current[position] := by rw [itemAt, List.getElem?_eq_getElem here]; rfl
    refine bind_eq_ok.2 ⟨_, room, bind_eq_ok.2 ⟨_, item, ?_⟩⟩
    have same : current[position] < claimCount - current.length + position ↔
        current[position] + (current.drop (position + 1)).length + 1 < claimCount := by omega
    by_cases movable : current[position] < claimCount - current.length + position
    · have moved : advance claimCount (current.drop position) =
          some (List.range' (current[position] + 1) ((current.drop (position + 1)).length + 1)) := by
        rw [split, advance, stuck]
        exact if_pos (same.1 movable)
      have whole := advance_append moved (current.take position)
      rw [List.take_append_drop] at whole
      have takes : (current.take position).length = position := by simp [here.le]
      have followed := @followClosely_eq (current.take position) (current.drop (position + 1)) (current[position] + 1)
      rw [takes] at followed
      rw [if_pos movable, whole]
      refine bind_eq_ok.2 ⟨_, ?_, rfl⟩
      rw [List.set_eq_take_append_cons_drop, if_pos here]
      exact followed
    · rw [if_neg movable]
      refine ih here.le ?_
      rw [split, advance, stuck]
      exact if_neg fun less => movable (same.2 less)

theorem nextVecCombination_eq {current : List Nat} {claimCount : Nat} (few : current.length ≤ claimCount) :
    nextVecCombination current claimCount = .ok (advance claimCount current) := by
  refine raiseBelow_eq few (Nat.le_refl _) ?_
  rw [List.drop_length]
  rfl

theorem vecCoalitions_yields {claimCount coalitionSize : Nat} (positive : coalitionSize ≠ 0) (few : coalitionSize ≤ claimCount) :
    Yields VecCoalitions.next (VecCoalitions.new claimCount coalitionSize) (lex claimCount 0 coalitionSize) := by
  have walk := @yields_of_chain Fault (List Nat) VecCoalitions VecCoalitions.next (List Nat) (fun current => ⟨claimCount, current⟩) id
    (advance claimCount) (lex claimCount 0 coalitionSize) rfl ?_ ?_ ?_
  · rw [lex_head few, List.map_id, ← List.range_eq_range'] at walk
    rw [VecCoalitions.new, if_neg (by omega)]
    exact walk
  · intro choice member
    have chosen := mem_lex.1 member
    refine bind_eq_ok.2 ⟨_, nextVecCombination_eq ?_, rfl⟩
    have length := chosen.length
    dsimp only
    omega
  · have chain := @lex_chain claimCount 0 coalitionSize
    rwa [Nat.zero_add] at chain
  · intro choice isLast
    rw [lex_last few] at isLast
    rw [← Option.some.inj isLast]
    exact advance_range' (by omega)

end

section

theorem oneShl_eq {bits : Nat} (inside : bits < 64) : oneShl bits = .ok (UInt64.ofNat (2 ^ bits)) := by
  rw [oneShl, if_pos inside]
  refine congrArg Except.ok (UInt64.toNat_inj.1 ?_)
  have small : 2 ^ bits < 2 ^ 64 := Nat.pow_lt_pow_right (by decide) inside
  have amount : (UInt64.ofNat bits).toNat = bits := UInt64.toNat_ofNat_of_lt' (inside.trans (by decide))
  rw [UInt64.toNat_shiftLeft, amount, UInt64.toNat_ofNat_of_lt' small, Nat.mod_eq_of_lt inside, UInt64.toNat_one, Nat.one_shiftLeft,
    Nat.mod_eq_of_lt small]

theorem maskToIndices_eq {mask : UInt64} {claimCount : Nat} (inside : claimCount ≤ 64) :
    maskToIndices mask claimCount = .ok ((List.range claimCount).filter fun index => mask.toNat.testBit index) := by
  unfold maskToIndices
  induction claimCount with
  | zero => rfl
  | succ claimCount ih =>
    have here : claimCount < 64 := inside
    have small : 2 ^ claimCount < 2 ^ 64 := Nat.pow_lt_pow_right (by decide) here
    have bit : mask &&& UInt64.ofNat (2 ^ claimCount) ≠ 0 ↔ mask.toNat.testBit claimCount = true := by
      rw [Ne, ← UInt64.toNat_inj, UInt64.toNat_and, UInt64.toNat_ofNat_of_lt' small, Nat.and_two_pow, UInt64.toNat_zero]
      cases mask.toNat.testBit claimCount <;> simp
    rw [List.range_succ, List.foldlM_append, List.filter_append]
    refine bind_eq_ok.2 ⟨_, ih here.le, ?_⟩
    rw [List.foldlM_cons, oneShl_eq here]
    cases set : mask.toNat.testBit claimCount with
    | true => simp [bit.2 set, set, bind, Except.bind, pure, Except.pure]
    | false =>
      have clear : mask &&& UInt64.ofNat (2 ^ claimCount) = 0 := not_not.1 fun marked => by simp [bit.1 marked] at set
      simp [clear, set, bind, Except.bind, pure, Except.pure]

theorem nextSamePopcount_eq {mask : UInt64} (positive : 0 < lowestBit 64 mask.toNat)
    (room : mask.toNat + lowestBit 64 mask.toNat < 2 ^ 64) :
    ∃ next : UInt64, nextSamePopcount mask = .ok (some next) ∧ next.toNat = gosper 64 mask.toNat := by
  have nonzero : 0 < mask.toNat := positive.trans_le (lowestBit_le 64 mask.toNat)
  have smallest : (mask &&& -mask).toNat = lowestBit 64 mask.toNat := by
    rw [UInt64.toNat_and, UInt64.toNat_neg, lowestBit, Nat.mod_eq_of_lt]
    · rfl
    · exact Nat.sub_lt (by decide) nonzero
  have ripple : (mask + (mask &&& -mask)).toNat = mask.toNat + lowestBit 64 mask.toNat := by
    rw [UInt64.toNat_add, smallest, Nat.mod_eq_of_lt room]
  have divisible : mask &&& -mask ≠ 0 := by
    rw [Ne, ← UInt64.toNat_inj, smallest]
    exact positive.ne'
  have run : nextSamePopcount mask = .ok (some
      ((((mask ^^^ (mask + (mask &&& -mask))) >>> 2) / (mask &&& -mask)) ||| (mask + (mask &&& -mask)))) := by
    unfold nextSamePopcount
    dsimp only
    rw [smallest, if_pos room, if_neg divisible]
  refine ⟨_, run, ?_⟩
  · rw [UInt64.toNat_or, UInt64.toNat_div, UInt64.toNat_shiftRight, UInt64.toNat_xor, ripple, smallest]
    rfl

theorem filter_mask {claimCount size : Nat} {choice : List Nat} (chosen : IsChoice 0 claimCount size choice) :
    ((List.range claimCount).filter fun index => (mask choice).testBit index) = choice := by
  have ascending : ((List.range claimCount).filter fun index => (mask choice).testBit index).Pairwise (· < ·) :=
    List.pairwise_lt_range.sublist List.filter_sublist
  refine ascending.sortedLT.eq_of_mem_iff chosen.ascending.sortedLT fun index => ?_
  rw [List.mem_filter, List.mem_range, testBit_mask chosen.ascending, and_iff_right_iff_imp]
  exact fun member => (chosen.bounds index member).2

theorem bitsetCoalitions_yields {claimCount size : Nat} (narrow : claimCount ≤ 63) (few : size + 1 ≤ claimCount) :
    ∃ coalitions, BitsetCoalitions.new claimCount (size + 1) = .ok coalitions ∧
      Yields BitsetCoalitions.next coalitions (colex claimCount (size + 1)) := by
  have limit : (UInt64.ofNat (2 ^ claimCount)).toNat = 2 ^ claimCount :=
    UInt64.toNat_ofNat_of_lt' (Nat.pow_lt_pow_right (by decide : 1 < 2) (show claimCount < 64 by omega))
  have wide : 2 ^ claimCount ≤ 2 ^ 63 := Nat.pow_le_pow_right (by decide) narrow
  have stored : ∀ choice ∈ colex claimCount (size + 1), mask choice < 2 ^ claimCount ∧ (UInt64.ofNat (mask choice)).toNat = mask choice := by
    intro choice member
    have small := mask_lt (mem_colex.1 member)
    exact ⟨small, UInt64.toNat_ofNat_of_lt' (lt_of_lt_of_le (small.trans_le wide) (by decide))⟩
  have walk := @yields_of_chain Fault (List Nat) BitsetCoalitions BitsetCoalitions.next (List Nat)
    (fun current => ⟨claimCount, current.map fun choice => UInt64.ofNat (mask choice)⟩) id
    (fun choice => if mask (bump 0 choice) < 2 ^ claimCount then some (bump 0 choice) else none) (colex claimCount (size + 1)) rfl ?_ ?_ ?_
  · rw [colex_head few, List.map_id, Option.map_some, mask_range] at walk
    refine ⟨_, ?_, walk⟩
    have small : 2 ^ (size + 1) < 2 ^ 64 := Nat.pow_lt_pow_right (by decide) (by omega)
    have positive : 0 < 2 ^ (size + 1) := Nat.two_pow_pos (size + 1)
    have bit : (UInt64.ofNat (2 ^ (size + 1))).toNat = 2 ^ (size + 1) := UInt64.toNat_ofNat_of_lt' small
    rw [BitsetCoalitions.new, if_neg (by omega), oneShl_eq (by omega)]
    have atLeastOne : ¬UInt64.ofNat (2 ^ (size + 1)) < 1 := by
      rw [UInt64.lt_iff_toNat_lt, bit, UInt64.toNat_one]
      omega
    have less : UInt64.ofNat (2 ^ (size + 1)) - 1 = UInt64.ofNat (2 ^ (size + 1) - 1) := by
      refine UInt64.toNat_inj.1 ?_
      rw [UInt64.toNat_sub_of_le _ _ (UInt64.le_iff_toNat_le.2 (by rw [bit, UInt64.toNat_one]; omega)), bit, UInt64.toNat_one,
        UInt64.toNat_ofNat_of_lt' ((Nat.sub_le _ _).trans_lt (small.trans_le (by decide)))]
    refine bind_eq_ok.2 ⟨_, rfl, ?_⟩
    rw [if_neg atLeastOne, less]
  · intro choice member
    have chosen := mem_colex.1 member
    obtain ⟨small, value⟩ := stored choice member
    have positive := lowestBit_mask_pos chosen (show claimCount ≤ 64 by omega)
    have below := lowestBit_le 64 (mask choice)
    obtain ⟨next, found, nextValue⟩ := @nextSamePopcount_eq (UInt64.ofNat (mask choice)) (by rwa [value]) (by rw [value]; omega)
    rw [value, gosper_mask chosen (show claimCount ≤ 64 by omega)] at nextValue
    have indices : maskToIndices (UInt64.ofNat (mask choice)) claimCount = .ok choice := by
      rw [maskToIndices_eq (by omega), value, filter_mask chosen]
    refine bind_eq_ok.2 ⟨_, oneShl_eq (show claimCount < 64 by omega), bind_eq_ok.2 ⟨_, found, bind_eq_ok.2 ⟨_, indices, ?_⟩⟩⟩
    have same : next = UInt64.ofNat (mask (bump 0 choice)) := by rw [← nextValue, UInt64.ofNat_toNat]
    have less : next < UInt64.ofNat (2 ^ claimCount) ↔ mask (bump 0 choice) < 2 ^ claimCount := by
      rw [UInt64.lt_iff_toNat_lt, limit, nextValue]
    by_cases inside : mask (bump 0 choice) < 2 ^ claimCount
    · rw [Option.filter_some, if_pos (decide_eq_true (less.2 inside)), if_pos inside, same]
      rfl
    · rw [Option.filter_some, decide_eq_false (mt less.1 inside), if_neg Bool.false_ne_true, if_neg inside]
      rfl
  · refine colex_chain.imp_of_mem_imp fun choice following _ member follows => ?_
    rw [follows, if_pos (stored following member).1]
  · intro choice isLast
    rw [colex_last few] at isLast
    rw [← Option.some.inj isLast, bump_range', if_neg]
    have top : claimCount - (size + 1) + size + 1 = claimCount := by omega
    rw [mask_append, mask_cons, top]
    omega

end

section

def coalitionsOfSize (claimCount size : Nat) : List (List Nat) :=
  if claimCount ≤ 63 then colex claimCount size else lex claimCount 0 size

theorem mem_coalitionsOfSize {claimCount size : Nat} {choice : List Nat} :
    choice ∈ coalitionsOfSize claimCount size ↔ IsChoice 0 claimCount size choice := by
  unfold coalitionsOfSize
  split
  · exact mem_colex
  · rw [mem_lex, Nat.zero_add]

theorem coalitionsOfSize_nodup (claimCount size : Nat) : (coalitionsOfSize claimCount size).Nodup := by
  unfold coalitionsOfSize
  split
  · exact colex_nodup claimCount size
  · exact lex_nodup claimCount 0 size

theorem sizeEnumeration_yields {claimCount size : Nat} (positive : size ≠ 0) (few : size ≤ claimCount) :
    ∃ enumeration, CoalitionSizeEnumeration.new claimCount size = .ok enumeration ∧
      Yields CoalitionSizeEnumeration.next enumeration (coalitionsOfSize claimCount size) := by
  unfold CoalitionSizeEnumeration.new coalitionsOfSize
  by_cases narrow : claimCount ≤ 63
  · obtain ⟨size, rfl⟩ := Nat.exists_eq_succ_of_ne_zero positive
    obtain ⟨coalitions, made, yields⟩ := bitsetCoalitions_yields narrow few
    rw [if_pos narrow, if_pos narrow]
    exact ⟨.bitset coalitions, bind_eq_ok.2 ⟨coalitions, made, rfl⟩, yields.wrap CoalitionSizeEnumeration.bitset fun moved => bind_eq_ok.2 ⟨_, moved, rfl⟩⟩
  · rw [if_neg narrow, if_neg narrow]
    exact ⟨.vector (VecCoalitions.new claimCount size), rfl,
      (vecCoalitions_yields positive few).wrap CoalitionSizeEnumeration.vector fun moved => bind_eq_ok.2 ⟨_, moved, rfl⟩⟩

theorem seek_item {enumeration after : CoalitionEnumeration} {indices : List Nat} (made : enumeration.fromCurrent = .ok (some indices, after))
    (sizes : Nat) : enumeration.seek sizes = .ok (some indices, after) := by
  cases sizes with
  | zero => exact made
  | succ sizes => exact bind_eq_ok.2 ⟨_, made, rfl⟩

theorem seek_next {enumeration after : CoalitionEnumeration} {current : CoalitionSizeEnumeration} {sizes : Nat}
    (ends : enumeration.fromCurrent = .ok (none, after)) (begun : CoalitionSizeEnumeration.new after.claimCount after.nextSize = .ok current) :
    enumeration.seek (sizes + 1) = CoalitionEnumeration.seek sizes { after with current := some current, nextSize := after.nextSize + 1 } := by
  rw [CoalitionEnumeration.seek, ends]
  simp only [bind, Except.bind, begun]

theorem enumeration_yields_from {claimCount maxRemoved : Nat} (few : maxRemoved ≤ claimCount) {sizes nextSize : Nat}
    (rest : nextSize + sizes = maxRemoved + 1) (begun : nextSize ≠ 0) {current : CoalitionSizeEnumeration} {items : List (List Nat)}
    (yields : Yields CoalitionSizeEnumeration.next current items) :
    Yields CoalitionEnumeration.next ⟨claimCount, nextSize, maxRemoved, some current⟩
      (items ++ (List.range' nextSize sizes).flatMap (coalitionsOfSize claimCount)) := by
  induction sizes generalizing nextSize current items with
  | zero =>
    have last : maxRemoved + 1 - nextSize = 0 := by omega
    rw [List.range'_zero, List.flatMap_nil, List.append_nil]
    refine yields.wrap (fun current => CoalitionEnumeration.mk claimCount nextSize maxRemoved (some current)) fun moved => ?_
    unfold CoalitionEnumeration.next
    dsimp only
    rw [last]
    exact bind_eq_ok.2 ⟨_, moved, rfl⟩
  | succ sizes ih =>
    induction yields with
    | done ends settled =>
      obtain ⟨following, made, yields⟩ := @sizeEnumeration_yields claimCount nextSize begun (by omega)
      rw [List.nil_append, List.range'_succ, List.flatMap_cons]
      refine (ih (by omega) (Nat.succ_ne_zero nextSize) yields).congr ?_
      have now : maxRemoved + 1 - nextSize = sizes + 1 := by omega
      have later : maxRemoved + 1 - (nextSize + 1) = sizes := by omega
      unfold CoalitionEnumeration.next
      dsimp only
      rw [now, later]
      have used : CoalitionEnumeration.fromCurrent ⟨claimCount, nextSize, maxRemoved, some _⟩ = .ok (none, ⟨_, _, _, some _⟩) :=
        bind_eq_ok.2 ⟨_, ends, rfl⟩
      exact seek_next used made
    | item made _ step =>
      have found : CoalitionEnumeration.fromCurrent ⟨claimCount, nextSize, maxRemoved, some _⟩ = .ok (some _, ⟨_, _, _, some _⟩) :=
        bind_eq_ok.2 ⟨_, made, rfl⟩
      exact .item (seek_item found _) step

def coalitions (claimCount : Nat) (mode : ConsistencyMode) : List (List Nat) :=
  (List.range' 1 (mode.bound claimCount)).flatMap (coalitionsOfSize claimCount)

variable (claimCount : Nat) (mode : ConsistencyMode)

theorem bound_le (claimCount : Nat) : mode.bound claimCount ≤ claimCount - 1 := by
  cases mode with
  | full => exact Nat.le_refl _
  | bounded maxRemoved => exact Nat.min_le_right _ _

theorem enumeration_yields :
    Yields CoalitionEnumeration.next (.new claimCount mode) (coalitions claimCount mode) := by
  have few := bound_le mode claimCount
  unfold coalitions
  cases sizes : mode.bound claimCount with
  | zero =>
    have ends : CoalitionEnumeration.next (.new claimCount mode) = .ok (none, .new claimCount mode) := by
      simp [CoalitionEnumeration.next, CoalitionEnumeration.new, sizes, CoalitionEnumeration.seek, CoalitionEnumeration.fromCurrent]
    exact .done ends ends
  | succ larger =>
    obtain ⟨first, made, yields⟩ := @sizeEnumeration_yields claimCount 1 Nat.one_ne_zero (by omega)
    rw [List.range'_succ, List.flatMap_cons]
    refine (@enumeration_yields_from claimCount (mode.bound claimCount) (by omega) larger 2 (by omega) (by decide) first _ yields).congr ?_
    have unused : CoalitionEnumeration.fromCurrent (.new claimCount mode) = .ok (none, .new claimCount mode) := rfl
    have now : mode.bound claimCount + 1 - 1 = larger + 1 := by omega
    have later : mode.bound claimCount + 1 - 2 = larger := by omega
    have turned := @seek_next _ _ _ larger unused made
    rw [← now] at turned
    rw [← later] at turned
    exact turned

theorem mem_coalitions {claimCount : Nat} {mode : ConsistencyMode} {coalition : List Nat} : coalition ∈ coalitions claimCount mode ↔
    coalition.Pairwise (· < ·) ∧ (∀ index ∈ coalition, index < claimCount) ∧ coalition ≠ [] ∧ coalition.length ≤ mode.bound claimCount := by
  simp only [coalitions, List.mem_flatMap, List.mem_range'_1, mem_coalitionsOfSize]
  constructor
  · rintro ⟨size, between, chosen⟩
    have length := chosen.length
    refine ⟨chosen.ascending, fun index member => (chosen.bounds index member).2, ?_, by omega⟩
    rintro rfl
    simp at length
    omega
  · rintro ⟨ascending, bounds, nonempty, few⟩
    have positive := List.length_pos_iff.2 nonempty
    exact ⟨coalition.length, by omega, ascending, fun index member => ⟨Nat.zero_le index, bounds index member⟩, rfl⟩

theorem coalitions_sizes :
    (coalitions claimCount mode).Pairwise fun earlier later => earlier.length ≤ later.length := by
  have ascending : (List.range' 1 (mode.bound claimCount)).Pairwise (· < ·) := List.pairwise_lt_range'
  refine List.pairwise_flatMap.2 ⟨fun size _ => ?_, ascending.imp fun {size larger} less earlier inEarlier later inLater => ?_⟩
  · refine List.pairwise_of_forall_mem_list fun first inFirst second inSecond => ?_
    rw [(mem_coalitionsOfSize.1 inFirst).length, (mem_coalitionsOfSize.1 inSecond).length]
  · rw [(mem_coalitionsOfSize.1 inEarlier).length, (mem_coalitionsOfSize.1 inLater).length]
    exact less.le

theorem coalitions_nodup : (coalitions claimCount mode).Nodup := by
  have ascending : (List.range' 1 (mode.bound claimCount)).Pairwise (· < ·) := List.pairwise_lt_range'
  refine List.nodup_flatMap.2 ⟨fun size _ => coalitionsOfSize_nodup claimCount size, ascending.imp fun {size larger} less => ?_⟩
  intro coalition inSmaller inLarger
  have small := (mem_coalitionsOfSize.1 inSmaller).length
  have large := (mem_coalitionsOfSize.1 inLarger).length
  omega

theorem coalitions_toFinset_nodup : ((coalitions claimCount mode).map List.toFinset).Nodup := by
  refine List.Nodup.map_on (fun first inFirst second inSecond same => ?_) (coalitions_nodup claimCount mode)
  refine (mem_coalitions.1 inFirst).1.sortedLT.eq_of_mem_iff (mem_coalitions.1 inSecond).1.sortedLT fun index => ?_
  rw [← List.mem_toFinset, same, List.mem_toFinset]

/-- The enumeration yields every nonempty set of at most so many indices once, smaller sets first, and then ends. -/
theorem coalitionEnumeration_exact (claimCount : Nat) (mode : ConsistencyMode) : ∃ coalitions,
    Yields CoalitionEnumeration.next (.new claimCount mode) coalitions ∧
    (coalitions.Pairwise fun earlier later => earlier.length ≤ later.length) ∧
    (∀ coalition ∈ coalitions, coalition.Pairwise (· < ·)) ∧
    ∀ members : Finset Nat, (coalitions.map List.toFinset).count members =
      if members.Nonempty ∧ members ⊆ Finset.range claimCount ∧ members.card ≤ mode.bound claimCount then 1 else 0 := by
  refine ⟨coalitions claimCount mode, enumeration_yields claimCount mode, coalitions_sizes claimCount mode,
    fun coalition member => (mem_coalitions.1 member).1, fun members => ?_⟩
  rw [(coalitions_toFinset_nodup claimCount mode).count]
  refine if_congr ?_ rfl rfl
  rw [List.mem_map]
  constructor
  · rintro ⟨coalition, member, rfl⟩
    obtain ⟨ascending, bounds, nonempty, few⟩ := mem_coalitions.1 member
    refine ⟨List.toFinset_nonempty_iff _ |>.2 nonempty, fun index inside => Finset.mem_range.2 (bounds index (List.mem_toFinset.1 inside)), ?_⟩
    exact (List.toFinset_card_le coalition).trans few
  · rintro ⟨nonempty, inside, few⟩
    refine ⟨members.sort (· ≤ ·), mem_coalitions.2 ⟨?_, ?_, ?_, ?_⟩, Finset.sort_toFinset _ _⟩
    · exact members.sortedLT_sort.pairwise
    · exact fun index member => Finset.mem_range.1 (inside ((Finset.mem_sort _).1 member))
    · intro empty
      obtain ⟨index, member⟩ := nonempty
      have listed := (Finset.mem_sort (· ≤ ·)).2 member
      rw [empty] at listed
      cases listed
    · rwa [Finset.length_sort]

end

end Legitimacy.Diagnostics
