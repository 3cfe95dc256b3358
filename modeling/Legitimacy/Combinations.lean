import Mathlib.Data.List.Chain
import Mathlib.Data.List.Sort
import Mathlib.Data.Nat.BitIndices
import Mathlib.Tactic.Ring

namespace Combinations

/-- A choice of `size` numbers from `low` on and below `high`, in ascending order. -/
structure IsChoice (low high size : Nat) (choice : List Nat) : Prop where
  ascending : choice.Pairwise (· < ·)
  bounds : ∀ item ∈ choice, low ≤ item ∧ item < high
  length : choice.length = size

section

variable {low high size item : Nat} {choice : List Nat}

theorem isChoice_nil_iff : IsChoice low high 0 choice ↔ choice = [] := by
  constructor
  · intro chosen
    exact List.length_eq_zero_iff.1 chosen.length
  · rintro rfl
    exact ⟨List.Pairwise.nil, by simp, rfl⟩

theorem isChoice_cons_iff : IsChoice low high (size + 1) (item :: choice) ↔
    (low ≤ item ∧ item < high) ∧ IsChoice (item + 1) high size choice := by
  constructor
  · rintro ⟨ascending, bounds, length⟩
    obtain ⟨above, rest⟩ := List.pairwise_cons.1 ascending
    refine ⟨bounds item List.mem_cons_self, rest, fun other member => ⟨above other member, ?_⟩, by simpa using length⟩
    exact (bounds other (List.mem_cons_of_mem item member)).2
  · rintro ⟨inside, ascending, bounds, length⟩
    refine ⟨List.pairwise_cons.2 ⟨fun other member => (bounds other member).1, ascending⟩, fun other member => ?_, by simp [length]⟩
    rcases List.mem_cons.1 member with rfl | later
    · exact inside
    · have between := bounds other later
      omega

theorem isChoice_append_iff : IsChoice low (high + 1) (size + 1) (choice ++ [high]) ↔
    low ≤ high ∧ IsChoice low high size choice := by
  constructor
  · rintro ⟨ascending, bounds, length⟩
    obtain ⟨rest, -, below⟩ := List.pairwise_append.1 ascending
    refine ⟨(bounds high (by simp)).1, rest, fun other member => ⟨?_, below other member high (by simp)⟩, by simpa using length⟩
    exact (bounds other (List.mem_append_left _ member)).1
  · rintro ⟨above, ascending, bounds, length⟩
    refine ⟨List.pairwise_append.2 ⟨ascending, List.pairwise_singleton _ _, fun other member last isLast => ?_⟩, fun other member => ?_,
      by simp [length]⟩
    · rw [List.mem_singleton.1 isLast]
      exact (bounds other member).2
    · rcases List.mem_append.1 member with earlier | last
      · have between := bounds other earlier
        omega
      · have same := List.mem_singleton.1 last
        omega

theorem isChoice_split : IsChoice low (high + 1) (size + 1) choice ↔ IsChoice low high (size + 1) choice ∨
    ∃ rest, choice = rest ++ [high] ∧ low ≤ high ∧ IsChoice low high size rest := by
  constructor
  · intro chosen
    rcases List.eq_nil_or_concat choice with empty | ⟨rest, last, split⟩
    · have length := chosen.length
      simp [empty] at length
    · rw [List.concat_eq_append] at split
      subst split
      by_cases top : last = high
      · subst top
        obtain ⟨above, rests⟩ := isChoice_append_iff.1 chosen
        exact Or.inr ⟨rest, rfl, above, rests⟩
      · obtain ⟨ascending, bounds, length⟩ := chosen
        refine Or.inl ⟨ascending, fun other member => ⟨(bounds other member).1, ?_⟩, length⟩
        have lastBelow := (bounds last (by simp)).2
        rcases List.mem_append.1 member with earlier | isLast
        · have below := (List.pairwise_append.1 ascending).2.2 other earlier last (by simp)
          omega
        · have same := List.mem_singleton.1 isLast
          omega
  · rintro (chosen | ⟨rest, rfl, above, chosen⟩)
    · exact ⟨chosen.ascending, fun other member => ⟨(chosen.bounds other member).1, (chosen.bounds other member).2.le.trans_lt (by omega)⟩,
        chosen.length⟩
    · exact isChoice_append_iff.2 ⟨above, chosen⟩

theorem IsChoice.size_le (chosen : IsChoice low high size choice) : size ≤ high - low := by
  have inside : choice ⊆ List.range' low (high - low) := by
    intro other member
    have between := chosen.bounds other member
    exact List.mem_range'_1.2 (by omega)
  have nodup : choice.Nodup := chosen.ascending.imp Nat.ne_of_lt
  have count := (List.subperm_of_subset nodup inside).length_le
  rwa [chosen.length, List.length_range'] at count

end

/-- The choices of `size` numbers below `bound`, those with the smaller greatest item first. -/
def colex : Nat → Nat → List (List Nat)
  | _, 0 => [[]]
  | 0, _ + 1 => []
  | bound + 1, size + 1 => colex bound (size + 1) ++ (colex bound size).map (· ++ [bound])

/-- The choices of `size` among the `span` numbers from `low` on, those with the smaller least item first. -/
def lex : Nat → Nat → Nat → List (List Nat)
  | _, _, 0 => [[]]
  | 0, _, _ + 1 => []
  | span + 1, low, size + 1 => (lex span (low + 1) size).map (low :: ·) ++ lex span (low + 1) (size + 1)

section

theorem mem_colex {bound size : Nat} {choice : List Nat} : choice ∈ colex bound size ↔ IsChoice 0 bound size choice := by
  fun_induction colex bound size generalizing choice with
  | case1 bound => rw [isChoice_nil_iff, List.mem_singleton]
  | case2 size =>
    refine iff_of_false List.not_mem_nil fun chosen => ?_
    have few := chosen.size_le
    omega
  | case3 bound size ihKept ihAdded =>
    rw [isChoice_split, List.mem_append, List.mem_map, ihKept]
    refine or_congr_right ⟨?_, ?_⟩
    · rintro ⟨rest, member, rfl⟩
      exact ⟨rest, rfl, Nat.zero_le bound, ihAdded.1 member⟩
    · rintro ⟨rest, rfl, -, chosen⟩
      exact ⟨rest, ihAdded.2 chosen, rfl⟩

theorem colex_nodup (bound size : Nat) : (colex bound size).Nodup := by
  fun_induction colex bound size with
  | case1 => exact List.nodup_singleton _
  | case2 => exact List.nodup_nil
  | case3 bound size ihKept ihAdded =>
    refine List.nodup_append.2 ⟨ihKept, ihAdded.map fun _ _ same => List.append_cancel_right same, fun kept inKept added inAdded same => ?_⟩
    obtain ⟨rest, -, rfl⟩ := List.mem_map.1 inAdded
    have below := (mem_colex.1 inKept).bounds bound (by simp [same])
    omega

theorem colex_eq_nil {bound size : Nat} (few : bound < size) : colex bound size = [] := by
  refine List.eq_nil_iff_forall_not_mem.2 fun choice member => ?_
  have most := (mem_colex.1 member).size_le
  omega

theorem colex_head {bound size : Nat} (enough : size ≤ bound) : (colex bound size).head? = some (List.range size) := by
  fun_induction colex bound size with
  | case1 => rfl
  | case2 => omega
  | case3 bound size ihKept ihAdded =>
    rw [List.head?_append]
    by_cases more : size + 1 ≤ bound
    · rw [ihKept more, Option.some_or]
    · obtain rfl : bound = size := by omega
      rw [colex_eq_nil (Nat.lt_succ_self bound), List.head?_nil, Option.none_or, List.head?_map, ihAdded (Nat.le_refl bound), Option.map_some,
        List.range_succ]

theorem colex_last {bound size : Nat} (enough : size ≤ bound) : (colex bound size).getLast? = some (List.range' (bound - size) size) := by
  fun_induction colex bound size with
  | case1 => rfl
  | case2 => omega
  | case3 bound size ihKept ihAdded =>
    have below : size ≤ bound := by omega
    rw [List.getLast?_append, List.getLast?_map, ihAdded below, Option.map_some, Option.some_or, Nat.succ_sub_succ, List.range'_concat]
    have top : bound - size + 1 * size = bound := by omega
    rw [top]

/-- The next choice of the same size: the first run moves its last item up by one and the others down to the start. -/
def bump (passed : Nat) : List Nat → List Nat
  | [] => []
  | [item] => List.range passed ++ [item + 1]
  | item :: next :: rest => if next = item + 1 then bump (passed + 1) (next :: rest) else List.range passed ++ (item + 1) :: next :: rest

theorem bump_append {passed bound : Nat} {choice : List Nat} (nonempty : choice ≠ []) (below : ∀ item ∈ bump passed choice, item < bound) :
    bump passed (choice ++ [bound]) = bump passed choice ++ [bound] := by
  fun_induction bump passed choice with
  | case1 => exact absurd rfl nonempty
  | case2 passed item =>
    have low : item + 1 < bound := below (item + 1) (by simp)
    have apart : bound ≠ item + 1 := by omega
    simp [bump, apart]
  | case3 passed item rest ih =>
    simp only [List.cons_append, bump, if_pos]
    exact ih (List.cons_ne_nil _ _) below
  | case4 passed item next rest apart => simp [bump, apart]

theorem bump_range' (passed low size : Nat) : bump passed (List.range' low (size + 1)) = List.range (passed + size) ++ [low + size + 1] := by
  induction size generalizing passed low with
  | zero => rfl
  | succ size ih =>
    rw [List.range'_succ, List.range'_succ, bump, if_pos rfl, ← List.range'_succ, ih (passed + 1) (low + 1)]
    have shifted : passed + 1 + size = passed + (size + 1) := by omega
    have top : low + 1 + size + 1 = low + (size + 1) + 1 := by omega
    rw [shifted, top]

theorem colex_chain {bound size : Nat} : (colex bound (size + 1)).IsChain fun choice next => bump 0 choice = next := by
  induction bound generalizing size with
  | zero => exact List.IsChain.nil
  | succ bound ih =>
    rw [colex]
    refine List.isChain_append.2 ⟨ih, (List.isChain_map _).2 ?_, ?_⟩
    · cases size with
      | zero =>
        cases bound <;> exact List.IsChain.singleton _
      | succ size =>
        refine ih.imp_of_mem_imp fun choice next member nextMember follows => ?_
        have nonempty : choice ≠ [] := by
          rintro rfl
          exact absurd (mem_colex.1 member).length (by simp)
        have below : ∀ item ∈ bump 0 choice, item < bound := by
          rw [follows]
          exact fun item inside => ((mem_colex.1 nextMember).bounds item inside).2
        rw [bump_append nonempty below, follows]
    · intro last isLast first isFirst
      by_cases enough : size + 1 ≤ bound
      · rw [colex_last enough] at isLast
        rw [List.head?_map, colex_head (by omega)] at isFirst
        rw [← Option.some.inj isLast, ← Option.some.inj isFirst, bump_range', Nat.zero_add]
        have top : bound - (size + 1) + size + 1 = bound := by omega
        rw [top]
      · rw [colex_eq_nil (by omega)] at isLast
        cases isLast

end

section

theorem mem_lex {span low size : Nat} {choice : List Nat} : choice ∈ lex span low size ↔ IsChoice low (low + span) size choice := by
  fun_induction lex span low size generalizing choice with
  | case1 => rw [isChoice_nil_iff, List.mem_singleton]
  | case2 low size =>
    refine iff_of_false List.not_mem_nil fun chosen => ?_
    have few := chosen.size_le
    omega
  | case3 span low size ihAdded ihKept =>
    have shift : low + 1 + span = low + (span + 1) := by omega
    rw [shift] at ihAdded ihKept
    rw [List.mem_append, List.mem_map, ihKept]
    cases choice with
    | nil =>
      refine iff_of_false ?_ fun chosen => absurd chosen.length (by simp)
      rintro (⟨rest, -, made⟩ | chosen)
      · cases made
      · exact absurd chosen.length (by simp)
    | cons item rest =>
      rw [isChoice_cons_iff, isChoice_cons_iff]
      constructor
      · rintro (⟨other, member, made⟩ | ⟨inside, chosen⟩)
        · obtain ⟨rfl, rfl⟩ := List.cons.inj made
          exact ⟨by omega, ihAdded.1 member⟩
        · exact ⟨by omega, chosen⟩
      · rintro ⟨inside, chosen⟩
        by_cases least : item = low
        · subst least
          exact Or.inl ⟨rest, ihAdded.2 chosen, rfl⟩
        · exact Or.inr ⟨by omega, chosen⟩

theorem lex_nodup (span low size : Nat) : (lex span low size).Nodup := by
  fun_induction lex span low size with
  | case1 => exact List.nodup_singleton _
  | case2 => exact List.nodup_nil
  | case3 span low size ihAdded ihKept =>
    refine List.nodup_append.2 ⟨ihAdded.map fun _ _ same => List.tail_eq_of_cons_eq same, ihKept, fun added inAdded kept inKept same => ?_⟩
    obtain ⟨rest, -, rfl⟩ := List.mem_map.1 inAdded
    have above := (mem_lex.1 inKept).bounds low (by simp [← same])
    omega

theorem lex_eq_nil {span low size : Nat} (few : span < size) : lex span low size = [] := by
  refine List.eq_nil_iff_forall_not_mem.2 fun choice member => ?_
  have most := (mem_lex.1 member).size_le
  omega

theorem lex_head {span low size : Nat} (enough : size ≤ span) : (lex span low size).head? = some (List.range' low size) := by
  fun_induction lex span low size with
  | case1 => rfl
  | case2 => omega
  | case3 span low size ihAdded ihKept =>
    rw [List.head?_append, List.head?_map, ihAdded (by omega), Option.map_some, Option.some_or, List.range'_succ]

theorem lex_last {span low size : Nat} (enough : size ≤ span) : (lex span low size).getLast? = some (List.range' (low + span - size) size) := by
  fun_induction lex span low size with
  | case1 => rfl
  | case2 => omega
  | case3 span low size ihAdded ihKept =>
    rw [List.getLast?_append]
    by_cases more : size + 1 ≤ span
    · have shift : low + 1 + span - (size + 1) = low + (span + 1) - (size + 1) := by omega
      rw [ihKept more, Option.some_or, shift]
    · obtain rfl : span = size := by omega
      have start : low + (span + 1) - (span + 1) = low := by omega
      have shifted : low + 1 + span - span = low + 1 := by omega
      rw [lex_eq_nil (Nat.lt_succ_self span), List.getLast?_nil, Option.none_or, List.getLast?_map, ihAdded (Nat.le_refl span), Option.map_some,
        start, shifted, List.range'_succ]

/-- The next choice of the same size below `bound`: the last item that can moves up by one, and those after it follow closely. -/
def advance (bound : Nat) : List Nat → Option (List Nat)
  | [] => none
  | item :: rest =>
    match advance bound rest with
    | some next => some (item :: next)
    | none => if item + rest.length + 1 < bound then some (List.range' (item + 1) (rest.length + 1)) else none

theorem advance_range' {bound size low : Nat} (top : low + size = bound) : advance bound (List.range' low size) = none := by
  induction size generalizing low with
  | zero => rfl
  | succ size ih =>
    have full : ¬low + size + 1 < bound := by omega
    rw [List.range'_succ, advance, ih (by omega), List.length_range', if_neg full]

theorem advance_append {bound : Nat} {rest next : List Nat} (follows : advance bound rest = some next) (kept : List Nat) :
    advance bound (kept ++ rest) = some (kept ++ next) := by
  induction kept with
  | nil => exact follows
  | cons item kept ih => simp [advance, ih]

theorem lex_chain {span low size : Nat} : (lex span low size).IsChain fun choice next => advance (low + span) choice = some next := by
  fun_induction lex span low size with
  | case1 => exact List.IsChain.singleton _
  | case2 => exact List.IsChain.nil
  | case3 span low size ihAdded ihKept =>
    have shift : low + 1 + span = low + (span + 1) := by omega
    rw [shift] at ihAdded ihKept
    refine List.isChain_append.2 ⟨(List.isChain_map _).2 (ihAdded.imp fun choice next follows => ?_), ihKept, ?_⟩
    · simp [advance, follows]
    · intro last isLast first isFirst
      by_cases enough : size + 1 ≤ span
      · rw [List.getLast?_map, lex_last (by omega)] at isLast
        rw [lex_head enough] at isFirst
        have room : low + size + 1 < low + (span + 1) := by omega
        rw [← Option.some.inj isLast, ← Option.some.inj isFirst, advance, advance_range' (by omega), List.length_range', if_pos room]
      · rw [lex_eq_nil (by omega)] at isFirst
        cases isFirst

end

/-- The number whose bits are the items of a choice. -/
def mask (choice : List Nat) : Nat := (choice.map (2 ^ ·)).sum

section

theorem mask_cons (item : Nat) (rest : List Nat) : mask (item :: rest) = 2 ^ item + mask rest := by
  simp [mask]

theorem mask_append (choice other : List Nat) : mask (choice ++ other) = mask choice + mask other := by
  simp [mask]

theorem testBit_mask {choice : List Nat} (ascending : choice.Pairwise (· < ·)) (item : Nat) :
    (mask choice).testBit item = true ↔ item ∈ choice := by
  rw [← Nat.mem_bitIndices, mask, Nat.bitIndices_sum_map_two_pow ascending.sortedLT]

theorem mask_lt {low bound size : Nat} {choice : List Nat} (chosen : IsChoice low bound size choice) : mask choice < 2 ^ bound := by
  refine Nat.lt_pow_two_of_testBit _ fun item above => ?_
  rw [Bool.eq_false_iff, Ne, testBit_mask chosen.ascending]
  intro member
  have below := (chosen.bounds item member).2
  omega

theorem mask_multiple {low : Nat} {choice : List Nat} (above : ∀ item ∈ choice, low ≤ item) : ∃ factor, mask choice = 2 ^ low * factor := by
  induction choice with
  | nil => exact ⟨0, rfl⟩
  | cons item rest ih =>
    obtain ⟨factor, whole⟩ := ih fun other member => above other (List.mem_cons_of_mem item member)
    obtain ⟨gap, rfl⟩ := Nat.exists_eq_add_of_le (above item List.mem_cons_self)
    exact ⟨2 ^ gap + factor, by rw [mask_cons, whole, Nat.pow_add, Nat.mul_add]⟩

theorem mask_range' (low count : Nat) : mask (List.range' low count) = 2 ^ low * (2 ^ count - 1) := by
  induction count generalizing low with
  | zero => rfl
  | succ count ih =>
    have positive : 0 < 2 ^ count := Nat.two_pow_pos count
    obtain ⟨less, power⟩ := Nat.exists_eq_add_of_lt positive
    rw [List.range'_succ, mask_cons, ih, Nat.pow_succ 2 low, Nat.pow_succ 2 count, power]
    have first : 0 + less + 1 - 1 = less := by omega
    have second : (0 + less + 1) * 2 - 1 = less * 2 + 1 := by omega
    rw [first, second]
    ring

theorem mask_range (count : Nat) : mask (List.range count) = 2 ^ count - 1 := by
  rw [List.range_eq_range', mask_range', Nat.pow_zero, Nat.one_mul]

end

/-- The lowest bit of a number of `width` bits, as the number and its two's complement share it. -/
def lowestBit (width number : Nat) : Nat := number &&& (2 ^ width - number)

/-- The next number with as many bits: the lowest run of ones is carried, and its other ones are moved down. -/
def gosper (width number : Nat) : Nat :=
  (((number ^^^ (number + lowestBit width number)) >>> 2) / lowestBit width number) ||| (number + lowestBit width number)

section

variable {width low count high : Nat}

theorem lowestBit_eq {number rest : Nat} (shape : number = 2 ^ (low + 1) * rest + 2 ^ low) (fits : number < 2 ^ width) :
    lowestBit width number = 2 ^ low := by
  have small : 2 ^ low < 2 ^ (low + 1) := Nat.pow_lt_pow_succ (by decide)
  have positive : 0 < 2 ^ low := Nat.two_pow_pos low
  have inside : low < width := (Nat.pow_lt_pow_iff_right (by decide : 1 < 2)).1 (lt_of_le_of_lt (by omega) fits)
  have below : number - 1 = 2 ^ (low + 1) * rest + (2 ^ low - 1) := by omega
  have complement : 2 ^ width - number = 2 ^ width - (number - 1 + 1) := by omega
  refine Nat.eq_of_testBit_eq fun index => ?_
  rw [lowestBit, Nat.testBit_and, complement, Nat.testBit_two_pow_sub_succ (by omega), below, shape,
    Nat.testBit_two_pow_mul_add _ small, Nat.testBit_two_pow_mul_add _ (by omega), Nat.testBit_two_pow_sub_one, Nat.testBit_two_pow]
  by_cases beyond : index < low + 1
  · rw [if_pos beyond, if_pos beyond]
    by_cases same : low = index
    · subst same
      simp [inside]
    · simp [same]
  · have different : low ≠ index := by omega
    rw [if_neg beyond, if_neg beyond, decide_eq_false different]
    cases rest.testBit (index - (low + 1)) <;> simp

/-- A run of `count + 1` ones from the bit `low` on, with a zero above it and anything beyond. -/
def runNumber (low count high : Nat) : Nat := 2 ^ (low + count + 2) * high + 2 ^ low * (2 ^ (count + 1) - 1)

theorem runNumber_lowest (fits : runNumber low count high < 2 ^ width) : lowestBit width (runNumber low count high) = 2 ^ low := by
  refine @lowestBit_eq width low _ (2 ^ (count + 1) * high + (2 ^ count - 1)) ?_ fits
  obtain ⟨less, power⟩ := Nat.exists_eq_add_of_lt (Nat.two_pow_pos count)
  have ones : 2 ^ (count + 1) - 1 = 2 * (2 ^ count - 1) + 1 := by
    rw [Nat.pow_succ]
    omega
  rw [runNumber, ones]
  ring

theorem runNumber_ripple : runNumber low count high + 2 ^ low = 2 ^ (low + count + 2) * high + 2 ^ (low + count + 1) := by
  have ones : 2 ^ (count + 1) - 1 + 1 = 2 ^ (count + 1) := Nat.sub_add_cancel Nat.one_le_two_pow
  calc runNumber low count high + 2 ^ low
      = 2 ^ (low + count + 2) * high + 2 ^ low * (2 ^ (count + 1) - 1 + 1) := by
        rw [runNumber]
        ring
    _ = 2 ^ (low + count + 2) * high + 2 ^ (low + count + 1) := by
        rw [ones]
        ring

theorem runNumber_changed :
    runNumber low count high ^^^ (2 ^ (low + count + 2) * high + 2 ^ (low + count + 1)) = 2 ^ low * (2 ^ (count + 2) - 1) := by
  have ones : 2 ^ (count + 1) - 1 < 2 ^ (count + 1) := Nat.sub_one_lt (Nat.two_pow_pos _).ne'
  have runBound : 2 ^ low * (2 ^ (count + 1) - 1) < 2 ^ (low + count + 2) :=
    calc 2 ^ low * (2 ^ (count + 1) - 1) < 2 ^ low * 2 ^ (count + 1) := Nat.mul_lt_mul_of_pos_left ones (Nat.two_pow_pos low)
      _ = 2 ^ (low + count + 1) := by rw [← Nat.pow_add, Nat.add_assoc]
      _ < 2 ^ (low + count + 2) := Nat.pow_lt_pow_succ (by decide)
  have carryBound : 2 ^ (low + count + 1) < 2 ^ (low + count + 2) := Nat.pow_lt_pow_succ (by decide)
  refine Nat.eq_of_testBit_eq fun index => ?_
  rw [Nat.testBit_xor, runNumber, Nat.testBit_two_pow_mul_add _ runBound, Nat.testBit_two_pow_mul_add _ carryBound, Nat.testBit_two_pow_mul,
    Nat.testBit_two_pow_mul, Nat.testBit_two_pow_sub_one, Nat.testBit_two_pow_sub_one, Nat.testBit_two_pow]
  by_cases inside : index < low + count + 2
  · rw [if_pos inside, if_pos inside]
    by_cases above : low ≤ index
    · by_cases top : low + count + 1 = index
      · simp [above, top, show ¬index - low < count + 1 by omega, show index - low < count + 2 by omega]
      · simp [above, top, show index - low < count + 1 by omega, show index - low < count + 2 by omega]
    · simp [above, show low + count + 1 ≠ index by omega]
  · rw [if_neg inside, if_neg inside]
    simp [show ¬index - low < count + 2 by omega]

theorem gosper_runNumber (fits : runNumber low count high < 2 ^ width) :
    gosper width (runNumber low count high) = 2 ^ (low + count + 2) * high + 2 ^ (low + count + 1) + (2 ^ count - 1) := by
  have positive : 0 < 2 ^ low := Nat.two_pow_pos low
  have moved : 2 ^ low * (2 ^ (count + 2) - 1) / 4 / 2 ^ low = 2 ^ count - 1 := by
    rw [Nat.div_div_eq_div_mul, Nat.mul_comm 4, ← Nat.div_div_eq_div_mul, Nat.mul_div_cancel_left _ positive, Nat.pow_add]
    omega
  have few : 2 ^ count - 1 < 2 ^ (low + count + 1) :=
    calc 2 ^ count - 1 < 2 ^ count := Nat.sub_one_lt (Nat.two_pow_pos count).ne'
      _ ≤ 2 ^ (low + count + 1) := Nat.pow_le_pow_right (by decide) (by omega)
  have carried : 2 ^ (low + count + 2) * high + 2 ^ (low + count + 1) = 2 ^ (low + count + 1) * (2 * high + 1) := by ring
  rw [gosper, runNumber_lowest fits, runNumber_ripple, runNumber_changed, Nat.shiftRight_eq_div_pow, moved, carried,
    Nat.two_pow_add_eq_or_of_lt few, Nat.or_comm]

end

section

variable {width : Nat}

theorem gosper_bump {passed item : Nat} {rest : List Nat} (begun : passed ≤ item) (ascending : (item :: rest).Pairwise (· < ·))
    (fits : mask (List.range' (item - passed) passed ++ item :: rest) < 2 ^ width) :
    gosper width (mask (List.range' (item - passed) passed ++ item :: rest)) = mask (bump passed (item :: rest)) := by
  have run : List.range' (item - passed) (passed + 1) = List.range' (item - passed) passed ++ [item] := by
    have last : item - passed + 1 * passed = item := by omega
    rw [List.range'_concat, last]
  have split : List.range' (item - passed) passed ++ item :: rest = List.range' (item - passed) (passed + 1) ++ rest := by
    rw [run, List.append_assoc, List.singleton_append]
  have place : item - passed + passed = item := by omega
  have apart : ∀ {others : List Nat}, (∀ other ∈ others, item + 2 ≤ other) →
      mask (List.range' (item - passed) (passed + 1) ++ others) < 2 ^ width →
      gosper width (mask (List.range' (item - passed) (passed + 1) ++ others)) = mask (List.range passed ++ (item + 1) :: others) := by
    intro others above fits
    obtain ⟨high, whole⟩ := mask_multiple above
    have number : mask (List.range' (item - passed) (passed + 1) ++ others) = runNumber (item - passed) passed high := by
      rw [mask_append, mask_range', whole, runNumber, place, Nat.add_comm]
    rw [number] at fits ⊢
    rw [gosper_runNumber fits, mask_append, mask_range, mask_cons, whole, place]
    omega
  cases rest with
  | nil =>
    rw [split] at fits ⊢
    exact apart (by simp) fits
  | cons next rest =>
    obtain ⟨later, ascending⟩ := List.pairwise_cons.1 ascending
    by_cases follows : next = item + 1
    · subst follows
      have shift : item + 1 - (passed + 1) = item - passed := by omega
      have longer := @gosper_bump (passed + 1) (item + 1) rest (by omega) ascending
      rw [shift, run, List.append_assoc, List.singleton_append] at longer
      rw [bump, if_pos rfl]
      exact longer fits
    · rw [bump, if_neg follows]
      rw [split] at fits ⊢
      refine apart (fun other member => ?_) fits
      have first := later next List.mem_cons_self
      rcases List.mem_cons.1 member with rfl | further
      · omega
      · have beyond := (List.pairwise_cons.1 ascending).1 other further
        omega
termination_by rest.length

theorem gosper_mask {low bound size : Nat} {choice : List Nat} (chosen : IsChoice low bound (size + 1) choice) (fits : bound ≤ width) :
    gosper width (mask choice) = mask (bump 0 choice) := by
  have small : mask choice < 2 ^ width := (mask_lt chosen).trans_le (Nat.pow_le_pow_right (by decide) fits)
  cases choice with
  | nil => exact absurd chosen.length (by simp)
  | cons item rest => exact gosper_bump (Nat.zero_le item) chosen.ascending small

theorem lowestBit_le (width number : Nat) : lowestBit width number ≤ number := Nat.and_le_left

theorem lowestBit_mask_pos {low bound size : Nat} {choice : List Nat} (chosen : IsChoice low bound (size + 1) choice) (fits : bound ≤ width) :
    0 < lowestBit width (mask choice) := by
  have small : mask choice < 2 ^ width := (mask_lt chosen).trans_le (Nat.pow_le_pow_right (by decide) fits)
  cases choice with
  | nil => exact absurd chosen.length (by simp)
  | cons item rest =>
    obtain ⟨factor, whole⟩ := mask_multiple (List.pairwise_cons.1 chosen.ascending).1
    have shape : mask (item :: rest) = 2 ^ (item + 1) * factor + 2 ^ item := by
      rw [mask_cons, whole, Nat.add_comm, Nat.succ_eq_add_one]
    rw [lowestBit_eq shape small]
    exact Nat.two_pow_pos item

end

end Combinations
