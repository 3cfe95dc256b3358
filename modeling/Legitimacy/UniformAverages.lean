import Legitimacy.HighestAverages
import Mathlib.Data.List.GetD
import Mathlib.Data.List.Nodup

namespace HighestAverages

variable {K : Type} [Field K] [LinearOrder K] {P : Type} [DecidableEq P]

def seatsIn (parties : List P) (counts : List Nat) (party : P) : Nat := counts.getD (parties.idxOf party) 0

theorem map_seatsIn {parties : List P} (distinct : parties.Nodup) {counts : List Nat} (sized : counts.length = parties.length) :
    parties.map (seatsIn parties counts) = counts := by
  refine List.ext_getElem (by rw [List.length_map, sized]) fun place inside inCounts => ?_
  rw [List.length_map] at inside
  rw [List.getElem_map, seatsIn, distinct.idxOf_getElem place inside, List.getD_eq_getElem _ _ inCounts]

section

variable {tolerance : K} {value : P → K}

def Leads (tolerance : K) (value : P → K) (parties : List P) (leader : P) : Prop :=
  ∃ front back, parties = front ++ leader :: back ∧ (∀ party ∈ front, value party + tolerance < value leader) ∧
    ∀ party ∈ back, value party ≤ value leader + tolerance

omit [DecidableEq P] in
theorem Leads.filter {parties : List P} {leader : P} (leads : Leads tolerance value parties leader) {keep : P → Bool} (kept : keep leader) :
    Leads tolerance value (parties.filter keep) leader := by
  obtain ⟨front, back, rfl, before, behind⟩ := leads
  refine ⟨front.filter keep, back.filter keep, ?_, fun party member => before party (List.mem_filter.1 member).1,
    fun party member => behind party (List.mem_filter.1 member).1⟩
  rw [List.filter_append, List.filter_cons_of_pos kept]

omit [DecidableEq P] in
theorem scan_leader [IsStrictOrderedRing K] (tolerant : 0 ≤ tolerance) {front back : List P} {leader : P} (before : ∀ party ∈ front, value party + tolerance < value leader)
    (behind : ∀ party ∈ back, value party ≤ value leader + tolerance) :
    scan tolerance ((front ++ leader :: back).map value) = some (front.length, value leader) := by
  induction back using List.reverseRecOn with
  | nil =>
    rw [List.map_append, List.map_singleton, scan_append, List.length_map]
    cases earlier : scan tolerance (front.map value) with
    | none => rfl
    | some kept =>
      obtain ⟨index, quotient⟩ := kept
      obtain ⟨party, member, rfl⟩ := List.mem_map.1 (List.mem_of_getElem? (scan_picks tolerant earlier).entry)
      exact if_pos (before party member)
  | append_singleton rest last ih =>
    obtain ⟨others, atLast⟩ := List.forall_mem_append.1 behind
    rw [← List.cons_append, ← List.append_assoc, List.map_append, List.map_singleton, scan_append, ih others]
    exact if_neg (not_lt.2 (atLast last (List.mem_singleton_self last)))

end

section

variable {tolerance : K} {divisor : Nat → K} {strength : P → K}

def average (divisor : Nat → K) (strength : P → K) (seats : P → Nat) (party : P) : K := strength party / divisor (seats party)

omit [LinearOrder K] [DecidableEq P] in
theorem quotients_map (parties : List P) (seats : P → Nat) :
    quotients divisor (parties.map strength) (parties.map seats) = parties.map (average divisor strength seats) := by
  rw [quotients, List.zipWith_map, List.zipWith_self]
  rfl

theorem modify_middle (front back : List Nat) (count : Nat) :
    (front ++ count :: back).modify front.length (· + 1) = front ++ (count + 1) :: back := by
  induction front with
  | nil => rfl
  | cons first rest ih => exact congrArg (first :: ·) ih

theorem modify_map {front back : List P} {party : P} (distinct : (front ++ party :: back).Nodup) (seats : P → Nat) :
    ((front ++ party :: back).map seats).modify front.length (· + 1) =
      (front ++ party :: back).map (Function.update seats party (seats party + 1)) := by
  obtain ⟨-, later, apart⟩ := List.nodup_append.1 distinct
  have others {rest : List P} (outside : party ∉ rest) : rest.map (Function.update seats party (seats party + 1)) = rest.map seats := by
    refine List.map_congr_left fun other member => Function.update_of_ne ?_ _ _
    rintro rfl
    exact outside member
  have inFront : party ∉ front := fun member => apart party member party List.mem_cons_self rfl
  have middle := modify_middle (front.map seats) (back.map seats) (seats party)
  rw [List.length_map] at middle
  rw [List.map_append, List.map_append, List.map_cons, List.map_cons, others inFront, others (List.nodup_cons.1 later).1,
    Function.update_self, middle]

def seatsOf (tolerance : K) (divisor : Nat → K) (strength : P → K) (parties : List P) (house : Nat) : P → Nat :=
  seatsIn parties (award tolerance divisor (parties.map strength) house)

/-- Whichever parties stay, they get the seats that they have among all when the house is what they have together. -/
def Uniform (tolerance : K) (divisor : Nat → K) (strength : P → K) (parties : List P) (seats : P → Nat) : Prop :=
  ∀ keep : P → Bool, award tolerance divisor ((parties.filter keep).map strength) ((parties.filter keep).map seats).sum =
    (parties.filter keep).map seats

def Decisive (tolerance : K) (divisor : Nat → K) (strength : P → K) (parties : List P) (seats : P → Nat) : Prop :=
  parties = [] ∨ ∃ leader, Leads tolerance (average divisor strength seats) parties leader

variable {parties : List P}

omit [DecidableEq P] in
theorem Decisive.congr {seats others : P → Nat} (decisive : Decisive tolerance divisor strength parties seats)
    (same : ∀ party ∈ parties, seats party = others party) : Decisive tolerance divisor strength parties others := by
  have averages : ∀ party ∈ parties, average divisor strength seats party = average divisor strength others party := by
    intro party member
    rw [average, average, same party member]
  rcases decisive with empty | ⟨leader, front, back, rfl, before, behind⟩
  · exact .inl empty
  · have atLeader := averages leader (List.mem_append_right _ List.mem_cons_self)
    refine .inr ⟨leader, front, back, rfl, fun party member => ?_, fun party member => ?_⟩
    · rw [← averages party (List.mem_append_left _ member), ← atLeader]
      exact before party member
    · rw [← averages party (List.mem_append_right _ (List.mem_cons_of_mem _ member)), ← atLeader]
      exact behind party member

theorem map_seatsOf (tolerance : K) (divisor : Nat → K) (strength : P → K) (distinct : parties.Nodup) (house : Nat) :
    parties.map (seatsOf tolerance divisor strength parties house) = award tolerance divisor (parties.map strength) house :=
  map_seatsIn distinct (by rw [length_award, List.length_map])

theorem awardSeat_map {front back : List P} {party : P} (distinct : (front ++ party :: back).Nodup) (seats : P → Nat) {quotient : K}
    (found : scan tolerance ((front ++ party :: back).map (average divisor strength seats)) = some (front.length, quotient)) :
    awardSeat tolerance divisor ((front ++ party :: back).map strength) ((front ++ party :: back).map seats) =
      (front ++ party :: back).map (Function.update seats party (seats party + 1)) := by
  rw [awardSeat, quotients_map, found]
  exact modify_map distinct seats

theorem awardSeat_leads [IsStrictOrderedRing K] (tolerant : 0 ≤ tolerance) (distinct : parties.Nodup) {seats : P → Nat} {leader : P}
    (leads : Leads tolerance (average divisor strength seats) parties leader) :
    awardSeat tolerance divisor (parties.map strength) (parties.map seats) =
      parties.map (Function.update seats leader (seats leader + 1)) := by
  obtain ⟨front, back, rfl, before, behind⟩ := leads
  exact awardSeat_map distinct seats (scan_leader tolerant before behind)

theorem sum_update (distinct : parties.Nodup) (seats : P → Nat) {party : P} (member : party ∈ parties) :
    (parties.map (Function.update seats party (seats party + 1))).sum = (parties.map seats).sum + 1 := by
  obtain ⟨front, back, rfl⟩ := List.append_of_mem member
  rw [← modify_map distinct, sum_modify (by simp)]

theorem map_update_of_notMem (seats : P → Nat) {party : P} (outside : party ∉ parties) (count : Nat) :
    parties.map (Function.update seats party count) = parties.map seats := by
  refine List.map_congr_left fun other member => Function.update_of_ne ?_ _ _
  rintro rfl
  exact outside member

omit [DecidableEq P] in
theorem Uniform.congr {seats others : P → Nat} (uniform : Uniform tolerance divisor strength parties seats)
    (same : ∀ party ∈ parties, seats party = others party) : Uniform tolerance divisor strength parties others := by
  intro keep
  have kept : (parties.filter keep).map seats = (parties.filter keep).map others :=
    List.map_congr_left fun party member => same party (List.mem_filter.1 member).1
  rw [← kept]
  exact uniform keep

omit [DecidableEq P] in
theorem uniform_zero (tolerance : K) (divisor : Nat → K) (strength : P → K) (parties : List P) :
    Uniform tolerance divisor strength parties fun _ => 0 := by
  intro keep
  have none : ((parties.filter keep).map fun _ => 0).sum = 0 := by simp
  rw [none, award, List.length_map, List.map_const']

omit [DecidableEq P] in
theorem uniform_nil (tolerance : K) (divisor : Nat → K) (strength : P → K) (seats : P → Nat) :
    Uniform tolerance divisor strength [] seats := by
  intro keep
  exact List.length_eq_zero_iff.1 (length_award _ _ _ _)

theorem Uniform.update [IsStrictOrderedRing K] (tolerant : 0 ≤ tolerance) (distinct : parties.Nodup) {seats : P → Nat}
    (uniform : Uniform tolerance divisor strength parties seats) {leader : P}
    (leads : Leads tolerance (average divisor strength seats) parties leader) :
    Uniform tolerance divisor strength parties (Function.update seats leader (seats leader + 1)) := by
  intro keep
  have same := uniform keep
  by_cases kept : keep leader
  · have inside := leads.filter kept
    have member : leader ∈ parties.filter keep := by
      obtain ⟨front, back, split, -⟩ := inside
      rw [split]
      exact List.mem_append_right _ List.mem_cons_self
    rw [sum_update (distinct.filter keep) seats member, award, same]
    exact awardSeat_leads tolerant (distinct.filter keep) inside
  · have outside : leader ∉ parties.filter keep := fun member => kept (List.mem_filter.1 member).2
    rw [map_update_of_notMem seats outside, same]

theorem filter_pair {before between back : List P} {first second : P} (distinct : (before ++ first :: (between ++ second :: back)).Nodup) :
    (before ++ first :: (between ++ second :: back)).filter (fun party => party = first ∨ party = second) = [first, second] := by
  have none {rest : List P} (apart : first ∉ rest ∧ second ∉ rest) : rest.filter (fun party => party = first ∨ party = second) = [] := by
    refine List.filter_eq_nil_iff.2 fun party member => ?_
    rw [decide_eq_true_eq]
    rintro (rfl | rfl)
    · exact apart.1 member
    · exact apart.2 member
  obtain ⟨-, later, apartBefore⟩ := List.nodup_append.1 distinct
  obtain ⟨firstOutside, later⟩ := List.nodup_cons.1 later
  obtain ⟨-, last, apartBetween⟩ := List.nodup_append.1 later
  have inBefore : first ∉ before ∧ second ∉ before :=
    ⟨fun member => apartBefore first member first List.mem_cons_self rfl, fun member => apartBefore second member second (by simp) rfl⟩
  have inBetween : first ∉ between ∧ second ∉ between :=
    ⟨fun member => firstOutside (List.mem_append_left _ member), fun member => apartBetween second member second List.mem_cons_self rfl⟩
  have inBack : first ∉ back ∧ second ∉ back :=
    ⟨fun member => firstOutside (List.mem_append_right _ (List.mem_cons_of_mem _ member)), (List.nodup_cons.1 last).1⟩
  rw [List.filter_append, List.filter_cons_of_pos (by simp), List.filter_append, List.filter_cons_of_pos (by simp), none inBefore,
    none inBetween, none inBack]
  rfl

theorem pair_second {first second : P} (apart : first ≠ second) {seats : P → Nat}
    (step : awardSeat tolerance divisor ([first, second].map strength) ([first, second].map seats) =
      [first, second].map (Function.update seats second (seats second + 1))) :
    average divisor strength seats first + tolerance < average divisor strength seats second := by
  by_contra notAbove
  have found : scan tolerance ([first, second].map (average divisor strength seats)) = some (0, average divisor strength seats first) :=
    if_neg notAbove
  have stays := @awardSeat_map _ _ _ _ _ _ divisor strength [] [second] first (by simpa using apart) seats _ found
  rw [List.nil_append, step] at stays
  have atFirst := (List.cons.inj stays).1
  rw [Function.update_of_ne apart, Function.update_self] at atFirst
  omega

theorem seatsOf_succ (distinct : parties.Nodup) {house : Nat} {party : P}
    (step : awardSeat tolerance divisor (parties.map strength) (parties.map (seatsOf tolerance divisor strength parties house)) =
      parties.map (Function.update (seatsOf tolerance divisor strength parties house) party
        (seatsOf tolerance divisor strength parties house party + 1))) :
    ∀ other ∈ parties, seatsOf tolerance divisor strength parties (house + 1) other =
      Function.update (seatsOf tolerance divisor strength parties house) party
        (seatsOf tolerance divisor strength parties house party + 1) other := by
  rw [← List.map_inj_left, ← step, map_seatsOf tolerance divisor strength distinct (house + 1), award,
    map_seatsOf tolerance divisor strength distinct house]

variable [IsStrictOrderedRing K] (tolerant : 0 ≤ tolerance)

include tolerant

theorem exists_awarded (distinct : parties.Nodup) (nonempty : parties ≠ []) (seats : P → Nat) :
    ∃ front back party quotient, parties = front ++ party :: back ∧
      scan tolerance (parties.map (average divisor strength seats)) = some (front.length, quotient) ∧
      awardSeat tolerance divisor (parties.map strength) (parties.map seats) =
        parties.map (Function.update seats party (seats party + 1)) := by
  have candidates : parties.map (average divisor strength seats) ≠ [] := fun none => nonempty (List.map_eq_nil_iff.1 none)
  obtain ⟨index, quotient, found⟩ := exists_scan tolerance candidates
  have inside := (List.getElem?_eq_some_iff.1 (scan_picks tolerant found).entry).1
  rw [List.length_map] at inside
  have split : parties = parties.take index ++ parties[index] :: parties.drop (index + 1) := by
    rw [List.getElem_cons_drop, List.take_append_drop]
  have length : (parties.take index).length = index := by
    rw [List.length_take]
    omega
  generalize parties.take index = front at split length
  generalize parties[index] = party at split
  generalize parties.drop (index + 1) = back at split
  subst split length
  exact ⟨front, back, party, quotient, rfl, found, awardSeat_map distinct seats found⟩

theorem Uniform.leads (distinct : parties.Nodup) {seats : P → Nat} (uniform : Uniform tolerance divisor strength parties seats)
    {front back : List P} {party : P} {quotient : K} (split : parties = front ++ party :: back)
    (found : scan tolerance (parties.map (average divisor strength seats)) = some (front.length, quotient))
    (after : Uniform tolerance divisor strength parties (Function.update seats party (seats party + 1))) :
    Leads tolerance (average divisor strength seats) parties party := by
  subst split
  have picks := scan_picks tolerant found
  have entry := picks.entry
  rw [List.getElem?_map, List.getElem?_append_right (Nat.le_refl _), Nat.sub_self] at entry
  obtain rfl := Option.some.inj entry
  refine ⟨front, back, rfl, fun other member => ?_, fun other member => ?_⟩
  · obtain ⟨before, between, rfl⟩ := List.append_of_mem member
    rw [List.append_assoc, List.cons_append] at distinct uniform after
    have apart : other ≠ party := by
      rintro rfl
      exact (List.nodup_cons.1 (List.nodup_append.1 distinct).2.1).1 (List.mem_append_right _ List.mem_cons_self)
    have pair := uniform fun candidate => candidate = other ∨ candidate = party
    have grown := after fun candidate => candidate = other ∨ candidate = party
    rw [filter_pair distinct] at pair grown
    rw [sum_update (by simpa using apart) seats (by simp), award, pair] at grown
    exact pair_second apart grown
  · exact picks.most _ (List.mem_map.2 ⟨other, List.mem_append_right _ (List.mem_cons_of_mem _ member), rfl⟩)

theorem uniform_iff (distinct : parties.Nodup) (house : Nat) :
    (∀ seats ≤ house, Uniform tolerance divisor strength parties (seatsOf tolerance divisor strength parties seats)) ↔
      ∀ seats < house, Decisive tolerance divisor strength parties (seatsOf tolerance divisor strength parties seats) := by
  constructor
  · intro uniform round below
    by_cases empty : parties = []
    · exact .inl empty
    · obtain ⟨front, back, party, quotient, split, found, step⟩ :=
        exists_awarded tolerant distinct empty (seatsOf tolerance divisor strength parties round)
      have after := (uniform (round + 1) below).congr (seatsOf_succ distinct step)
      exact .inr ⟨party, (uniform round (Nat.le_of_lt below)).leads tolerant distinct split found after⟩
  · intro decisive round within
    induction round with
    | zero =>
      have start : parties.map (fun _ => 0) = parties.map (seatsOf tolerance divisor strength parties 0) := by
        rw [map_seatsOf tolerance divisor strength distinct 0, award, List.length_map, List.map_const']
      exact (uniform_zero tolerance divisor strength parties).congr (List.map_inj_left.1 start)
    | succ round ih =>
      rcases decisive round within with rfl | ⟨leader, leads⟩
      · exact uniform_nil tolerance divisor strength _
      · have after := (ih (Nat.le_of_lt within)).update tolerant distinct leads
        exact after.congr fun party member => (seatsOf_succ distinct (awardSeat_leads tolerant distinct leads) party member).symm

end

end HighestAverages
