import Mathlib.Data.List.Nodup
import Mathlib.Data.List.Pairwise
import Mathlib.Data.List.Perm.Basic
import Mathlib.Data.List.Sort

namespace SetPartitions

variable {count number : Nat} {blocks others : List (List Nat)} {block : List Nat}

/-- Every number below the count is in one block; the blocks ascend, and so do their heads. -/
structure IsPartition (count : Nat) (blocks : List (List Nat)) : Prop where
  nonempty : ∀ block ∈ blocks, block ≠ []
  ascending : ∀ block ∈ blocks, block.Pairwise (· < ·)
  ordered : blocks.Pairwise fun left right => left.headD 0 < right.headD 0
  covers : blocks.flatten.Perm (List.range count)

def Together (blocks : List (List Nat)) (left right : Nat) : Prop := ∃ block ∈ blocks, left ∈ block ∧ right ∈ block

namespace IsPartition

section

variable (partitions : IsPartition count blocks)

include partitions

theorem mem_iff : (∃ block ∈ blocks, number ∈ block) ↔ number < count := by
  rw [← List.mem_flatten, partitions.covers.mem_iff, List.mem_range]

theorem lt_count (listed : block ∈ blocks) (member : number ∈ block) : number < count :=
  partitions.mem_iff.1 ⟨block, listed, member⟩

theorem disjoint : blocks.Pairwise List.Disjoint :=
  (List.nodup_flatten.1 (partitions.covers.nodup_iff.2 List.nodup_range)).2

theorem eq_of_mem {other : List Nat} (listed : block ∈ blocks) (alsoListed : other ∈ blocks)
    (member : number ∈ block) (alsoMember : number ∈ other) : block = other := by
  by_contra apart
  have : Std.Symm (@List.Disjoint Nat) := ⟨fun _ _ separate _ isRight isLeft => separate isLeft isRight⟩
  exact partitions.disjoint.forall listed alsoListed apart member alsoMember

theorem mem_block_iff (listed : block ∈ blocks) (member : number ∈ block) {other : Nat} :
    other ∈ block ↔ Together blocks number other := by
  constructor
  · exact fun also => ⟨block, listed, member, also⟩
  · rintro ⟨found, alsoListed, atNumber, atOther⟩
    exact partitions.eq_of_mem alsoListed listed atNumber member ▸ atOther

theorem mem_of_together (partitionsOthers : IsPartition count others)
    (same : ∀ left right, Together blocks left right ↔ Together others left right) (listed : block ∈ blocks) : block ∈ others := by
  obtain ⟨number, member⟩ := List.exists_mem_of_ne_nil block (partitions.nonempty block listed)
  obtain ⟨other, alsoListed, alsoMember⟩ := partitionsOthers.mem_iff.2 (partitions.lt_count listed member)
  have equal : block = other := (partitions.ascending block listed).eq_of_mem_iff (partitionsOthers.ascending other alsoListed) fun _ => by
    rw [partitions.mem_block_iff listed member, same, partitionsOthers.mem_block_iff alsoListed alsoMember]
  exact equal ▸ alsoListed

theorem unique (partitionsOthers : IsPartition count others)
    (same : ∀ left right, Together blocks left right ↔ Together others left right) : blocks = others := by
  have distinct : ∀ {listing : List (List Nat)}, IsPartition count listing → listing.Nodup := fun partition =>
    partition.ordered.imp fun below equal => absurd (equal ▸ below) (lt_irrefl _)
  have perm := (List.perm_ext_iff_of_nodup (distinct partitions) (distinct partitionsOthers)).2 fun _ =>
    ⟨partitions.mem_of_together partitionsOthers same, partitionsOthers.mem_of_together partitions fun left right => (same left right).symm⟩
  exact List.Perm.eq_of_pairwise (fun _ _ _ _ below above => absurd below (Nat.lt_asymm above)) partitions.ordered partitionsOthers.ordered perm

theorem lt_of_together {left right : Nat} (together : Together blocks left right) :
    left < count ∧ right < count := by
  obtain ⟨block, listed, isLeft, isRight⟩ := together
  exact ⟨partitions.lt_count listed isLeft, partitions.lt_count listed isRight⟩

theorem unique_below (partitionsOthers : IsPartition count others)
    (same : ∀ left < count, ∀ right < count, (Together blocks left right ↔ Together others left right)) : blocks = others := by
  refine partitions.unique partitionsOthers fun left right => ⟨fun together => ?_, fun together => ?_⟩
  · obtain ⟨isLeft, isRight⟩ := partitions.lt_of_together together
    exact (same left isLeft right isRight).1 together
  · obtain ⟨isLeft, isRight⟩ := partitionsOthers.lt_of_together together
    exact (same left isLeft right isRight).2 together

end

end IsPartition

section

/-- All ways to put a number into one of the blocks, and the one that gives it a block of its own. -/
def insertions (number : Nat) : List (List Nat) → List (List (List Nat))
  | [] => [[[number]]]
  | block :: rest => ((block ++ [number]) :: rest) :: (insertions number rest).map (block :: ·)

theorem mem_insertions : others ∈ insertions number blocks ↔
    (∃ before block after, blocks = before ++ block :: after ∧ others = before ++ (block ++ [number]) :: after) ∨ others = blocks ++ [[number]] := by
  induction blocks generalizing others with
  | nil => simp [insertions]
  | cons first rest ih =>
    rw [insertions, List.mem_cons, List.mem_map]
    constructor
    · rintro (rfl | ⟨tail, member, rfl⟩)
      · exact .inl ⟨[], first, rest, rfl, rfl⟩
      · rcases ih.1 member with ⟨before, block, after, rfl, rfl⟩ | rfl
        · exact .inl ⟨first :: before, block, after, rfl, rfl⟩
        · exact .inr rfl
    · rintro (⟨before, block, after, split, rfl⟩ | rfl)
      · cases before with
        | nil =>
          obtain ⟨rfl, rfl⟩ := List.cons.inj split
          exact .inl rfl
        | cons head tail =>
          obtain ⟨rfl, rfl⟩ := List.cons.inj split
          exact .inr ⟨_, ih.2 (.inl ⟨tail, block, after, rfl, rfl⟩), rfl⟩
      · exact .inr ⟨_, ih.2 (.inr rfl), rfl⟩

theorem nodup_insertions (number : Nat) (blocks : List (List Nat)) : (insertions number blocks).Nodup := by
  induction blocks with
  | nil => exact List.nodup_singleton _
  | cons first rest ih =>
    refine List.nodup_cons.2 ⟨fun member => ?_, ih.map fun _ _ same => (List.cons.inj same).2⟩
    obtain ⟨tail, -, same⟩ := List.mem_map.1 member
    have longer := congrArg List.length (List.cons.inj same).1
    rw [List.length_append, List.length_singleton] at longer
    omega

theorem flatten_insertion (member : others ∈ insertions number blocks) : others.flatten.Perm (number :: blocks.flatten) := by
  rcases mem_insertions.1 member with ⟨before, block, after, rfl, rfl⟩ | rfl
  · have moved : (block ++ [number] ++ after.flatten).Perm (number :: (block ++ after.flatten)) := by
      rw [List.append_assoc, List.singleton_append]
      exact List.perm_middle
    rw [List.flatten_append, List.flatten_append, List.flatten_cons, List.flatten_cons]
    exact (moved.append_left before.flatten).trans List.perm_middle
  · rw [List.flatten_append, List.flatten_singleton]
    exact List.perm_append_singleton number blocks.flatten

theorem IsPartition.insertion (partitions : IsPartition count blocks) (member : others ∈ insertions count blocks) :
    IsPartition (count + 1) others := by
  have covers : others.flatten.Perm (List.range (count + 1)) := by
    rw [List.range_succ]
    exact (flatten_insertion member).trans ((partitions.covers.cons count).trans (List.perm_append_singleton count _).symm)
  rcases mem_insertions.1 member with ⟨before, block, after, rfl, rfl⟩ | rfl
  · have listed : block ∈ before ++ block :: after := by simp
    refine ⟨fun other isOther => ?_, fun other isOther => ?_, ?_, covers⟩
    · rcases List.mem_append.1 isOther with early | late
      · exact partitions.nonempty other (List.mem_append_left _ early)
      · rcases List.mem_cons.1 late with rfl | later
        · simp
        · exact partitions.nonempty other (List.mem_append_right _ (List.mem_cons_of_mem _ later))
    · rcases List.mem_append.1 isOther with early | late
      · exact partitions.ascending other (List.mem_append_left _ early)
      · rcases List.mem_cons.1 late with rfl | later
        · refine List.pairwise_append.2 ⟨partitions.ascending block listed, List.pairwise_singleton _ _, fun number isNumber last isLast => ?_⟩
          rw [List.mem_singleton.1 isLast]
          exact partitions.lt_count listed isNumber
        · exact partitions.ascending other (List.mem_append_right _ (List.mem_cons_of_mem _ later))
    · -- the heads stay as they are
      obtain ⟨first, rest, rfl⟩ := List.exists_cons_of_ne_nil (partitions.nonempty block listed)
      have heads := List.pairwise_map.2 partitions.ordered
      refine List.pairwise_map.1 ?_
      rw [List.map_append, List.map_cons] at heads ⊢
      exact heads
  · refine ⟨fun other isOther => ?_, fun other isOther => ?_, ?_, covers⟩
    · rcases List.mem_append.1 isOther with early | last
      · exact partitions.nonempty other early
      · rw [List.mem_singleton.1 last]
        exact List.cons_ne_nil _ _
    · rcases List.mem_append.1 isOther with early | last
      · exact partitions.ascending other early
      · rw [List.mem_singleton.1 last]
        exact List.pairwise_singleton _ _
    · refine List.pairwise_append.2 ⟨partitions.ordered, List.pairwise_singleton _ _, fun other isOther last isLast => ?_⟩
      obtain ⟨first, rest, rfl⟩ := List.exists_cons_of_ne_nil (partitions.nonempty other isOther)
      rw [List.mem_singleton.1 isLast]
      exact partitions.lt_count isOther List.mem_cons_self

end

section

/-- The blocks without a number. -/
def strip (number : Nat) (blocks : List (List Nat)) : List (List Nat) := (blocks.map fun block => block.filter (· ≠ number)).filter (· ≠ [])

theorem strip_append (number : Nat) (before after : List (List Nat)) :
    strip number (before ++ after) = strip number before ++ strip number after := by
  simp [strip]

theorem strip_eq (nonempty : ∀ block ∈ blocks, block ≠ []) (absent : ∀ block ∈ blocks, number ∉ block) : strip number blocks = blocks := by
  unfold strip
  have same : (blocks.map fun block => block.filter (· ≠ number)) = blocks := by
    refine (List.map_congr_left fun block listed => ?_).trans (List.map_id blocks)
    exact List.filter_eq_self.2 fun other member => by simpa using fun equal : other = number => absent block listed (equal ▸ member)
  rw [same]
  exact List.filter_eq_self.2 fun block listed => by simpa using nonempty block listed

theorem IsPartition.absent (partitions : IsPartition count blocks) : ∀ block ∈ blocks, count ∉ block := fun _ listed member =>
  lt_irrefl count (partitions.lt_count listed member)

theorem IsPartition.strip_insertion (partitions : IsPartition count blocks) (member : others ∈ insertions count blocks) :
    strip count others = blocks := by
  have kept : ∀ {some : List (List Nat)}, (∀ block ∈ some, block ∈ blocks) → strip count some = some := fun within =>
    strip_eq (fun block listed => partitions.nonempty block (within block listed)) fun block listed => partitions.absent block (within block listed)
  rcases mem_insertions.1 member with ⟨before, block, after, rfl, rfl⟩ | rfl
  · have listed : block ∈ before ++ block :: after := by simp
    have front := kept fun other isOther => List.mem_append_left (block :: after) isOther
    have back := kept fun other isOther => List.mem_append_right before (List.mem_cons_of_mem block isOther)
    have grown : strip count [block ++ [count]] = [block] := by
      have whole : (block.filter fun other => !decide (other = count)) = block :=
        List.filter_eq_self.2 fun other isOther => by simpa using fun equal : other = count => partitions.absent block listed (equal ▸ isOther)
      have some := partitions.nonempty block listed
      simp [strip, List.filter_append, whole, some]
    rw [← List.singleton_append, strip_append, strip_append, front, back, grown]
    rfl
  · have front := kept fun other (isOther : other ∈ blocks) => isOther
    have lone : strip count [[count]] = [] := by simp [strip]
    rw [strip_append, front, lone, List.append_nil]

/-- Without its last number a partition is one of the numbers below. -/
theorem IsPartition.exists_insertion (partitions : IsPartition (count + 1) others) :
    ∃ blocks, IsPartition count blocks ∧ others ∈ insertions count blocks := by
  obtain ⟨last, listed, member⟩ := partitions.mem_iff.2 (Nat.lt_succ_self count)
  obtain ⟨before, after, rfl⟩ := List.append_of_mem listed
  -- the number is the greatest of its block
  obtain ⟨block, rfl⟩ : ∃ block, last = block ++ [count] := by
    obtain ⟨front, back, rfl⟩ := List.append_of_mem member
    cases back with
    | nil => exact ⟨front, rfl⟩
    | cons next rest =>
      have above := (List.pairwise_cons.1 (List.pairwise_append.1 (partitions.ascending _ listed)).2.1).1 next List.mem_cons_self
      have below := partitions.lt_count listed (by simp : next ∈ front ++ count :: next :: rest)
      omega
  have covers : (before.flatten ++ (block ++ after.flatten)).Perm (List.range count) := by
    have whole := partitions.covers
    rw [List.range_succ, List.flatten_append, List.flatten_cons, List.append_assoc, List.singleton_append] at whole
    have moved : (before.flatten ++ (block ++ count :: after.flatten)).Perm (count :: (before.flatten ++ (block ++ after.flatten))) := by
      have inner : (block ++ count :: after.flatten).Perm (count :: (block ++ after.flatten)) := List.perm_middle
      exact (inner.append_left before.flatten).trans List.perm_middle
    exact (moved.symm.trans (whole.trans (List.perm_append_singleton count _))).cons_inv
  by_cases alone : block = []
  · -- a block of its own is the last one
    subst alone
    have none : after = [] := by
      cases after with
      | nil => rfl
      | cons next rest =>
        have above := (List.pairwise_cons.1 (List.pairwise_append.1 partitions.ordered).2.1).1 next List.mem_cons_self
        obtain ⟨first, others, rfl⟩ := List.exists_cons_of_ne_nil (partitions.nonempty next (by simp))
        have below := partitions.lt_count (by simp : first :: others ∈ before ++ ([] ++ [count]) :: (first :: others) :: rest) List.mem_cons_self
        change count < first at above
        omega
    subst none
    refine ⟨before, ⟨fun other isOther => partitions.nonempty other (List.mem_append_left _ isOther),
      fun other isOther => partitions.ascending other (List.mem_append_left _ isOther), (List.pairwise_append.1 partitions.ordered).1, ?_⟩,
      mem_insertions.2 (.inr rfl)⟩
    simpa using covers
  · refine ⟨before ++ block :: after, ⟨fun other isOther => ?_, fun other isOther => ?_, ?_, ?_⟩,
      mem_insertions.2 (.inl ⟨before, block, after, rfl, rfl⟩)⟩
    · rcases List.mem_append.1 isOther with early | late
      · exact partitions.nonempty other (List.mem_append_left _ early)
      · rcases List.mem_cons.1 late with rfl | later
        · exact alone
        · exact partitions.nonempty other (List.mem_append_right _ (List.mem_cons_of_mem _ later))
    · rcases List.mem_append.1 isOther with early | late
      · exact partitions.ascending other (List.mem_append_left _ early)
      · rcases List.mem_cons.1 late with rfl | later
        · exact (List.pairwise_append.1 (partitions.ascending _ listed)).1
        · exact partitions.ascending other (List.mem_append_right _ (List.mem_cons_of_mem _ later))
    · obtain ⟨first, rest, rfl⟩ := List.exists_cons_of_ne_nil alone
      have heads := List.pairwise_map.2 partitions.ordered
      refine List.pairwise_map.1 ?_
      rw [List.map_append, List.map_cons] at heads ⊢
      exact heads
    · rw [List.flatten_append, List.flatten_cons]
      exact covers

end

section

/-- All partitions of the numbers below a count. -/
def enumerate : Nat → List (List (List Nat))
  | 0 => [[]]
  | count + 1 => (enumerate count).flatMap (insertions count)

theorem isPartition_zero : IsPartition 0 blocks ↔ blocks = [] := by
  constructor
  · intro partitions
    by_contra some
    obtain ⟨block, listed⟩ := List.exists_mem_of_ne_nil blocks some
    obtain ⟨number, member⟩ := List.exists_mem_of_ne_nil block (partitions.nonempty block listed)
    exact Nat.not_lt_zero number (partitions.lt_count listed member)
  · rintro rfl
    exact ⟨by simp, by simp, List.Pairwise.nil, List.Perm.nil⟩

theorem mem_enumerate : blocks ∈ enumerate count ↔ IsPartition count blocks := by
  induction count generalizing blocks with
  | zero => rw [isPartition_zero, enumerate, List.mem_singleton]
  | succ count ih =>
    rw [enumerate, List.mem_flatMap]
    constructor
    · rintro ⟨rest, listed, member⟩
      exact (ih.1 listed).insertion member
    · intro partitions
      obtain ⟨rest, isRest, member⟩ := partitions.exists_insertion
      exact ⟨rest, ih.2 isRest, member⟩

theorem nodup_enumerate (count : Nat) : (enumerate count).Nodup := by
  induction count with
  | zero => exact List.nodup_singleton _
  | succ count ih =>
    refine List.nodup_flatMap.2 ⟨fun rest _ => nodup_insertions count rest, ?_⟩
    refine ih.imp_of_mem fun {first second} isFirst isSecond apart => ?_
    intro blocks fromFirst fromSecond
    exact apart (((mem_enumerate.1 isFirst).strip_insertion fromFirst).symm.trans ((mem_enumerate.1 isSecond).strip_insertion fromSecond))

end

section

theorem headD_mem (some : block ≠ []) : block.headD 0 ∈ block := by
  obtain ⟨first, rest, rfl⟩ := List.exists_cons_of_ne_nil some
  exact List.mem_cons_self

theorem headD_le (ascending : block.Pairwise (· < ·)) (member : number ∈ block) : block.headD 0 ≤ number := by
  cases block with
  | nil => cases member
  | cons first rest =>
    rcases List.mem_cons.1 member with rfl | later
    · exact le_rfl
    · exact ((List.pairwise_cons.1 ascending).1 number later).le

theorem headD_eq (ascending : block.Pairwise (· < ·)) (member : number ∈ block) (least : ∀ other ∈ block, number ≤ other) : block.headD 0 = number :=
  le_antisymm (headD_le ascending member) (least _ (headD_mem (List.ne_nil_of_mem member)))

variable (count) (related : Nat → Nat → Prop) [DecidableRel related]

def classOf (number : Nat) : List Nat := (List.range count).filter fun other => related number other

def leastMembers : List Nat := (List.range count).filter fun number => ∀ other < number, ¬related other number

def classes : List (List Nat) := (leastMembers count related).map (classOf count related)

structure EquivalenceBelow (count : Nat) (related : Nat → Nat → Prop) : Prop where
  refl : ∀ number < count, related number number
  symm : ∀ left right, related left right → related right left
  trans : ∀ left middle right, related left middle → related middle right → related left right

variable {count related}

theorem mem_classOf {other : Nat} : other ∈ classOf count related number ↔ other < count ∧ related number other := by
  simp [classOf]

theorem mem_leastMembers : number ∈ leastMembers count related ↔ number < count ∧ ∀ other < number, ¬related other number := by
  simp [leastMembers]

theorem classOf_ascending : (classOf count related number).Pairwise (· < ·) := List.Pairwise.filter _ List.pairwise_lt_range

theorem leastMembers_ascending : (leastMembers count related).Pairwise (· < ·) := List.Pairwise.filter _ List.pairwise_lt_range

namespace EquivalenceBelow

theorem headD_classOf (equivalence : EquivalenceBelow count related) (least : number ∈ leastMembers count related) :
    (classOf count related number).headD 0 = number := by
  obtain ⟨below, none⟩ := mem_leastMembers.1 least
  refine headD_eq classOf_ascending (mem_classOf.2 ⟨below, equivalence.refl number below⟩) fun other member => ?_
  by_contra smaller
  exact none other (Nat.lt_of_not_le smaller) (equivalence.symm _ _ (mem_classOf.1 member).2)

theorem eq_of_related (equivalence : EquivalenceBelow count related) {left right : Nat} (isLeft : left ∈ leastMembers count related)
    (isRight : right ∈ leastMembers count related) (both : related left right) : left = right := by
  by_contra differ
  rcases Nat.lt_or_gt_of_ne differ with below | above
  · exact (mem_leastMembers.1 isRight).2 left below both
  · exact (mem_leastMembers.1 isLeft).2 right above (equivalence.symm _ _ both)

theorem exists_least (equivalence : EquivalenceBelow count related) (below : number < count) :
    ∃ first ∈ leastMembers count related, related first number := by
  have some : ∃ other, related other number := ⟨number, equivalence.refl number below⟩
  have found := Nat.find_spec some
  have first : Nat.find some ≤ number := Nat.find_min' some (equivalence.refl number below)
  refine ⟨Nat.find some, mem_leastMembers.2 ⟨lt_of_le_of_lt first below, fun other smaller also => ?_⟩, found⟩
  exact Nat.find_min some smaller (equivalence.trans _ _ _ also found)

theorem mem_flatten_classes (equivalence : EquivalenceBelow count related) : number ∈ (classes count related).flatten ↔ number < count := by
  rw [List.mem_flatten]
  constructor
  · rintro ⟨block, listed, member⟩
    obtain ⟨first, -, rfl⟩ := List.mem_map.1 listed
    exact (mem_classOf.1 member).1
  · intro below
    obtain ⟨first, least, both⟩ := equivalence.exists_least below
    exact ⟨classOf count related first, List.mem_map_of_mem least, mem_classOf.2 ⟨below, both⟩⟩

theorem classes_disjoint (equivalence : EquivalenceBelow count related) : (classes count related).Pairwise List.Disjoint := by
  refine List.pairwise_map.2 (leastMembers_ascending.imp_of_mem fun {left right} isLeft isRight below => ?_)
  intro number inLeft inRight
  have both := equivalence.trans _ _ _ (mem_classOf.1 inLeft).2 (equivalence.symm _ _ (mem_classOf.1 inRight).2)
  exact Nat.ne_of_lt below (equivalence.eq_of_related isLeft isRight both)

theorem isPartition (equivalence : EquivalenceBelow count related) : IsPartition count (classes count related) where
  nonempty := by
    intro block listed
    obtain ⟨number, least, rfl⟩ := List.mem_map.1 listed
    have below := (mem_leastMembers.1 least).1
    exact List.ne_nil_of_mem (mem_classOf.2 ⟨below, equivalence.refl number below⟩)
  ascending := by
    intro block listed
    obtain ⟨number, -, rfl⟩ := List.mem_map.1 listed
    exact classOf_ascending
  ordered := by
    refine List.pairwise_map.2 (leastMembers_ascending.imp_of_mem fun {left right} isLeft isRight below => ?_)
    rw [equivalence.headD_classOf isLeft, equivalence.headD_classOf isRight]
    exact below
  covers := by
    have distinct : (classes count related).flatten.Nodup := by
      refine List.nodup_flatten.2 ⟨fun block listed => ?_, equivalence.classes_disjoint⟩
      obtain ⟨number, -, rfl⟩ := List.mem_map.1 listed
      exact classOf_ascending.imp fun below => Nat.ne_of_lt below
    refine (List.perm_ext_iff_of_nodup distinct List.nodup_range).2 fun number => ?_
    rw [equivalence.mem_flatten_classes, List.mem_range]

theorem together_iff (equivalence : EquivalenceBelow count related) {left right : Nat} (isLeft : left < count) (isRight : right < count) :
    Together (classes count related) left right ↔ related left right := by
  constructor
  · rintro ⟨block, listed, inLeft, inRight⟩
    obtain ⟨first, -, rfl⟩ := List.mem_map.1 listed
    exact equivalence.trans _ _ _ (equivalence.symm _ _ (mem_classOf.1 inLeft).2) (mem_classOf.1 inRight).2
  · intro both
    obtain ⟨first, least, toLeft⟩ := equivalence.exists_least isLeft
    exact ⟨classOf count related first, List.mem_map_of_mem least, mem_classOf.2 ⟨isLeft, toLeft⟩,
      mem_classOf.2 ⟨isRight, equivalence.trans _ _ _ toLeft both⟩⟩

end EquivalenceBelow

end

section

def blockAt (blocks : List (List Nat)) (place : Nat) : List Nat := (blocks[place]?).getD []

/-- The numbers in the blocks at some places. -/
def unite (blocks : List (List Nat)) (places : List Nat) : List Nat := (places.flatMap (blockAt blocks)).insertionSort (· ≤ ·)

def coarsen (blocks merges : List (List Nat)) : List (List Nat) := merges.map (unite blocks)

variable {merges : List (List Nat)} {place : Nat} {places : List Nat}

theorem ascending_insertionSort {values : List Nat} (distinct : values.Nodup) : (values.insertionSort (· ≤ ·)).Pairwise (· < ·) := by
  have sorted := List.pairwise_insertionSort (· ≤ ·) values
  have apart := (List.perm_insertionSort (· ≤ ·) values).nodup_iff.2 distinct
  exact (sorted.and apart).imp fun both => Nat.lt_of_le_of_ne both.1 both.2

theorem mem_blockAt : number ∈ blockAt blocks place ↔ ∃ block, blocks[place]? = some block ∧ number ∈ block := by
  unfold blockAt
  cases blocks[place]? <;> simp

theorem blockAt_mem (within : place < blocks.length) : blockAt blocks place ∈ blocks := by
  unfold blockAt
  rw [List.getElem?_eq_getElem within]
  exact List.getElem_mem within

theorem mem_unite : number ∈ unite blocks places ↔ ∃ place ∈ places, number ∈ blockAt blocks place := by
  unfold unite
  rw [(List.perm_insertionSort _ _).mem_iff, List.mem_flatMap]

theorem blockAt_eq_nil (beyond : ¬place < blocks.length) : blockAt blocks place = [] := by
  rw [blockAt, List.getElem?_eq_none (Nat.le_of_not_lt beyond)]
  rfl

theorem map_blockAt_range (blocks : List (List Nat)) : (List.range blocks.length).map (blockAt blocks) = blocks := by
  refine List.ext_getElem (by simp) fun place _ within => ?_
  rw [List.getElem_map, List.getElem_range, blockAt, List.getElem?_eq_getElem within]
  rfl

theorem flatMap_blockAt_range (blocks : List (List Nat)) : (List.range blocks.length).flatMap (blockAt blocks) = blocks.flatten := by
  rw [List.flatMap_def, map_blockAt_range]

namespace IsPartition

theorem blockAt_inj (partitions : IsPartition count blocks) {other : Nat} (member : number ∈ blockAt blocks place)
    (also : number ∈ blockAt blocks other) : place = other := by
  have apart : ∀ {left right : Nat}, left < right → number ∈ blockAt blocks left → number ∉ blockAt blocks right := by
    intro left right before inLeft inRight
    obtain ⟨block, atLeft, inBlock⟩ := mem_blockAt.1 inLeft
    obtain ⟨next, atRight, inNext⟩ := mem_blockAt.1 inRight
    obtain ⟨inside, rfl⟩ := List.getElem?_eq_some_iff.1 atLeft
    obtain ⟨alsoInside, rfl⟩ := List.getElem?_eq_some_iff.1 atRight
    exact List.pairwise_iff_getElem.1 partitions.disjoint left right inside alsoInside before inBlock inNext
  rcases Nat.lt_trichotomy place other with before | same | after
  · exact absurd also (apart before member)
  · exact same
  · exact absurd member (apart after also)

theorem exists_blockAt (partitions : IsPartition count blocks) (below : number < count) : ∃ place < blocks.length, number ∈ blockAt blocks place := by
  obtain ⟨block, listed, member⟩ := partitions.mem_iff.2 below
  obtain ⟨place, atPlace⟩ := List.mem_iff_getElem?.1 listed
  exact ⟨place, (List.getElem?_eq_some_iff.1 atPlace).1, mem_blockAt.2 ⟨block, atPlace, member⟩⟩

theorem nodup_flatMap_blockAt (partitions : IsPartition count blocks) (distinct : places.Nodup) : (places.flatMap (blockAt blocks)).Nodup := by
  refine List.nodup_flatMap.2 ⟨fun place _ => ?_, distinct.imp fun {left right} apart number isLeft isRight =>
    apart (partitions.blockAt_inj isLeft isRight)⟩
  by_cases within : place < blocks.length
  · exact (partitions.ascending _ (blockAt_mem within)).imp fun below => Nat.ne_of_lt below
  · rw [blockAt_eq_nil within]
    exact List.nodup_nil

theorem nodup_two_blocks (partitions : IsPartition count blocks) {left right : Nat} (apart : left ≠ right) :
    (blockAt blocks left ++ blockAt blocks right).Nodup := by
  have both := partitions.nodup_flatMap_blockAt (List.nodup_cons.2 ⟨by simpa using apart, List.nodup_singleton right⟩)
  simpa using both

theorem headD_blockAt_lt (partitions : IsPartition count blocks) {left right : Nat} (before : left < right) (within : right < blocks.length) :
    (blockAt blocks left).headD 0 < (blockAt blocks right).headD 0 := by
  have earlier : left < blocks.length := before.trans within
  have below := List.pairwise_iff_getElem.1 partitions.ordered left right earlier within before
  unfold blockAt
  rw [List.getElem?_eq_getElem earlier, List.getElem?_eq_getElem within]
  exact below

theorem headD_unite (partitions : IsPartition count blocks) (some : places ≠ []) (ascending : places.Pairwise (· < ·))
    (within : ∀ place ∈ places, place < blocks.length) : (unite blocks places).headD 0 = (blockAt blocks (places.headD 0)).headD 0 := by
  have isFirst := headD_mem some
  have nonempty := partitions.nonempty _ (blockAt_mem (within _ isFirst))
  have sorted := ascending_insertionSort (partitions.nodup_flatMap_blockAt (ascending.imp fun before => Nat.ne_of_lt before))
  refine headD_eq sorted (mem_unite.2 ⟨_, isFirst, headD_mem nonempty⟩) fun other member => ?_
  obtain ⟨place, listed, inside⟩ := mem_unite.1 member
  have least := headD_le (partitions.ascending _ (blockAt_mem (within place listed))) inside
  rcases (headD_le ascending listed).lt_or_eq with later | same
  · exact (partitions.headD_blockAt_lt later (within place listed)).le.trans least
  · rwa [same]

theorem coarsen (partitions : IsPartition count blocks) (merging : IsPartition blocks.length merges) :
    IsPartition count (coarsen blocks merges) where
  nonempty := by
    intro block listed
    obtain ⟨places, isMerge, rfl⟩ := List.mem_map.1 listed
    have isFirst := headD_mem (merging.nonempty places isMerge)
    have nonempty := partitions.nonempty _ (blockAt_mem (merging.lt_count isMerge isFirst))
    exact List.ne_nil_of_mem (mem_unite.2 ⟨_, isFirst, headD_mem nonempty⟩)
  ascending := by
    intro block listed
    obtain ⟨places, isMerge, rfl⟩ := List.mem_map.1 listed
    exact ascending_insertionSort (partitions.nodup_flatMap_blockAt ((merging.ascending places isMerge).imp fun before => Nat.ne_of_lt before))
  ordered := by
    refine List.pairwise_map.2 (merging.ordered.imp_of_mem fun {left right} isLeft isRight before => ?_)
    rw [partitions.headD_unite (merging.nonempty left isLeft) (merging.ascending left isLeft) fun _ member => merging.lt_count isLeft member,
      partitions.headD_unite (merging.nonempty right isRight) (merging.ascending right isRight) fun _ member => merging.lt_count isRight member]
    exact partitions.headD_blockAt_lt before (merging.lt_count isRight (headD_mem (merging.nonempty right isRight)))
  covers := by
    have sorted : (SetPartitions.coarsen blocks merges).flatten.Perm (merges.flatten.flatMap (blockAt blocks)) := by
      have joined : merges.flatten.flatMap (blockAt blocks) = merges.flatMap fun places => places.flatMap (blockAt blocks) := by
        rw [← List.flatMap_id, List.flatMap_assoc]
        rfl
      rw [SetPartitions.coarsen, ← List.flatMap_def, joined]
      exact List.Perm.flatMap_left merges fun places _ => List.perm_insertionSort _ _
    refine sorted.trans ((merging.covers.flatMap_right _).trans ?_)
    rw [flatMap_blockAt_range]
    exact partitions.covers

end IsPartition

theorem together_coarsen {left right : Nat} : Together (coarsen blocks merges) left right ↔
    ∃ one other, left ∈ blockAt blocks one ∧ right ∈ blockAt blocks other ∧ Together merges one other := by
  constructor
  · rintro ⟨block, listed, inLeft, inRight⟩
    obtain ⟨places, isMerge, rfl⟩ := List.mem_map.1 listed
    obtain ⟨one, isOne, atOne⟩ := mem_unite.1 inLeft
    obtain ⟨other, isOther, atOther⟩ := mem_unite.1 inRight
    exact ⟨one, other, atOne, atOther, places, isMerge, isOne, isOther⟩
  · rintro ⟨one, other, atOne, atOther, places, isMerge, isOne, isOther⟩
    exact ⟨unite blocks places, List.mem_map_of_mem isMerge, mem_unite.2 ⟨one, isOne, atOne⟩, mem_unite.2 ⟨other, isOther, atOther⟩⟩

end

end SetPartitions
