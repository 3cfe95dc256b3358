import Mathlib.Data.List.Sort

namespace Legitimacy

/-- A map keyed in ascending order. A `HashMap` of which only single entries are read is modelled by the same type. -/
abbrev BTreeMap (α β : Type) [Ord α] [Std.TransOrd α] : Type := Std.ExtTreeMap α β compare

abbrev BTreeSet (α : Type) [Ord α] [Std.TransOrd α] : Type := Std.ExtTreeSet α compare

/-- The characters with the Unicode property White_Space, which `str::trim` removes. -/
def isWhitespace (character : Char) : Bool :=
  let point := character.toNat
  (0x9 ≤ point && point ≤ 0xD) || point == 0x20 || point == 0x85 || point == 0xA0 || point == 0x1680 ||
    (0x2000 ≤ point && point ≤ 0x200A) || point == 0x2028 || point == 0x2029 || point == 0x202F || point == 0x205F ||
    point == 0x3000

/-- `value.trim().is_empty()`. -/
def isBlank (value : String) : Bool := value.toList.all isWhitespace

/-- `value.starts_with(pattern)`. -/
def startsWith (value pattern : String) : Bool := pattern.toList.isPrefixOf value.toList

section

variable {α β : Type} [Ord α] [Std.TransOrd α] [Std.LawfulEqOrd α]

@[simp]
theorem lookup_insert [DecidableEq α] (map : BTreeMap α β) (key other : α) (value : β) :
    (map.insert key value)[other]? = if other = key then some value else map[other]? := by
  rw [Std.ExtTreeMap.getElem?_insert]
  by_cases same : other = key
  · subst same
    simp
  · have different : compare key other ≠ .eq := fun equal => same (Std.LawfulEqCmp.eq_of_compare equal).symm
    simp [same, different]

theorem lookup_erase [DecidableEq α] (map : BTreeMap α β) (key other : α) :
    (map.erase key)[other]? = if other = key then none else map[other]? := by
  rw [Std.ExtTreeMap.getElem?_erase]
  by_cases same : other = key
  · subst same
    simp
  · have different : compare key other ≠ .eq := fun equal => same (Std.LawfulEqCmp.eq_of_compare equal).symm
    simp [same, different]

omit [Std.LawfulEqOrd α] in
theorem mem_iff_lookup {map : BTreeMap α β} {key : α} : key ∈ map ↔ ∃ value, map[key]? = some value := by
  rw [Std.ExtTreeMap.mem_iff_isSome_getElem?, Option.isSome_iff_exists]

/-- `retain` by key, rebuilt entry by entry so that it evaluates. -/
def retain (map : BTreeMap α β) (keep : α → Bool) : BTreeMap α β :=
  Std.ExtTreeMap.ofList (map.toList.filter fun entry => keep entry.1) compare

theorem lookup_retain {map : BTreeMap α β} {keep : α → Bool} {key : α} {value : β} :
    (retain map keep)[key]? = some value ↔ map[key]? = some value ∧ keep key = true := by
  have distinct : (map.toList.filter fun entry => keep entry.1).Pairwise fun left right => ¬compare left.1 right.1 = .eq := by
    refine List.Pairwise.filter _ ?_
    rw [← List.pairwise_map (f := Prod.fst) (R := fun left right => ¬compare left right = .eq), Std.ExtTreeMap.map_fst_toList_eq_keys]
    exact Std.ExtTreeMap.distinct_keys
  have kept : ∀ {other : β}, map[key]? = some other → keep key = true → (retain map keep)[key]? = some other := by
    intro other found keeps
    refine Std.ExtTreeMap.getElem?_ofList_of_mem Std.ReflCmp.compare_self distinct ?_
    exact List.mem_filter.2 ⟨Std.ExtTreeMap.mem_toList_iff_getElem?_eq_some.2 found, keeps⟩
  constructor
  · intro found
    obtain ⟨other, inMap, keeps⟩ : ∃ other, map[key]? = some other ∧ keep key = true := by
      classical
      have listed : key ∈ retain map keep := mem_iff_lookup.2 ⟨value, found⟩
      rw [retain, Std.ExtTreeMap.mem_ofList, List.contains_iff_mem] at listed
      obtain ⟨entry, member, rfl⟩ := List.mem_map.1 listed
      obtain ⟨inMap, keeps⟩ := List.mem_filter.1 member
      exact ⟨entry.2, Std.ExtTreeMap.mem_toList_iff_getElem?_eq_some.1 inMap, keeps⟩
    exact ⟨Option.some.inj ((kept inMap keeps).symm.trans found) ▸ inMap, keeps⟩
  · intro both
    exact kept both.1 both.2

theorem nodup_keys (map : BTreeMap α β) : (map.toList.map Prod.fst).Nodup := by
  rw [Std.ExtTreeMap.map_fst_toList_eq_keys]
  refine Std.ExtTreeMap.distinct_keys.imp fun apart same => apart ?_
  rw [same]
  exact Std.ReflCmp.compare_self

theorem ofList_toList (map : BTreeMap α β) : Std.ExtTreeMap.ofList map.toList compare = map := by
  have distinct : map.toList.Pairwise fun left right => ¬compare left.1 right.1 = .eq := by
    rw [← List.pairwise_map (f := Prod.fst) (R := fun left right => ¬compare left right = .eq), Std.ExtTreeMap.map_fst_toList_eq_keys]
    exact Std.ExtTreeMap.distinct_keys
  ext key value
  classical
  cases found : map[key]? with
  | some other =>
    rw [Std.ExtTreeMap.getElem?_ofList_of_mem Std.ReflCmp.compare_self distinct (Std.ExtTreeMap.mem_toList_iff_getElem?_eq_some.2 found)]
  | none =>
    rw [Std.ExtTreeMap.getElem?_ofList_of_contains_eq_false]
    rw [← Bool.not_eq_true, List.contains_iff_mem, Std.ExtTreeMap.map_fst_toList_eq_keys, Std.ExtTreeMap.mem_keys]
    intro member
    obtain ⟨other, present⟩ := mem_iff_lookup.1 member
    rw [found] at present
    cases present

theorem contains_foldl_insert {key : β → α} {values : List β} {start : BTreeSet α} {element : α} :
    (values.foldl (fun set value => set.insert (key value)) start).contains element = true ↔
      start.contains element = true ∨ ∃ value ∈ values, key value = element := by
  induction values generalizing start with
  | nil => simp
  | cons value rest ih =>
    rw [List.foldl_cons, ih, Std.ExtTreeSet.contains_insert, List.exists_mem_cons_iff, Bool.or_eq_true, beq_iff_eq,
      Std.LawfulEqCmp.compare_eq_iff_eq]
    tauto

omit [Std.LawfulEqOrd α] in
theorem size_foldl_insert_le (values : List α) (start : BTreeSet α) :
    (values.foldl (fun set value => set.insert value) start).size ≤ start.size + values.length := by
  induction values generalizing start with
  | nil => exact le_rfl
  | cons value rest ih =>
    have later := ih (start.insert value)
    have inserted := @Std.ExtTreeSet.size_insert_le α compare start _ value
    rw [List.foldl_cons, List.length_cons]
    omega

theorem size_foldl_insert_eq_iff (values : List α) (start : BTreeSet α) :
    (values.foldl (fun set value => set.insert value) start).size = start.size + values.length ↔
      values.Nodup ∧ ∀ value ∈ values, value ∉ start := by
  induction values generalizing start with
  | nil => simp
  | cons value rest ih =>
    rw [List.foldl_cons, List.length_cons, List.nodup_cons]
    by_cases present : value ∈ start
    · have few := size_foldl_insert_le rest (start.insert value)
      rw [Std.ExtTreeSet.size_insert, if_pos (Std.ExtTreeSet.contains_iff_mem.2 present)] at few
      constructor
      · intro equal
        omega
      · rintro ⟨-, fresh⟩
        exact absurd present (fresh value List.mem_cons_self)
    · have later := ih (start.insert value)
      rw [Std.ExtTreeSet.size_insert, if_neg (mt Std.ExtTreeSet.contains_iff_mem.1 present)] at later
      rw [show start.size + (rest.length + 1) = start.size + 1 + rest.length by omega, later]
      simp only [Std.ExtTreeSet.mem_insert, Std.LawfulEqCmp.compare_eq_iff_eq, not_or, List.mem_cons, forall_eq_or_imp]
      constructor
      · rintro ⟨distinct, fresh⟩
        exact ⟨⟨fun member => (fresh value member).1 rfl, distinct⟩, present, fun other member => (fresh other member).2⟩
      · rintro ⟨⟨apart, distinct⟩, -, fresh⟩
        exact ⟨distinct, fun other member => ⟨fun same => apart (same ▸ member), fresh other member⟩⟩

end

def sorted {α : Type} [Ord α] (values : List α) : List α := values.insertionSort fun left right => (compare left right).isLE

theorem sorted_perm {α : Type} [Ord α] (values : List α) : (sorted values).Perm values := List.perm_insertionSort _ values

theorem mem_sorted {α : Type} [Ord α] {values : List α} {value : α} : value ∈ sorted values ↔ value ∈ values :=
  (sorted_perm values).mem_iff

end Legitimacy
