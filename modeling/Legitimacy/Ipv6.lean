import Mathlib.Data.List.TakeWhile

namespace Ipv6

def isHexDigit (character : Char) : Bool :=
  character.isDigit || ('a' ≤ character && character ≤ 'f') || ('A' ≤ character && character ≤ 'F')

def digitValue (character : Char) : Nat :=
  if character.isDigit then character.toNat - 48 else if 'a' ≤ character then character.toNat - 87 else character.toNat - 55

def readGivenChar (expected : Char) : List Char → Option (List Char)
  | [] => none
  | character :: rest => if character = expected then some rest else none

/-- A number of at most so many digits that fits its type. -/
def readNumber (isDigit : Char → Bool) (radix maxDigits limit : Nat) (allowZeroPrefix : Bool) (input : List Char) : Option (List Char) :=
  let digits := input.takeWhile isDigit
  if maxDigits < digits.length then none
  else if digits = [] then none
  else if !allowZeroPrefix && input.head? == some '0' && 1 < digits.length then none
  else if limit ≤ digits.foldl (fun value digit => value * radix + digitValue digit) 0 then none
  else some (input.dropWhile isDigit)

/-- The separator stands in front of every part but the first. -/
def readSeparator (separator : Char) (index : Nat) (inner : List Char → Option (List Char)) (input : List Char) : Option (List Char) :=
  if 0 < index then (readGivenChar separator input).bind inner else inner input

def readIpv4Part : List Char → Option (List Char) := readNumber Char.isDigit 10 3 256 false

def readIpv4Addr (input : List Char) : Option (List Char) := do
  let input ← readSeparator '.' 0 readIpv4Part input
  let input ← readSeparator '.' 1 readIpv4Part input
  let input ← readSeparator '.' 2 readIpv4Part input
  readSeparator '.' 3 readIpv4Part input

def readGroup : List Char → Option (List Char) := readNumber isHexDigit 16 4 65536 true

/-- The groups up to a limit, their number and whether an embedded IPv4 address ends them; such an address takes two groups. -/
def readGroups : Nat → Nat → List Char → Nat × Bool × List Char
  | 0, index, input => (index, false, input)
  | remaining + 1, index, input =>
    match if 0 < remaining then readSeparator ':' index readIpv4Addr input else none with
    | some rest => (index + 2, true, rest)
    | none =>
      match readSeparator ':' index readGroup input with
      | some rest => readGroups remaining (index + 1) rest
      | none => (index, false, input)

def readIpv6Addr (input : List Char) : Option (List Char) :=
  match readGroups 8 0 input with
  | (headSize, headIpv4, rest) =>
    if headSize = 8 then some rest
    else if headIpv4 then none
    else do
      let rest ← readGivenChar ':' rest
      let rest ← readGivenChar ':' rest
      some (readGroups (8 - (headSize + 1)) 0 rest).2.2

def isIpv6Addr (text : List Char) : Bool := readIpv6Addr text == some []

example : ["::", "::1", "2001:db8::1", "::ffff:1.2.3.4", "1:2:3:4:5:6:7:8", "1:2:3:4:5:6:1.2.3.4"].all (isIpv6Addr ·.toList) ∧
    ["", "1", ":", "[::1]", "::1]", "1::2::3", "1:2:3:4:5:6:7:8:9", "::1.2.3", "::1.2.3.04", "12345::", "::g", "1.2.3.4"].all
      (!isIpv6Addr ·.toList) := by decide

def isAddressChar (character : Char) : Bool := isHexDigit character || character == ':' || character == '.'

/-- What is left behind a part in characters of addresses. -/
def Takes (input rest : List Char) : Prop := ∃ taken, input = taken ++ rest ∧ ∀ character ∈ taken, isAddressChar character

theorem Takes.refl (input : List Char) : Takes input input := ⟨[], rfl, nofun⟩

theorem Takes.trans {input middle rest : List Char} (first : Takes input middle) (second : Takes middle rest) : Takes input rest := by
  obtain ⟨taken, rfl, plain⟩ := first
  obtain ⟨more, rfl, plainMore⟩ := second
  exact ⟨taken ++ more, (List.append_assoc _ _ _).symm, List.forall_mem_append.2 ⟨plain, plainMore⟩⟩

theorem readGivenChar_eq_some {expected : Char} {input rest : List Char} :
    readGivenChar expected input = some rest ↔ input = expected :: rest := by
  cases input with
  | nil => exact ⟨nofun, nofun⟩
  | cons character more =>
    rw [readGivenChar]
    split <;> simp_all

theorem readGivenChar_takes {expected : Char} (plain : isAddressChar expected) {input rest : List Char}
    (read : readGivenChar expected input = some rest) : Takes input rest := by
  obtain rfl := readGivenChar_eq_some.1 read
  exact ⟨[expected], rfl, fun character member => List.mem_singleton.1 member ▸ plain⟩

theorem readNumber_takes {isDigit : Char → Bool} (plain : ∀ character, isDigit character → isAddressChar character)
    {radix maxDigits limit : Nat} {allowZeroPrefix : Bool} {input rest : List Char}
    (read : readNumber isDigit radix maxDigits limit allowZeroPrefix input = some rest) : Takes input rest := by
  have behind : rest = input.dropWhile isDigit := by
    simp only [readNumber] at read
    split at read
    · cases read
    split at read
    · cases read
    split at read
    · cases read
    split at read
    · cases read
    exact (Option.some.inj read).symm
  refine ⟨input.takeWhile isDigit, by rw [behind, List.takeWhile_append_dropWhile], fun character member => ?_⟩
  exact plain character (List.mem_takeWhile_imp member)

theorem readSeparator_takes {separator : Char} (plain : isAddressChar separator) {inner : List Char → Option (List Char)}
    (takes : ∀ {input rest}, inner input = some rest → Takes input rest) {index : Nat} {input rest : List Char}
    (read : readSeparator separator index inner input = some rest) : Takes input rest := by
  rw [readSeparator] at read
  split at read
  · obtain ⟨middle, first, second⟩ := Option.bind_eq_some_iff.1 read
    exact (readGivenChar_takes plain first).trans (takes second)
  · exact takes read

theorem readIpv4Part_takes {input rest : List Char} (read : readIpv4Part input = some rest) : Takes input rest :=
  readNumber_takes (fun character digit => by simp [isAddressChar, isHexDigit, digit]) read

theorem readIpv4Addr_takes {input rest : List Char} (read : readIpv4Addr input = some rest) : Takes input rest := by
  obtain ⟨first, atFirst, read⟩ := Option.bind_eq_some_iff.1 read
  obtain ⟨second, atSecond, read⟩ := Option.bind_eq_some_iff.1 read
  obtain ⟨third, atThird, read⟩ := Option.bind_eq_some_iff.1 read
  have part {index : Nat} {input rest : List Char} (read : readSeparator '.' index readIpv4Part input = some rest) : Takes input rest :=
    readSeparator_takes rfl readIpv4Part_takes read
  exact (part atFirst).trans ((part atSecond).trans ((part atThird).trans (part read)))

theorem readGroup_takes {input rest : List Char} (read : readGroup input = some rest) : Takes input rest :=
  readNumber_takes (fun character digit => by simp [isAddressChar, digit]) read

theorem readGroups_takes (remaining index : Nat) (input : List Char) : Takes input (readGroups remaining index input).2.2 := by
  induction remaining generalizing index input with
  | zero => exact Takes.refl input
  | succ remaining ih =>
    rw [readGroups]
    split
    · rename_i rest embedded
      split at embedded
      · exact readSeparator_takes rfl readIpv4Addr_takes embedded
      · cases embedded
    · split
      · rename_i rest group
        exact (readSeparator_takes rfl readGroup_takes group).trans (ih (index + 1) rest)
      · exact Takes.refl input

theorem readSeparator_head {separator : Char} {inner : List Char → Option (List Char)} {index : Nat} (later : 0 < index)
    {input rest : List Char} (read : readSeparator separator index inner input = some rest) : separator ∈ input := by
  rw [readSeparator, if_pos later] at read
  obtain ⟨middle, first, -⟩ := Option.bind_eq_some_iff.1 read
  rw [readGivenChar_eq_some.1 first]
  exact List.mem_cons_self

theorem readGroups_separated {remaining index : Nat} (later : 0 < index) {input : List Char}
    (more : (readGroups remaining index input).1 ≠ index) : ':' ∈ input := by
  cases remaining with
  | zero => exact absurd rfl more
  | succ remaining =>
    rw [readGroups] at more
    split at more
    · rename_i rest embedded
      split at embedded
      · exact readSeparator_head later embedded
      · cases embedded
    · split at more
      · rename_i rest group
        exact readSeparator_head later group
      · exact absurd rfl more

theorem Takes.mem {input rest : List Char} (takes : Takes input rest) {character : Char} (member : character ∈ rest) : character ∈ input := by
  obtain ⟨taken, rfl, -⟩ := takes
  exact List.mem_append_right taken member

theorem readGroups_eight {input : List Char} (all : (readGroups 8 0 input).1 = 8) : ':' ∈ input := by
  rw [readGroups] at all
  split at all
  · cases all
  split at all
  · rename_i rest group
    have separated : ':' ∈ rest := @readGroups_separated 7 1 (by decide) rest (by rw [all]; decide)
    exact (readSeparator_takes rfl readGroup_takes group).mem separated
  · cases all

theorem isIpv6Addr_plain {text : List Char} (address : isIpv6Addr text) : (∀ character ∈ text, isAddressChar character) ∧ ':' ∈ text := by
  have read : readIpv6Addr text = some [] := eq_of_beq address
  have groups := readGroups_takes 8 0 text
  have whole {rest : List Char} (takes : Takes text rest) (none : rest = []) : ∀ character ∈ text, isAddressChar character := by
    obtain ⟨taken, rfl, plain⟩ := takes
    rw [none, List.append_nil]
    exact plain
  simp only [readIpv6Addr] at read
  split at read
  · rename_i all
    exact ⟨whole groups (Option.some.inj read), readGroups_eight all⟩
  split at read
  · cases read
  obtain ⟨middle, first, read⟩ := Option.bind_eq_some_iff.1 read
  obtain ⟨behind, second, read⟩ := Option.bind_eq_some_iff.1 read
  have colons := (readGivenChar_takes rfl first).trans (readGivenChar_takes rfl second)
  have tail := readGroups_takes (8 - ((readGroups 8 0 text).1 + 1)) 0 behind
  refine ⟨whole (groups.trans (colons.trans tail)) (Option.some.inj read), groups.mem ?_⟩
  rw [readGivenChar_eq_some.1 first]
  exact List.mem_cons_self

end Ipv6
