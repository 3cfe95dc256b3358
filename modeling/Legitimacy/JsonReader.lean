import Legitimacy.Json
import Mathlib.Data.List.TakeWhile

namespace Json

def isBlank (character : Char) : Bool := character == ' ' || character == '\t' || character == '\n' || character == '\r'

def skipBlanks (input : List Char) : List Char := input.dropWhile isBlank

/-- What a letter behind a backslash stands for. -/
def unescape (letter : Char) : Option Char :=
  if letter = '"' then some '"'
  else if letter = '\\' then some '\\'
  else if letter = '/' then some '/'
  else if letter = 'b' then some (.ofNat 0x08)
  else if letter = 't' then some '\t'
  else if letter = 'n' then some '\n'
  else if letter = 'f' then some (.ofNat 0x0C)
  else if letter = 'r' then some '\r'
  else none

def hexValue (digit : Char) : Option Nat :=
  if digit.isDigit then some (digit.toNat - 48)
  else if 'a' ≤ digit ∧ digit ≤ 'f' then some (digit.toNat - 87)
  else if 'A' ≤ digit ∧ digit ≤ 'F' then some (digit.toNat - 55)
  else none

/-- The character of four hexadecimal digits. -/
def unicode (first second third fourth : Char) : Option Char := do
  let first ← hexValue first
  let second ← hexValue second
  let third ← hexValue third
  let fourth ← hexValue fourth
  let code := ((first * 16 + second) * 16 + third) * 16 + fourth
  if code.isValidChar then some (.ofNat code) else none

def readUnicode : List Char → Option (Char × List Char)
  | first :: second :: third :: fourth :: rest => (unicode first second third fourth).map fun character => (character, rest)
  | _ => none

def readEscape : List Char → Option (Char × List Char)
  | [] => none
  | letter :: rest => if letter = 'u' then readUnicode rest else (unescape letter).map fun character => (character, rest)

def readChar (first : Char) (rest : List Char) : Option (Char × List Char) :=
  if first = '\\' then readEscape rest
  else if first.toNat < 0x20 then none
  else some (first, rest)

def readString : Nat → List Char → Option (List Char × List Char)
  | 0, _ => none
  | _, [] => none
  | fuel + 1, first :: input =>
    if first = '"' then some ([], input)
    else do
      let (character, input) ← readChar first input
      let (characters, input) ← readString fuel input
      some (character :: characters, input)

def natural (digits : List Char) : Option Nat :=
  if digits = [] ∨ digits.head? = some '0' ∧ 1 < digits.length then none else some (Nat.ofDigitChars 10 digits 0)

def isPointed (input : List Char) : Bool := input.head?.any fun character => character == '.' || character == 'e' || character == 'E'

def readNatural (input : List Char) : Option (Nat × List Char) :=
  let rest := input.dropWhile Char.isDigit
  if isPointed rest then none else (natural (input.takeWhile Char.isDigit)).map fun value => (value, rest)

/-- An integer of 64 bits; larger ones and `-0` are floats. -/
def readInt : List Char → Option (Json × List Char)
  | [] => none
  | first :: rest =>
    if first = '-' then
      match readNatural rest with
      | some (value + 1, rest) => if value < 2 ^ 63 then some (.int (.negSucc value), rest) else none
      | _ => none
    else
      match readNatural (first :: rest) with
      | some (value, rest) => if value < 2 ^ 64 then some (.int (.ofNat value), rest) else none
      | none => none

def readWord (word : List Char) (value : Json) (input : List Char) : Option (Json × List Char) :=
  if word.isPrefixOf input then some (value, input.drop word.length) else none

def readScalar : List Char → Option (Json × List Char)
  | [] => none
  | first :: rest =>
    if first = '"' then (readString rest.length rest).map fun (text, rest) => (.str (.ofList text), rest)
    else if first = 'n' then readWord ['n', 'u', 'l', 'l'] .null (first :: rest)
    else if first = 't' then readWord ['t', 'r', 'u', 'e'] (.bool true) (first :: rest)
    else if first = 'f' then readWord ['f', 'a', 'l', 's', 'e'] (.bool false) (first :: rest)
    else readInt (first :: rest)

section

variable {α : Type} (readItem : List Char → Option (α × List Char)) (close : Char)

def readMore : Nat → List Char → Option (List α × List Char)
  | 0, _ => none
  | fuel + 1, input =>
    match skipBlanks input with
    | [] => none
    | first :: rest =>
      if first = close then some ([], rest)
      else if first = ',' then do
        let (item, rest) ← readItem rest
        let (items, rest) ← readMore fuel rest
        some (item :: items, rest)
      else none

def readList (input : List Char) : Option (List α × List Char) :=
  match skipBlanks input with
  | [] => none
  | first :: rest =>
    if first = close then some ([], rest)
    else do
      let (item, rest) ← readItem (first :: rest)
      let (items, rest) ← readMore readItem close rest.length rest
      some (item :: items, rest)

end

def brace : Char := .ofNat 125

section

variable (readItem : List Char → Option (Json × List Char))

def readField (input : List Char) : Option ((String × Json) × List Char) :=
  match skipBlanks input with
  | [] => none
  | first :: rest =>
    if first = '"' then do
      let (key, rest) ← readString rest.length rest
      match skipBlanks rest with
      | [] => none
      | colon :: rest =>
        if colon = ':' then do
          let (value, rest) ← readItem rest
          some ((.ofList key, value), rest)
        else none
    else none

end

/-- A value in which at most `depth` arrays and objects lie in one another. -/
def readValue : Nat → List Char → Option (Json × List Char)
  | 0, input => readScalar (skipBlanks input)
  | depth + 1, input =>
    match skipBlanks input with
    | [] => none
    | first :: rest =>
      if first = '[' then (readList (readValue depth) ']' rest).map fun (values, rest) => (.arr values, rest)
      else if first = .ofNat 123 then (readList (readField (readValue depth)) brace rest).map fun (fields, rest) => (.obj fields, rest)
      else readScalar (first :: rest)

def readText (bytes : List UInt8) : Option Json := do
  let characters ← bytes.toByteArray.utf8Decode?
  let (value, rest) ← readValue 127 characters.toList
  if skipBlanks rest = [] then some value else none

section

theorem unicode_control {code : Nat} (below : code < 32) :
    unicode '0' '0' (Hex.digit (code / 16)) (Hex.digit (code % 16)) = some (.ofNat code) := by
  have values : ∀ code < 32, unicode '0' '0' (Hex.digit (code / 16)) (Hex.digit (code % 16)) = some (.ofNat code) := by decide
  exact values code below

theorem readChar_escape (character : Char) : ∃ first more, escape character = first :: more ∧ first ≠ '"' ∧
    ∀ rest, readChar first (more ++ rest) = some (character, rest) := by
  unfold escape
  split
  · rename_i same
    exact ⟨'\\', ['"'], rfl, by decide, fun rest => by rw [same]; rfl⟩
  split
  · rename_i same
    exact ⟨'\\', ['\\'], rfl, by decide, fun rest => by rw [same]; rfl⟩
  have code : character = .ofNat character.toNat := character.ofNat_toNat.symm
  split
  · rename_i same
    exact ⟨'\\', ['b'], rfl, by decide, fun rest => by rw [code, same]; rfl⟩
  split
  · rename_i same
    exact ⟨'\\', ['t'], rfl, by decide, fun rest => by rw [code, same]; rfl⟩
  split
  · rename_i same
    exact ⟨'\\', ['n'], rfl, by decide, fun rest => by rw [code, same]; rfl⟩
  split
  · rename_i same
    exact ⟨'\\', ['f'], rfl, by decide, fun rest => by rw [code, same]; rfl⟩
  split
  · rename_i same
    exact ⟨'\\', ['r'], rfl, by decide, fun rest => by rw [code, same]; rfl⟩
  split
  · rename_i control
    refine ⟨'\\', _, rfl, by decide, fun rest => ?_⟩
    show (unicode '0' '0' (Hex.digit (character.toNat / 16)) (Hex.digit (character.toNat % 16))).map (fun character => (character, rest)) = _
    rw [unicode_control control, ← code]
    rfl
  · rename_i quote backslash _ _ _ _ _ printable
    refine ⟨character, [], rfl, quote, fun rest => ?_⟩
    rw [readChar, if_neg backslash, if_neg printable, List.nil_append]

theorem readString_escapes {characters rest : List Char} {fuel : Nat} (enough : characters.length < fuel) :
    readString fuel (characters.flatMap escape ++ '"' :: rest) = some (characters, rest) := by
  induction characters generalizing fuel with
  | nil =>
    obtain ⟨fuel, rfl⟩ := Nat.exists_eq_succ_of_ne_zero (by omega : fuel ≠ 0)
    rfl
  | cons character others ih =>
    obtain ⟨fuel, rfl⟩ := Nat.exists_eq_succ_of_ne_zero (by omega : fuel ≠ 0)
    obtain ⟨first, more, shape, notQuote, read⟩ := readChar_escape character
    have later := ih (Nat.lt_of_succ_lt_succ enough)
    rw [List.flatMap_cons, shape, List.cons_append, List.cons_append, List.append_assoc, readString, if_neg notQuote, read]
    show (readString fuel (others.flatMap escape ++ '"' :: rest)).bind _ = _
    rw [later]
    rfl

theorem length_le_escapes (characters : List Char) : characters.length ≤ (characters.flatMap escape).length := by
  induction characters with
  | nil => exact Nat.le_refl _
  | cons character others ih =>
    obtain ⟨first, more, shape, -, -⟩ := readChar_escape character
    rw [List.flatMap_cons, shape, List.length_append, List.length_cons, List.length_cons]
    omega

theorem readString_quoted (text : String) (rest : List Char) :
    readString (text.toList.flatMap escape ++ '"' :: rest).length (text.toList.flatMap escape ++ '"' :: rest) = some (text.toList, rest) := by
  have longer := length_le_escapes text.toList
  exact readString_escapes (by rw [List.length_append, List.length_cons]; omega)

end

section

def Ends (rest : List Char) : Prop := ∀ first ∈ rest.head?, first.isDigit = false ∧ first ≠ '.' ∧ first ≠ 'e' ∧ first ≠ 'E'

theorem head_toDigits {number : Nat} (zero : (Nat.toDigits 10 number).head? = some '0') : number = 0 := by
  induction number using Nat.strong_induction_on with
  | _ number ih =>
    by_cases small : number < 10
    · rw [Nat.toDigits_of_lt_base small, List.head?_cons, Option.some.injEq, Nat.digitChar_eq_zero] at zero
      exact zero
    · have large : 10 ≤ number := Nat.not_lt.1 small
      rw [Nat.toDigits_of_base_le (by decide) large, List.head?_append_of_ne_nil _ Nat.toDigits_ne_nil] at zero
      have high := ih (number / 10) (by omega) zero
      omega

theorem natural_toDigits (number : Nat) : natural (Nat.toDigits 10 number) = some number := by
  have canonical : ¬(Nat.toDigits 10 number = [] ∨ (Nat.toDigits 10 number).head? = some '0' ∧ 1 < (Nat.toDigits 10 number).length) := by
    intro either
    rcases either with empty | ⟨zero, long⟩
    · exact Nat.toDigits_ne_nil empty
    · rw [head_toDigits zero] at long
      exact absurd long (by decide)
  rw [natural, if_neg canonical, Nat.ofDigitChars_ten_toDigits]

theorem readNatural_toDigits (number : Nat) {rest : List Char} (ends : Ends rest) :
    readNatural (Nat.toDigits 10 number ++ rest) = some (number, rest) := by
  have digits : ∀ character ∈ Nat.toDigits 10 number, character.isDigit = true := fun character member =>
    Nat.isDigit_of_mem_toDigits (by decide) (by decide) member
  have stops : rest.takeWhile Char.isDigit = [] ∧ rest.dropWhile Char.isDigit = rest ∧ isPointed rest = false := by
    cases rest with
    | nil => exact ⟨rfl, rfl, rfl⟩
    | cons first others =>
      obtain ⟨other, point, lower, upper⟩ := ends first rfl
      have notDigit : ¬first.isDigit = true := by simp [other]
      refine ⟨List.takeWhile_cons_of_neg notDigit, List.dropWhile_cons_of_neg notDigit, ?_⟩
      simp [isPointed, point, lower, upper]
  obtain ⟨taken, dropped, unpointed⟩ := stops
  rw [readNatural, List.takeWhile_append_of_pos digits, List.dropWhile_append_of_pos digits, taken, dropped, List.append_nil,
    natural_toDigits]
  simp [unpointed]

theorem exists_toDigits (number : Nat) : ∃ first more, Nat.toDigits 10 number = first :: more ∧ first.isDigit = true := by
  obtain ⟨first, more, shape⟩ := List.exists_cons_of_ne_nil (Nat.toDigits_ne_nil (n := number) (b := 10))
  have member : first ∈ Nat.toDigits 10 number := by rw [shape]; exact List.mem_cons_self
  exact ⟨first, more, shape, Nat.isDigit_of_mem_toDigits (by decide) (by decide) member⟩

theorem readInt_repr {value : Int} (integral : Integral (.int value)) {rest : List Char} (ends : Ends rest) :
    readInt (value.repr.toList ++ rest) = some (.int value, rest) := by
  cases value with
  | ofNat number =>
    obtain ⟨first, more, shape, digit⟩ := exists_toDigits number
    have read := readNatural_toDigits number ends
    have notMinus : first ≠ '-' := by
      intro same
      rw [same] at digit
      exact absurd digit (by decide)
    have below : number < 2 ^ 64 := by
      have bound := integral.2
      rw [Int.ofNat_eq_natCast] at bound
      omega
    show readInt ((Nat.repr number).toList ++ rest) = _
    rw [Nat.toList_repr]
    rw [shape] at read ⊢
    rw [List.cons_append] at read ⊢
    rw [readInt, if_neg notMinus, read]
    show (if number < 2 ^ 64 then _ else _) = _
    rw [if_pos below]
  | negSucc number =>
    have read := readNatural_toDigits (number + 1) ends
    have below : number < 2 ^ 63 := by
      have bound := integral.1
      omega
    have text : (Int.negSucc number).repr.toList = '-' :: Nat.toDigits 10 (number + 1) := by
      show ("-" ++ Nat.repr (number + 1)).toList = _
      rw [String.toList_append, Nat.toList_repr]
      rfl
    rw [text, List.cons_append, readInt, if_pos rfl, read]
    show (if number < 2 ^ 63 then _ else _) = _
    rw [if_pos below]

end

section

variable {α : Type} {readItem : List Char → Option (α × List Char)} {encode : α → List Char} {close : Char}

theorem Ends.cons {first : Char} (other : first.isDigit = false) (unpointed : first ≠ '.' ∧ first ≠ 'e' ∧ first ≠ 'E') (rest : List Char) :
    Ends (first :: rest) := fun _ same => Option.some.inj same ▸ ⟨other, unpointed⟩

theorem length_le_separated (items : List α) : items.length ≤ (items.flatMap fun item => ',' :: encode item).length := by
  induction items with
  | nil => exact Nat.le_refl _
  | cons item others ih =>
    rw [List.flatMap_cons, List.length_append, List.length_cons, List.length_cons]
    omega

theorem readMore_separated {items : List α} {rest : List Char} {fuel : Nat} (notBlank : isBlank close = false) (notComma : close ≠ ',')
    (ends : Ends (close :: rest)) (reads : ∀ item ∈ items, ∀ rest, Ends rest → readItem (encode item ++ rest) = some (item, rest))
    (enough : items.length < fuel) :
    readMore readItem close fuel ((items.flatMap fun item => ',' :: encode item) ++ close :: rest) = some (items, rest) := by
  induction items generalizing fuel with
  | nil =>
    obtain ⟨fuel, rfl⟩ := Nat.exists_eq_succ_of_ne_zero (by omega : fuel ≠ 0)
    have kept : skipBlanks (close :: rest) = close :: rest := List.dropWhile_cons_of_neg (by simp [notBlank])
    rw [List.flatMap_nil, List.nil_append, readMore, kept]
    exact if_pos rfl
  | cons item others ih =>
    obtain ⟨fuel, rfl⟩ := Nat.exists_eq_succ_of_ne_zero (by omega : fuel ≠ 0)
    have later := ih (fun other member => reads other (List.mem_cons_of_mem item member)) (Nat.lt_of_succ_lt_succ enough)
    have boundary : Ends ((others.flatMap fun item => ',' :: encode item) ++ close :: rest) := by
      cases others with
      | nil => exact ends
      | cons other more => exact .cons rfl (by decide) _
    have read := reads item List.mem_cons_self _ boundary
    have kept (input : List Char) : skipBlanks (',' :: input) = ',' :: input := List.dropWhile_cons_of_neg (by decide)
    rw [List.flatMap_cons, List.cons_append, List.cons_append, List.append_assoc, readMore, kept]
    show (if ',' = close then _ else if ',' = ',' then (readItem _).bind _ else none) = _
    rw [if_neg (Ne.symm notComma), if_pos rfl, read]
    show (readMore readItem close fuel _).bind _ = _
    rw [later]
    rfl

theorem readList_separated {item : α} {items : List α} {first : Char} {more rest : List Char} (notBlank : isBlank close = false)
    (notComma : close ≠ ',') (ends : Ends (close :: rest)) (shape : encode item = first :: more) (visible : isBlank first = false)
    (notClose : first ≠ close) (reads : ∀ other ∈ item :: items, ∀ rest, Ends rest → readItem (encode other ++ rest) = some (other, rest)) :
    readList readItem close (encode item ++ ((items.flatMap fun item => ',' :: encode item) ++ close :: rest)) =
      some (item :: items, rest) := by
  have boundary : Ends ((items.flatMap fun item => ',' :: encode item) ++ close :: rest) := by
    cases items with
    | nil => exact ends
    | cons other more => exact .cons rfl (by decide) _
  have read := reads item List.mem_cons_self _ boundary
  have longer := @length_le_separated _ encode items
  have others := readMore_separated notBlank notComma ends (fun other member => reads other (List.mem_cons_of_mem item member))
    (by rw [List.length_append, List.length_cons]; omega : items.length < ((items.flatMap fun item => ',' :: encode item) ++
      close :: rest).length)
  have kept (input : List Char) : skipBlanks (first :: input) = first :: input := List.dropWhile_cons_of_neg (by simp [visible])
  rw [shape, List.cons_append] at read ⊢
  rw [readList, kept]
  show (if first = close then _ else (readItem _).bind _) = _
  rw [if_neg notClose, read]
  show (readMore readItem close _ _).bind _ = _
  rw [others]
  rfl

end

section

variable {floatText : Float → String}

theorem moreValues_eq (values : List Json) : moreValues floatText values = values.flatMap fun value => ',' :: compactChars floatText value := by
  induction values with
  | nil => rfl
  | cons value rest ih => rw [moreValues, ih, List.flatMap_cons, List.cons_append]

def fieldChars (floatText : Float → String) (field : String × Json) : List Char :=
  quoted field.1 ++ ':' :: compactChars floatText field.2

theorem moreFields_eq (fields : List (String × Json)) : moreFields floatText fields = fields.flatMap fun field => ',' :: fieldChars floatText field := by
  induction fields with
  | nil => rfl
  | cons field rest ih =>
    rw [moreFields, ih, List.flatMap_cons, fieldChars]
    simp

theorem compactChars_start {value : Json} (integral : Integral value) :
    ∃ first more, compactChars floatText value = first :: more ∧ isBlank first = false ∧ first ≠ ']' := by
  cases value with
  | null => exact ⟨_, _, rfl, rfl, by decide⟩
  | bool value => cases value <;> exact ⟨_, _, rfl, rfl, by decide⟩
  | int value =>
    have digit (number : Nat) : ∃ first more, Nat.toDigits 10 number = first :: more ∧ isBlank first = false ∧ first ≠ ']' := by
      obtain ⟨first, more, shape, digit⟩ := exists_toDigits number
      refine ⟨first, more, shape, ?_, ?_⟩
      · by_contra blank
        simp only [isBlank, Bool.not_eq_false, Bool.or_eq_true, beq_iff_eq] at blank
        rcases blank with ((rfl | rfl) | rfl) | rfl <;> exact absurd digit (by decide)
      · rintro rfl
        exact absurd digit (by decide)
    cases value with
    | ofNat number =>
      obtain ⟨first, more, shape, rest⟩ := digit number
      exact ⟨first, more, (@Nat.toList_repr number).trans shape, rest⟩
    | negSucc number => exact ⟨'-', _, String.toList_append, rfl, by decide⟩
  | float value => exact integral.elim
  | str value => exact ⟨_, _, rfl, rfl, by decide⟩
  | arr values => cases values <;> exact ⟨_, _, rfl, rfl, by decide⟩
  | obj fields => rcases fields with _ | ⟨⟨key, value⟩, rest⟩ <;> exact ⟨_, _, rfl, rfl, by decide⟩

theorem skipBlanks_cons {first : Char} (visible : isBlank first = false) (rest : List Char) : skipBlanks (first :: rest) = first :: rest :=
  List.dropWhile_cons_of_neg (by simp [visible])

theorem readValue_scalar {first : Char} (visible : isBlank first = false) (notArray : first ≠ '[') (notObject : first ≠ .ofNat 123)
    (depth : Nat) (rest : List Char) : readValue depth (first :: rest) = readScalar (first :: rest) := by
  cases depth with
  | zero => rw [readValue, skipBlanks_cons visible]
  | succ depth =>
    rw [readValue, skipBlanks_cons visible]
    show (if first = '[' then _ else if first = .ofNat 123 then _ else _) = _
    rw [if_neg notArray, if_neg notObject]

theorem readValue_str (depth : Nat) (text : String) (rest : List Char) :
    readValue depth (quoted text ++ rest) = some (.str text, rest) := by
  have read := readString_quoted text rest
  rw [quoted, List.cons_append, List.append_assoc, List.singleton_append, readValue_scalar rfl (by decide) (by decide)]
  show (readString _ _).map _ = _
  rw [read]
  show some (Json.str (.ofList text.toList), rest) = _
  rw [String.ofList_toList]

theorem readValue_int {value : Int} (integral : Integral (.int value)) (depth : Nat) {rest : List Char} (ends : Ends rest) :
    readValue depth (value.repr.toList ++ rest) = some (.int value, rest) := by
  have read := readInt_repr integral ends
  have other {first : Char} (kind : first.isDigit = true ∨ first = '-') :
      isBlank first = false ∧ first ≠ '[' ∧ first ≠ .ofNat 123 ∧ first ≠ '"' ∧ first ≠ 'n' ∧ first ≠ 't' ∧ first ≠ 'f' := by
    rcases kind with digit | rfl
    · refine ⟨?_, ?_, ?_, ?_, ?_, ?_, ?_⟩
      · by_contra blank
        simp only [isBlank, Bool.not_eq_false, Bool.or_eq_true, beq_iff_eq] at blank
        rcases blank with ((rfl | rfl) | rfl) | rfl <;> exact absurd digit (by decide)
      all_goals
        rintro rfl
        exact absurd digit (by decide)
    · exact ⟨rfl, by decide, by decide, by decide, by decide, by decide, by decide⟩
  have start : ∃ first more, value.repr.toList = first :: more ∧ (first.isDigit = true ∨ first = '-') := by
    cases value with
    | ofNat number =>
      obtain ⟨first, more, shape, digit⟩ := exists_toDigits number
      exact ⟨first, more, (@Nat.toList_repr number).trans shape, .inl digit⟩
    | negSucc number => exact ⟨'-', _, String.toList_append, .inr rfl⟩
  obtain ⟨first, more, shape, kind⟩ := start
  obtain ⟨visible, notArray, notObject, notQuote, notNull, notTrue, notFalse⟩ := other kind
  rw [shape, List.cons_append] at read ⊢
  rw [readValue_scalar visible notArray notObject, readScalar, if_neg notQuote, if_neg notNull, if_neg notTrue, if_neg notFalse, read]

theorem readField_chars {readItem : List Char → Option (Json × List Char)} {field : String × Json} {rest : List Char}
    (read : readItem (compactChars floatText field.2 ++ rest) = some (field.2, rest)) :
    readField readItem (fieldChars floatText field ++ rest) = some (field, rest) := by
  have key := readString_quoted field.1 (':' :: (compactChars floatText field.2 ++ rest))
  rw [fieldChars, quoted]
  simp only [List.cons_append, List.append_assoc, List.nil_append]
  rw [readField, skipBlanks_cons rfl]
  show (readString _ _).bind _ = _
  rw [key]
  show (match skipBlanks (':' :: (compactChars floatText field.2 ++ rest)) with | [] => none | colon :: rest => _) = _
  rw [skipBlanks_cons rfl]
  show (readItem (compactChars floatText field.2 ++ rest)).bind _ = _
  rw [read]
  show some ((String.ofList field.1.toList, field.2), rest) = _
  rw [String.ofList_toList]

theorem readValue_compactChars {depth : Nat} {value : Json} {rest : List Char} (integral : Integral value) (shallow : nesting value ≤ depth)
    (ends : Ends rest) : readValue depth (compactChars floatText value ++ rest) = some (value, rest) := by
  induction depth generalizing value rest with
  | zero =>
    cases value with
    | null => rfl
    | bool value => cases value <;> rfl
    | int value => exact readValue_int integral 0 ends
    | float value => exact integral.elim
    | str value => exact readValue_str 0 value rest
    | arr values => exact absurd shallow (by simp [nesting])
    | obj fields => exact absurd shallow (by simp [nesting])
  | succ depth ih =>
    cases value with
    | null => rfl
    | bool value => cases value <;> rfl
    | int value => exact readValue_int integral (depth + 1) ends
    | float value => exact integral.elim
    | str value => exact readValue_str (depth + 1) value rest
    | arr values =>
      cases values with
      | nil => rfl
      | cons value others =>
        have integrals := integralValues_iff.1 integral
        have shallows := nestingValues_le.1 (Nat.le_of_succ_le_succ shallow)
        obtain ⟨first, more, shape, visible, notClose⟩ := @compactChars_start floatText value (integrals value List.mem_cons_self)
        have items := @readList_separated Json (readValue depth) (compactChars floatText) ']' value others first more rest rfl (by decide)
          (.cons rfl (by decide) rest) shape visible notClose
          fun other member rest ends => ih (integrals other member) (shallows other member) ends
        rw [compactChars, moreValues_eq]
        simp only [List.cons_append, List.append_assoc, List.nil_append]
        rw [readValue, skipBlanks_cons rfl]
        show (readList (readValue depth) ']' _).map _ = _
        rw [items]
        rfl
    | obj fields =>
      cases fields with
      | nil => rfl
      | cons field others =>
        have integrals := integralFields_iff.1 integral
        have shallows := nestingFields_le.1 (Nat.le_of_succ_le_succ shallow)
        have items := @readList_separated (String × Json) (readField (readValue depth)) (fieldChars floatText) brace field others '"'
          _ rest rfl (by decide) (.cons rfl (by decide) rest) rfl rfl (by decide)
          fun other member rest ends => readField_chars (ih (integrals other member) (shallows other member) ends)
        have text : compactChars floatText (.obj (field :: others)) ++ rest =
            .ofNat 123 :: (fieldChars floatText field ++ ((others.flatMap fun field => ',' :: fieldChars floatText field) ++ brace :: rest)) := by
          rw [compactChars, moreFields_eq, fieldChars]
          simp [brace]
        rw [text, readValue, skipBlanks_cons rfl]
        show (readList (readField (readValue depth)) brace _).map _ = _
        rw [items]
        rfl

end

theorem utf8Decode?_bytes (text : String) : (Utf8.bytes text).toByteArray.utf8Decode? = some text.toList.toArray := by
  rw [← Utf8.toByteArray_eq, ← String.utf8Encode_toList, List.utf8Decode?_utf8Encode]

theorem bytes_blanks (count : Nat) : Utf8.bytes (.ofList (List.replicate count ' ')) = List.replicate count 0x20 := by
  rw [Utf8.bytes, String.toList_ofList]
  induction count with
  | zero => rfl
  | succ count ih =>
    rw [List.replicate_succ, List.flatMap_cons, ih]
    rfl

theorem readText_faithful (floatText : Float → String) : Faithful floatText readText := by
  intro value blanks integral shallow blank
  obtain ⟨count, rfl⟩ : ∃ count, blanks = List.replicate count 0x20 := ⟨blanks.length, List.eq_replicate_iff.2 ⟨rfl, blank⟩⟩
  have ends : Ends (List.replicate count ' ') := by
    cases count with
    | zero => exact fun first same => nomatch same
    | succ count => exact .cons rfl (by decide) _
  have skipped : skipBlanks (List.replicate count ' ') = [] := by
    rw [skipBlanks, List.dropWhile_eq_nil_iff]
    intro character member
    rw [List.eq_of_mem_replicate member]
    rfl
  have read := @readValue_compactChars floatText 127 value _ integral shallow ends
  rw [compactBytes, ← bytes_blanks, ← Utf8.bytes_append, readText, utf8Decode?_bytes]
  show (readValue 127 (compact floatText value ++ String.ofList (List.replicate count ' ')).toList).bind _ = _
  rw [String.toList_append, String.toList_ofList, compact, String.toList_ofList, read]
  show (if skipBlanks (List.replicate count ' ') = [] then some value else none) = _
  rw [if_pos skipped]

end Json
