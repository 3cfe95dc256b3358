import Legitimacy.Hex
import Mathlib.Data.List.Nodup

/-- A JSON text as a tree, the fields of an object in text order. Numbers beyond 64 bits and numbers with a fraction are floats. -/
inductive Json
  | null
  | bool (value : Bool)
  | int (value : Int)
  | float (value : Float)
  | str (value : String)
  | arr (values : List Json)
  | obj (fields : List (String × Json))

namespace Json

mutual

def nesting : Json → Nat
  | .null => 0
  | .bool _ => 0
  | .int _ => 0
  | .float _ => 0
  | .str _ => 0
  | .arr values => nestingValues values + 1
  | .obj fields => nestingFields fields + 1

def nestingValues : List Json → Nat
  | [] => 0
  | value :: rest => max (nesting value) (nestingValues rest)

def nestingFields : List (String × Json) → Nat
  | [] => 0
  | (_, value) :: rest => max (nesting value) (nestingFields rest)

end

mutual

/-- The trees of texts without floats: every number fits 64 bits. -/
def Integral : Json → Prop
  | .null => True
  | .bool _ => True
  | .int value => -2 ^ 63 ≤ value ∧ value < 2 ^ 64
  | .float _ => False
  | .str _ => True
  | .arr values => IntegralValues values
  | .obj fields => IntegralFields fields

def IntegralValues : List Json → Prop
  | [] => True
  | value :: rest => Integral value ∧ IntegralValues rest

def IntegralFields : List (String × Json) → Prop
  | [] => True
  | (_, value) :: rest => Integral value ∧ IntegralFields rest

end

theorem nestingValues_le {values : List Json} {bound : Nat} : nestingValues values ≤ bound ↔ ∀ value ∈ values, value.nesting ≤ bound := by
  induction values with
  | nil => simp [nestingValues]
  | cons value rest ih => rw [nestingValues, Nat.max_le, ih, List.forall_mem_cons]

theorem nestingFields_le {fields : List (String × Json)} {bound : Nat} :
    nestingFields fields ≤ bound ↔ ∀ field ∈ fields, field.2.nesting ≤ bound := by
  induction fields with
  | nil => simp [nestingFields]
  | cons field rest ih => rw [nestingFields, Nat.max_le, ih, List.forall_mem_cons]

theorem integralValues_iff {values : List Json} : IntegralValues values ↔ ∀ value ∈ values, Integral value := by
  induction values with
  | nil => simp [IntegralValues]
  | cons value rest ih => rw [IntegralValues, ih, List.forall_mem_cons]

theorem integralFields_iff {fields : List (String × Json)} : IntegralFields fields ↔ ∀ field ∈ fields, Integral field.2 := by
  induction fields with
  | nil => simp [IntegralFields]
  | cons field rest ih => rw [IntegralFields, ih, List.forall_mem_cons]

def escape (character : Char) : List Char :=
  if character = '"' then ['\\', '"']
  else if character = '\\' then ['\\', '\\']
  else if character.toNat = 0x08 then ['\\', 'b']
  else if character.toNat = 0x09 then ['\\', 't']
  else if character.toNat = 0x0A then ['\\', 'n']
  else if character.toNat = 0x0C then ['\\', 'f']
  else if character.toNat = 0x0D then ['\\', 'r']
  else if character.toNat < 0x20 then ['\\', 'u', '0', '0', Hex.digit (character.toNat / 16), Hex.digit (character.toNat % 16)]
  else [character]

def quoted (text : String) : List Char := '"' :: (text.toList.flatMap escape ++ ['"'])

section

variable (floatText : Float → String)

mutual

def compactChars : Json → List Char
  | .null => ['n', 'u', 'l', 'l']
  | .bool true => ['t', 'r', 'u', 'e']
  | .bool false => ['f', 'a', 'l', 's', 'e']
  | .int value => value.repr.toList
  | .float value => (floatText value).toList
  | .str value => quoted value
  | .arr [] => ['[', ']']
  | .arr (value :: rest) => '[' :: (compactChars value ++ (moreValues rest ++ [']']))
  | .obj [] => ['{', '}']
  | .obj ((key, value) :: rest) => '{' :: (quoted key ++ ':' :: (compactChars value ++ (moreFields rest ++ ['}'])))

def moreValues : List Json → List Char
  | [] => []
  | value :: rest => ',' :: (compactChars value ++ moreValues rest)

def moreFields : List (String × Json) → List Char
  | [] => []
  | (key, value) :: rest => ',' :: (quoted key ++ ':' :: (compactChars value ++ moreFields rest))

end

def compact (value : Json) : String := .ofList (compactChars floatText value)

def compactBytes (value : Json) : List UInt8 := Utf8.bytes (compact floatText value)

end

/-- What a reader of JSON texts owes their writer: it reads back what was written, also before blanks, as long as at most
127 arrays and objects lie in one another. -/
def Faithful (floatText : Float → String) (parse : List UInt8 → Option Json) : Prop :=
  ∀ value blanks, Integral value → nesting value ≤ 127 → (∀ byte ∈ blanks, byte = 0x20) →
    parse (compactBytes floatText value ++ blanks) = some value

theorem Faithful.exact {floatText : Float → String} {parse : List UInt8 → Option Json} (faithful : Faithful floatText parse) {value : Json}
    (integral : Integral value) (shallow : nesting value ≤ 127) : parse (compactBytes floatText value) = some value := by
  have read := faithful value [] integral shallow fun byte member => by cases member
  rwa [List.append_nil] at read

end Json

namespace Serde

/-- The values of the fields of a struct that denies unknown fields: in an object each field stands at most once, in an array
the fields stand in order and all of them. -/
def structFields (names : List String) : Json → Option (List (Option Json))
  | .obj fields =>
    if (fields.map Prod.fst).Nodup ∧ ∀ key ∈ fields.map Prod.fst, key ∈ names then some (names.map fun name => fields.lookup name)
    else none
  | .arr values => if values.length = names.length then some (values.map some) else none
  | _ => none

/-- The tag of an internally tagged enum and what stands beside it. -/
def tagged (tag : String) : Json → Option (String × Json)
  | .obj fields =>
    match fields.partition fun field => field.1 == tag with
    | ([(_, .str label)], rest) => some (label, .obj rest)
    | _ => none
  | .arr (.str label :: rest) => some (label, .arr rest)
  | _ => none

def decodeString : Json → Option String
  | .str value => some value
  | _ => none

def decodeBool : Json → Option Bool
  | .bool value => some value
  | _ => none

/-- The integers of that many bits in two's complement. -/
def decodeSigned (bits : Nat) : Json → Option Int
  | .int (.ofNat value) => if value < 2 ^ (bits - 1) then some value else none
  | .int (.negSucc value) => if value < 2 ^ (bits - 1) then some (.negSucc value) else none
  | _ => none

def decodeU64 : Json → Option UInt64
  | .int (.ofNat value) => if value < 2 ^ 64 then some (.ofNat value) else none
  | _ => none

def decodeU8 : Json → Option UInt8
  | .int (.ofNat value) => if value < 2 ^ 8 then some (.ofNat value) else none
  | _ => none

def decodeOption {α : Type} (decode : Json → Option α) : Json → Option (Option α)
  | .null => some none
  | json => (decode json).map some

def decodeVec {α : Type} (decode : Json → Option α) : Json → Option (List α)
  | .arr values => values.mapM decode
  | _ => none

/-- A unit variant: its name, also as the only key of an object over null. -/
def decodeVariant {α : Type} (variant : String → Option α) : Json → Option α
  | .str label => variant label
  | .obj [(label, .null)] => variant label
  | _ => none

def u64 (value : UInt64) : Json := .int (.ofNat value.toNat)

def u8 (value : UInt8) : Json := .int (.ofNat value.toNat)

def option {α : Type} (encode : α → Json) : Option α → Json
  | none => .null
  | some value => encode value

theorem integral_u64 (value : UInt64) : (u64 value).Integral := by
  have below := value.toNat_lt
  show (-2 ^ 63 : Int) ≤ Int.ofNat value.toNat ∧ Int.ofNat value.toNat < 2 ^ 64
  simp only [Int.ofNat_eq_natCast]
  omega

theorem integral_u8 (value : UInt8) : (u8 value).Integral := by
  have below := value.toNat_lt
  show (-2 ^ 63 : Int) ≤ Int.ofNat value.toNat ∧ Int.ofNat value.toNat < 2 ^ 64
  simp only [Int.ofNat_eq_natCast]
  omega

theorem lookup_zip {names : List String} {values : List Json} (length : names.length = values.length) (distinct : names.Nodup) :
    (names.map fun name => (names.zip values).lookup name) = values.map some := by
  induction names generalizing values with
  | nil =>
    obtain rfl := List.length_eq_zero_iff.1 length.symm
    rfl
  | cons name rest ih =>
    cases values with
    | nil => cases length
    | cons value others =>
      obtain ⟨apart, distinct⟩ := List.nodup_cons.1 distinct
      have tails : (rest.map fun other => ((name, value) :: rest.zip others).lookup other) = others.map some := by
        rw [← ih (Nat.succ.inj length) distinct]
        refine List.map_congr_left fun other member => ?_
        have different : (other == name) = false := beq_false_of_ne fun same => apart (same ▸ member)
        rw [List.lookup_cons, different]
      rw [List.zip_cons_cons, List.map_cons, tails, List.lookup_cons_self, List.map_cons]

theorem structFields_zip {names : List String} {values : List Json} (length : names.length = values.length) (distinct : names.Nodup) :
    structFields names (.obj (names.zip values)) = some (values.map some) := by
  have keys : (names.zip values).map Prod.fst = names := List.map_fst_zip (Nat.le_of_eq length)
  rw [structFields, keys, if_pos ⟨distinct, fun key member => member⟩, lookup_zip length distinct]

@[simp]
theorem decodeU64_u64 (value : UInt64) : decodeU64 (u64 value) = some value := by
  rw [u64, decodeU64, if_pos value.toNat_lt, UInt64.ofNat_toNat]

@[simp]
theorem decodeU8_u8 (value : UInt8) : decodeU8 (u8 value) = some value := by
  rw [u8, decodeU8, if_pos value.toNat_lt, UInt8.ofNat_toNat]

theorem decodeOption_option {α : Type} {decode : Json → Option α} {encode : α → Json} (inverse : ∀ value, decode (encode value) = some value)
    (notNull : ∀ value, encode value ≠ .null) (value : Option α) : decodeOption decode (option encode value) = some value := by
  cases value with
  | none => rfl
  | some inner =>
    rw [option, decodeOption, inverse]
    · rfl
    · exact notNull inner

theorem mapM_map {α β : Type} {decode : β → Option α} {encode : α → β} {values : List α}
    (inverse : ∀ value ∈ values, decode (encode value) = some value) : (values.map encode).mapM decode = some values := by
  induction values with
  | nil => rfl
  | cons value rest ih =>
    have others := ih fun other member => inverse other (List.mem_cons_of_mem value member)
    rw [List.map_cons, List.mapM_cons, inverse value List.mem_cons_self, others]
    rfl

end Serde
