import Legitimacy.Json

namespace Json

def textSize (characters : List Char) : Nat := (characters.map Char.utf8Size).sum

@[simp]
theorem textSize_nil : textSize [] = 0 := rfl

@[simp]
theorem textSize_cons (character : Char) (rest : List Char) : textSize (character :: rest) = character.utf8Size + textSize rest := rfl

@[simp]
theorem textSize_append (first second : List Char) : textSize (first ++ second) = textSize first + textSize second := by
  simp [textSize]

theorem utf8ByteSize_eq_textSize (text : String) : text.utf8ByteSize = textSize text.toList := by
  rw [← Utf8.length_bytes, Utf8.bytes]
  induction text.toList with
  | nil => rfl
  | cons character rest ih =>
    rw [List.flatMap_cons, List.length_append, ih, String.length_utf8EncodeChar, textSize_cons]

theorem length_le_textSize (characters : List Char) : characters.length ≤ textSize characters := by
  induction characters with
  | nil => exact Nat.zero_le _
  | cons character rest ih =>
    have positive := character.utf8Size_pos
    rw [List.length_cons, textSize_cons]
    omega

theorem length_compactBytes (floatText : Float → String) (value : Json) :
    (compactBytes floatText value).length = textSize (compactChars floatText value) := by
  rw [compactBytes, Utf8.length_bytes, utf8ByteSize_eq_textSize, compact, String.toList_ofList]

theorem utf8Size_of_ascii {character : Char} (ascii : character.toNat < 128) : character.utf8Size = 1 := by
  rw [Char.utf8Size_eq_one_iff]
  exact UInt32.le_iff_toNat_le.2 (Nat.le_of_lt_succ ascii)

theorem utf8Size_le_escape (character : Char) : character.utf8Size ≤ textSize (escape character) := by
  have one : ∀ other : Char, other.toNat < 128 → other.utf8Size ≤ 2 := fun other ascii => by rw [utf8Size_of_ascii ascii]; omega
  unfold escape
  split
  · rename_i same
    exact one character (by rw [same]; decide)
  split
  · rename_i same
    exact one character (by rw [same]; decide)
  split
  · exact one character (by omega)
  split
  · exact one character (by omega)
  split
  · exact one character (by omega)
  split
  · exact one character (by omega)
  split
  · exact one character (by omega)
  split
  · have long := length_le_textSize ['\\', 'u', '0', '0', Hex.digit (character.toNat / 16), Hex.digit (character.toNat % 16)]
    exact (one character (by omega)).trans ((by decide : 2 ≤ 6).trans long)
  · simp

theorem textSize_le_escapes (characters : List Char) : textSize characters ≤ textSize (characters.flatMap escape) := by
  induction characters with
  | nil => exact Nat.le_refl _
  | cons character rest ih =>
    have first := utf8Size_le_escape character
    rw [List.flatMap_cons, textSize_append, textSize_cons]
    omega

theorem size_quoted (text : String) : textSize (quoted text) = textSize (text.toList.flatMap escape) + 2 := by
  rw [quoted, textSize_cons, textSize_append, textSize_cons, textSize_nil]
  show 1 + (textSize (text.toList.flatMap escape) + (1 + 0)) = _
  omega

theorem quoted_size_ge (text : String) : text.utf8ByteSize + 2 ≤ textSize (quoted text) := by
  have escaped := textSize_le_escapes text.toList
  rw [size_quoted, utf8ByteSize_eq_textSize]
  omega

/-- A character that stands for itself inside a string. -/
def IsPlain (character : Char) : Prop := escape character = [character]

theorem size_quoted_of_plain {text : String} (plain : ∀ character ∈ text.toList, IsPlain character) :
    textSize (quoted text) = text.utf8ByteSize + 2 := by
  have same : text.toList.flatMap escape = text.toList := by
    generalize text.toList = characters at plain
    induction characters with
    | nil => rfl
    | cons character rest ih =>
      have own := plain character List.mem_cons_self
      rw [List.flatMap_cons, own, ih fun other member => plain other (List.mem_cons_of_mem character member)]
      rfl
  rw [size_quoted, same, utf8ByteSize_eq_textSize]

theorem one_le_compactChars {floatText : Float → String} {value : Json} (integral : Integral value) :
    1 ≤ textSize (compactChars floatText value) := by
  refine Nat.le_trans ?_ (length_le_textSize _)
  rw [Nat.succ_le_iff, List.length_pos_iff]
  cases value with
  | null => simp [compactChars]
  | bool value => cases value <;> simp [compactChars]
  | int value =>
    have positive : value.repr.toList ≠ [] := by
      cases value with
      | ofNat number => simp [Int.repr, Nat.toList_repr, Nat.toDigits_ne_nil]
      | negSucc number => simp [Int.repr]
    exact positive
  | float value => exact integral.elim
  | str value => simp [compactChars, quoted]
  | arr values => cases values <;> simp [compactChars]
  | obj fields => rcases fields with _ | ⟨⟨key, value⟩, rest⟩ <;> simp [compactChars]

instance (character : Char) : Decidable (IsPlain character) := inferInstanceAs (Decidable (_ = _))

theorem plain_of_bytes {text : String} {visible : UInt8 → Bool} (all : (Utf8.bytes text).all visible = true)
    (plain : ∀ code < 256, visible (.ofNat code) = true → code < 128 ∧ IsPlain (.ofNat code)) :
    ∀ character ∈ text.toList, IsPlain character := by
  have each (byte : UInt8) (member : byte ∈ Utf8.bytes text) : byte.toNat < 128 ∧ IsPlain (.ofNat byte.toNat) := by
    have seen := List.all_eq_true.1 all byte member
    rw [← UInt8.ofNat_toNat (x := byte)] at seen
    exact plain byte.toNat byte.toNat_lt seen
  intro character member
  obtain ⟨short, inside⟩ := Utf8.mem_bytes_of_ascii (fun byte inside => (each byte inside).1) member
  have below := UInt32.le_iff_toNat_le.1 (Char.utf8Size_eq_one_iff.1 short)
  have code : character.val.toUInt8.toNat = character.toNat := by
    rw [UInt32.toNat_toUInt8]
    exact Nat.mod_eq_of_lt (Nat.lt_of_le_of_lt below (by decide))
  have same := (each _ inside).2
  rwa [code, Char.ofNat_toNat] at same

section

variable {floatText : Float → String}

theorem size_moreFields (fields : List (String × Json)) : textSize (moreFields floatText fields) =
    (fields.map fun field => textSize (quoted field.1) + 2).sum + (fields.map fun field => textSize (compactChars floatText field.2)).sum := by
  induction fields with
  | nil => rfl
  | cons field rest ih =>
    have comma : ','.utf8Size = 1 := rfl
    have colon : ':'.utf8Size = 1 := rfl
    simp only [moreFields, textSize_cons, textSize_append, List.map_cons, List.sum_cons, ih]
    omega

theorem size_moreValues (values : List Json) : textSize (moreValues floatText values) =
    values.length + (values.map fun value => textSize (compactChars floatText value)).sum := by
  induction values with
  | nil => rfl
  | cons value rest ih =>
    have comma : ','.utf8Size = 1 := rfl
    simp only [moreValues, textSize_cons, textSize_append, List.map_cons, List.sum_cons, List.length_cons, ih]
    omega

theorem size_obj_le (fields : List (String × Json)) : textSize (compactChars floatText (.obj fields)) ≤
    2 + (fields.map fun field => textSize (quoted field.1) + 2).sum + (fields.map fun field => textSize (compactChars floatText field.2)).sum := by
  cases fields with
  | nil => exact Nat.le_refl _
  | cons field rest =>
    have colon : ':'.utf8Size = 1 := rfl
    have left : '{'.utf8Size = 1 := rfl
    have right : '}'.utf8Size = 1 := rfl
    have others := @size_moreFields floatText rest
    simp only [compactChars, textSize_cons, textSize_append, textSize_nil, List.map_cons, List.sum_cons] at *
    omega

theorem size_arr_le (values : List Json) : textSize (compactChars floatText (.arr values)) ≤
    2 + values.length + (values.map fun value => textSize (compactChars floatText value)).sum := by
  cases values with
  | nil => exact Nat.le_refl _
  | cons value rest =>
    have left : '['.utf8Size = 1 := rfl
    have right : ']'.utf8Size = 1 := rfl
    have others := @size_moreValues floatText rest
    simp only [compactChars, textSize_cons, textSize_append, textSize_nil, List.map_cons, List.sum_cons, List.length_cons] at *
    omega

theorem size_struct_le {fields : List (String × Json)} (keys : List String) (same : fields.map Prod.fst = keys) {cost : Nat}
    (costs : (keys.map fun key => textSize (quoted key) + 2).sum + 2 = cost) : textSize (compactChars floatText (.obj fields)) ≤
      cost + (fields.map fun field => textSize (compactChars floatText field.2)).sum := by
  have bound := @size_obj_le floatText fields
  subst same
  rw [List.map_map] at costs
  have parts : ((fields.map fun field => textSize (quoted field.1) + 2).sum) + 2 = cost := costs
  omega

theorem size_nat_le {number size : Nat} (positive : 0 < size) (below : number < 10 ^ size) :
    textSize (compactChars floatText (.int (.ofNat number))) ≤ size := by
  have bound := Utf8.utf8ByteSize_repr_le positive below
  rwa [utf8ByteSize_eq_textSize] at bound

end

theorem size_escape_le (character : Char) : textSize (escape character) ≤ 6 * character.utf8Size := by
  have positive := character.utf8Size_pos
  have back : '\\'.utf8Size = 1 := rfl
  have two (letter : Char) (ascii : letter.utf8Size = 1) : textSize ['\\', letter] ≤ 6 * character.utf8Size := by
    simp only [textSize_cons, textSize_nil, back, ascii]
    omega
  unfold escape
  split_ifs with _ _ _ _ _ _ _ control
  any_goals exact two _ rfl
  · have first := Hex.utf8Size_digit (character.toNat / 16) (by omega)
    have second := Hex.utf8Size_digit (character.toNat % 16) (by omega)
    have unicode : 'u'.utf8Size = 1 := rfl
    have zero : '0'.utf8Size = 1 := rfl
    simp only [textSize_cons, textSize_nil, back, unicode, zero, first, second]
    omega
  · rw [textSize_cons, textSize_nil]
    omega

theorem size_quoted_le (text : String) : textSize (quoted text) ≤ 6 * text.utf8ByteSize + 2 := by
  rw [size_quoted, utf8ByteSize_eq_textSize]
  induction text.toList with
  | nil => exact Nat.le_refl _
  | cons character rest ih =>
    have first := size_escape_le character
    rw [List.flatMap_cons, textSize_append, textSize_cons]
    omega

section

variable (floatText : Float → String)

mutual

/-- A bound of the size of a text that does not look at the characters of its strings. -/
def sizeBound : Json → Nat
  | .str value => 6 * value.utf8ByteSize + 2
  | .arr values => 2 + valuesBound values
  | .obj fields => 2 + fieldsBound fields
  | value => textSize (compactChars floatText value)

def valuesBound : List Json → Nat
  | [] => 0
  | value :: rest => 1 + sizeBound value + valuesBound rest

def fieldsBound : List (String × Json) → Nat
  | [] => 0
  | (key, value) :: rest => 6 * key.utf8ByteSize + 4 + sizeBound value + fieldsBound rest

end

variable {floatText}

mutual

theorem size_le_bound : ∀ value, textSize (compactChars floatText value) ≤ sizeBound floatText value
  | .null | .bool _ | .int _ | .float _ => by simp only [sizeBound, Nat.le_refl]
  | .str value => size_quoted_le value
  | .arr values => by
    have whole := @size_arr_le floatText values
    have parts := values_le_bound values
    rw [sizeBound]
    omega
  | .obj fields => by
    have whole := @size_obj_le floatText fields
    have parts := fields_le_bound fields
    rw [sizeBound]
    omega

theorem values_le_bound : ∀ values : List Json,
    values.length + (values.map fun value => textSize (compactChars floatText value)).sum ≤ valuesBound floatText values
  | [] => Nat.le_refl _
  | value :: rest => by
    have first := size_le_bound value
    have others := values_le_bound rest
    simp only [valuesBound, List.length_cons, List.map_cons, List.sum_cons]
    omega

theorem fields_le_bound : ∀ fields : List (String × Json), (fields.map fun field => textSize (quoted field.1) + 2).sum +
    (fields.map fun field => textSize (compactChars floatText field.2)).sum ≤ fieldsBound floatText fields
  | [] => Nat.le_refl _
  | (key, value) :: rest => by
    have name := size_quoted_le key
    have first := size_le_bound value
    have others := fields_le_bound rest
    simp only [fieldsBound, List.map_cons, List.sum_cons]
    omega

end

end

end Json
