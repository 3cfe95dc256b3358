import Legitimacy.Json

namespace Json

def IsPrinted (character : Char) : Prop := 0x20 ≤ character.toNat

instance (character : Char) : Decidable (IsPrinted character) := inferInstanceAs (Decidable (_ ≤ _))

theorem isPrinted_of_all {characters : List Char} (all : (characters.all fun character => decide (IsPrinted character)) = true) :
    ∀ other ∈ characters, IsPrinted other := fun other member => of_decide_eq_true (List.all_eq_true.1 all other member)

theorem isPrinted_digit : ∀ nibble < 16, IsPrinted (Hex.digit nibble) := by decide

theorem isPrinted_of_isDigit {character : Char} (digit : character.isDigit = true) : IsPrinted character := by
  simp only [Char.isDigit, Bool.and_eq_true, decide_eq_true_eq] at digit
  have low := UInt32.le_iff_toNat_le.1 digit.1
  show 0x20 ≤ character.val.toNat
  exact Nat.le_trans (by decide) low

theorem isPrinted_escape {character other : Char} (member : other ∈ escape character) : IsPrinted other := by
  unfold escape at member
  split at member
  · exact isPrinted_of_all (by decide) other member
  split at member
  · exact isPrinted_of_all (by decide) other member
  split at member
  · exact isPrinted_of_all (by decide) other member
  split at member
  · exact isPrinted_of_all (by decide) other member
  split at member
  · exact isPrinted_of_all (by decide) other member
  split at member
  · exact isPrinted_of_all (by decide) other member
  split at member
  · exact isPrinted_of_all (by decide) other member
  split at member
  · rename_i control
    have letters : ∀ other ∈ ['\\', 'u', '0', '0'], IsPrinted other := isPrinted_of_all (by decide)
    rcases List.mem_append.1 (show other ∈ ['\\', 'u', '0', '0'] ++ [_, _] from member) with front | back
    · exact letters other front
    · rcases List.mem_pair.1 back with rfl | rfl
      · exact isPrinted_digit _ (by omega)
      · exact isPrinted_digit _ (by omega)
  · rename_i printable
    obtain rfl := List.mem_singleton.1 member
    exact Nat.not_lt.1 printable

theorem isPrinted_quoted {text : String} {other : Char} (member : other ∈ quoted text) : IsPrinted other := by
  rcases List.mem_cons.1 member with rfl | rest
  · decide
  · rcases List.mem_append.1 rest with inside | last
    · obtain ⟨character, -, escaped⟩ := List.mem_flatMap.1 inside
      exact isPrinted_escape escaped
    · obtain rfl := List.mem_singleton.1 last
      decide

theorem isPrinted_repr {value : Int} {other : Char} (member : other ∈ value.repr.toList) : IsPrinted other := by
  have digits {number : Nat} (inside : other ∈ (Nat.repr number).toList) : IsPrinted other := by
    rw [Nat.toList_repr] at inside
    exact isPrinted_of_isDigit (Nat.isDigit_of_mem_toDigits (by decide) (by decide) inside)
  cases value with
  | ofNat number => exact digits member
  | negSucc number =>
    have split : other ∈ ("-" ++ Nat.repr (number + 1)).toList := member
    rw [String.toList_append, List.mem_append] at split
    rcases split with sign | inside
    · obtain rfl := List.mem_singleton.1 (show other ∈ ['-'] from sign)
      decide
    · exact digits inside

variable {floatText : Float → String}

mutual

/-- A compact text has no control characters. -/
theorem isPrinted_compactChars : (value : Json) → Integral value → ∀ other ∈ compactChars floatText value, IsPrinted other
  | .null, _ => isPrinted_of_all (by rfl)
  | .bool true, _ => isPrinted_of_all (by rfl)
  | .bool false, _ => isPrinted_of_all (by rfl)
  | .int _, _ => fun _ => isPrinted_repr
  | .float _, integral => integral.elim
  | .str _, _ => fun _ => isPrinted_quoted
  | .arr [], _ => isPrinted_of_all (by rfl)
  | .arr (value :: rest), integral => fun other member => by
    have first := isPrinted_compactChars value integral.1 other
    have others := isPrinted_moreValues rest integral.2 other
    simp only [compactChars, List.mem_cons, List.mem_append, List.not_mem_nil, or_false] at member
    rcases member with rfl | inFirst | inRest | rfl
    · decide
    · exact first inFirst
    · exact others inRest
    · decide
  | .obj [], _ => isPrinted_of_all (by rfl)
  | .obj ((key, value) :: rest), integral => fun other member => by
    have first := isPrinted_compactChars value integral.1 other
    have others := isPrinted_moreFields rest integral.2 other
    simp only [compactChars, List.mem_cons, List.mem_append, List.not_mem_nil, or_false] at member
    rcases member with rfl | inKey | rfl | inFirst | inRest | rfl
    · decide
    · exact isPrinted_quoted inKey
    · decide
    · exact first inFirst
    · exact others inRest
    · decide

theorem isPrinted_moreValues : (values : List Json) → IntegralValues values → ∀ other ∈ moreValues floatText values, IsPrinted other
  | [], _ => fun other member => by cases member
  | value :: rest, integral => fun other member => by
    have first := isPrinted_compactChars value integral.1 other
    have others := isPrinted_moreValues rest integral.2 other
    simp only [moreValues, List.mem_cons, List.mem_append] at member
    rcases member with rfl | inFirst | inRest
    · decide
    · exact first inFirst
    · exact others inRest

theorem isPrinted_moreFields : (fields : List (String × Json)) → IntegralFields fields →
    ∀ other ∈ moreFields floatText fields, IsPrinted other
  | [], _ => fun other member => by cases member
  | (key, value) :: rest, integral => fun other member => by
    have first := isPrinted_compactChars value integral.1 other
    have others := isPrinted_moreFields rest integral.2 other
    simp only [moreFields, List.mem_cons, List.mem_append] at member
    rcases member with rfl | inKey | rfl | inFirst | inRest
    · decide
    · exact isPrinted_quoted inKey
    · decide
    · exact first inFirst
    · exact others inRest

end

theorem IsPrinted.bytes {character : Char} (printed : IsPrinted character) : ∀ byte ∈ String.utf8EncodeChar character, 0x20 ≤ byte.toNat := by
  have high (low mark : UInt8) (above : 0x20 ≤ mark.toNat) : 0x20 ≤ (low ||| mark).toNat := by
    rw [UInt8.toNat_or]
    exact above.trans Nat.right_le_or
  have bound := character.utf8Size_le_four
  have positive := character.utf8Size_pos
  have sizes : character.utf8Size = 1 ∨ character.utf8Size = 2 ∨ character.utf8Size = 3 ∨ character.utf8Size = 4 := by omega
  rcases sizes with one | two | three | four
  · have below := UInt32.le_iff_toNat_le.1 (Char.utf8Size_eq_one_iff.1 one)
    rw [String.utf8EncodeChar_eq_singleton one]
    intro byte member
    obtain rfl := List.mem_singleton.1 member
    rw [UInt32.toNat_toUInt8, Nat.mod_eq_of_lt (Nat.lt_of_le_of_lt below (by decide))]
    exact printed
  · rw [String.utf8EncodeChar_eq_cons_cons two]
    exact List.forall_mem_cons.2 ⟨high _ _ (by decide), List.forall_mem_singleton.2 (high _ _ (by decide))⟩
  · rw [String.utf8EncodeChar_eq_cons_cons_cons three]
    exact List.forall_mem_cons.2 ⟨high _ _ (by decide), List.forall_mem_cons.2 ⟨high _ _ (by decide),
      List.forall_mem_singleton.2 (high _ _ (by decide))⟩⟩
  · rw [String.utf8EncodeChar_eq_cons_cons_cons_cons four]
    exact List.forall_mem_cons.2 ⟨high _ _ (by decide), List.forall_mem_cons.2 ⟨high _ _ (by decide),
      List.forall_mem_cons.2 ⟨high _ _ (by decide), List.forall_mem_singleton.2 (high _ _ (by decide))⟩⟩⟩

theorem compactBytes_printed {value : Json} (integral : Integral value) : ∀ byte ∈ compactBytes floatText value, 0x20 ≤ byte.toNat := by
  intro byte member
  obtain ⟨character, inText, inside⟩ := List.mem_flatMap.1 member
  rw [compact, String.toList_ofList] at inText
  exact (isPrinted_compactChars value integral character inText).bytes byte inside

end Json
