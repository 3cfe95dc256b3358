import Mathlib.Data.List.Sort
import Mathlib.Algebra.GroupWithZero.Nat
import Mathlib.Algebra.Group.Int.Defs

namespace Utf8

def bytes (text : String) : List UInt8 := text.toList.flatMap String.utf8EncodeChar

theorem toByteArray_eq (text : String) : text.toByteArray = (bytes text).toByteArray := by
  rw [← String.utf8Encode_toList]
  rfl

theorem fromUTF8_bytes (text : String) : String.fromUTF8? (bytes text).toByteArray = some text := by
  rw [← toByteArray_eq]
  exact dif_pos text.isValidUTF8

@[simp]
theorem length_bytes (text : String) : (bytes text).length = text.utf8ByteSize := by
  rw [← String.size_toByteArray, toByteArray_eq, List.size_toByteArray]

theorem bytes_injective : Function.Injective bytes := by
  intro first second same
  rw [← String.toByteArray_inj, toByteArray_eq, toByteArray_eq, same]

@[simp]
theorem bytes_append (first second : String) : bytes (first ++ second) = bytes first ++ bytes second := by
  rw [bytes, String.toList_append, List.flatMap_append]
  rfl

theorem utf8ByteSize_eq_length {text : String} (ascii : ∀ character ∈ text.toList, character.utf8Size = 1) :
    text.utf8ByteSize = text.toList.length := by
  rw [← length_bytes, bytes]
  generalize text.toList = characters at ascii
  induction characters with
  | nil => rfl
  | cons character rest ih =>
    have size := ascii character List.mem_cons_self
    have others := ih fun other member => ascii other (List.mem_cons_of_mem character member)
    rw [List.flatMap_cons, List.length_append, others, String.length_utf8EncodeChar, size, List.length_cons, Nat.add_comm]

theorem utf8Size_of_isDigit {character : Char} (digit : character.isDigit = true) : character.utf8Size = 1 := by
  rw [Char.utf8Size_eq_one_iff]
  simp only [Char.isDigit, Bool.and_eq_true, decide_eq_true_eq] at digit
  exact UInt32.le_trans digit.2 (by decide)

theorem utf8ByteSize_repr (number : Nat) : number.repr.utf8ByteSize = (Nat.toDigits 10 number).length := by
  rw [utf8ByteSize_eq_length, Nat.toList_repr]
  intro character member
  rw [Nat.toList_repr] at member
  exact utf8Size_of_isDigit (Nat.isDigit_of_mem_toDigits (by decide) (by decide) member)

theorem utf8ByteSize_repr_le {number size : Nat} (positive : 0 < size) (below : number < 10 ^ size) :
    number.repr.utf8ByteSize ≤ size := by
  rw [utf8ByteSize_repr]
  exact (Nat.length_toDigits_le_iff (by decide) positive).2 below

theorem exists_high_byte {character : Char} (long : character.utf8Size ≠ 1) : ∃ byte ∈ String.utf8EncodeChar character, 128 ≤ byte.toNat := by
  have high (low : UInt8) : 128 ≤ (low ||| 0x80).toNat := by
    rw [UInt8.toNat_or]
    exact Nat.right_le_or
  have bound := character.utf8Size_le_four
  have positive := character.utf8Size_pos
  have sizes : character.utf8Size = 2 ∨ character.utf8Size = 3 ∨ character.utf8Size = 4 := by omega
  rcases sizes with two | three | four
  · rw [String.utf8EncodeChar_eq_cons_cons two]
    exact ⟨_, List.mem_cons_of_mem _ List.mem_cons_self, high _⟩
  · rw [String.utf8EncodeChar_eq_cons_cons_cons three]
    exact ⟨_, List.mem_cons_of_mem _ List.mem_cons_self, high _⟩
  · rw [String.utf8EncodeChar_eq_cons_cons_cons_cons four]
    exact ⟨_, List.mem_cons_of_mem _ List.mem_cons_self, high _⟩

theorem mem_bytes_of_ascii {text : String} (ascii : ∀ byte ∈ bytes text, byte.toNat < 128) {character : Char}
    (member : character ∈ text.toList) : character.utf8Size = 1 ∧ character.val.toUInt8 ∈ bytes text := by
  have included (byte : UInt8) (inside : byte ∈ String.utf8EncodeChar character) : byte ∈ bytes text :=
    List.mem_flatMap.2 ⟨character, member, inside⟩
  have short : character.utf8Size = 1 := by
    by_contra long
    obtain ⟨byte, inside, high⟩ := exists_high_byte long
    have low := ascii byte (included byte inside)
    omega
  exact ⟨short, included _ (by rw [String.utf8EncodeChar_eq_singleton short]; exact List.mem_cons_self)⟩

end Utf8
