import Legitimacy.Utf8

namespace Hex

def digit (nibble : Nat) : Char := ['0', '1', '2', '3', '4', '5', '6', '7', '8', '9', 'a', 'b', 'c', 'd', 'e', 'f'].getD nibble '0'

def isDigit (character : Char) : Bool := character.isDigit || ('a' ≤ character && character ≤ 'f')

def digits (bytes : List UInt8) : List Char := bytes.flatMap fun byte => [digit (byte.toNat / 16), digit (byte.toNat % 16)]

def encode (bytes : List UInt8) : String := .ofList (digits bytes)

theorem digit_injective : ∀ first < 16, ∀ second < 16, digit first = digit second → first = second := by decide

theorem utf8Size_digit : ∀ nibble < 16, (digit nibble).utf8Size = 1 := by decide

@[simp]
theorem toList_encode (bytes : List UInt8) : (encode bytes).toList = digits bytes := String.toList_ofList

theorem length_digits (bytes : List UInt8) : (digits bytes).length = 2 * bytes.length := by
  simp [digits, Nat.mul_comm]

theorem mem_digits {bytes : List UInt8} {character : Char} (member : character ∈ digits bytes) :
    ∃ nibble < 16, character = digit nibble := by
  obtain ⟨byte, -, inPair⟩ := List.mem_flatMap.1 member
  have below := byte.toNat_lt
  rw [List.mem_pair] at inPair
  rcases inPair with rfl | rfl
  · exact ⟨_, by omega, rfl⟩
  · exact ⟨_, by omega, rfl⟩

@[simp]
theorem utf8ByteSize_encode (bytes : List UInt8) : (encode bytes).utf8ByteSize = 2 * bytes.length := by
  rw [Utf8.utf8ByteSize_eq_length, toList_encode, length_digits]
  intro character member
  rw [toList_encode] at member
  obtain ⟨nibble, below, rfl⟩ := mem_digits member
  exact utf8Size_digit nibble below

theorem encode_injective : Function.Injective encode := by
  intro first second same
  have texts : digits first = digits second := by rw [← toList_encode, ← toList_encode, same]
  clear same
  induction first generalizing second with
  | nil =>
    cases second with
    | nil => rfl
    | cons byte rest => cases texts
  | cons byte rest ih =>
    cases second with
    | nil => cases texts
    | cons byte' rest' =>
      simp only [digits, List.flatMap_cons, List.cons_append, List.nil_append, List.cons.injEq] at texts
      obtain ⟨high, low, remaining⟩ := texts
      have below := byte.toNat_lt
      have below' := byte'.toNat_lt
      have highs := digit_injective _ (by omega) _ (by omega) high
      have lows := digit_injective _ (by omega) _ (by omega) low
      have same : byte = byte' := UInt8.toNat_inj.1 (by omega)
      rw [same, ih remaining]

end Hex
