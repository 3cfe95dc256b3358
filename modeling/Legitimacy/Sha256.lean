import Legitimacy.Hex
import Legitimacy.PrefixCode

namespace Sha256

def roundConstants : List UInt32 :=
  [0x428a2f98, 0x71374491, 0xb5c0fbcf, 0xe9b5dba5, 0x3956c25b, 0x59f111f1, 0x923f82a4, 0xab1c5ed5,
    0xd807aa98, 0x12835b01, 0x243185be, 0x550c7dc3, 0x72be5d74, 0x80deb1fe, 0x9bdc06a7, 0xc19bf174,
    0xe49b69c1, 0xefbe4786, 0x0fc19dc6, 0x240ca1cc, 0x2de92c6f, 0x4a7484aa, 0x5cb0a9dc, 0x76f988da,
    0x983e5152, 0xa831c66d, 0xb00327c8, 0xbf597fc7, 0xc6e00bf3, 0xd5a79147, 0x06ca6351, 0x14292967,
    0x27b70a85, 0x2e1b2138, 0x4d2c6dfc, 0x53380d13, 0x650a7354, 0x766a0abb, 0x81c2c92e, 0x92722c85,
    0xa2bfe8a1, 0xa81a664b, 0xc24b8b70, 0xc76c51a3, 0xd192e819, 0xd6990624, 0xf40e3585, 0x106aa070,
    0x19a4c116, 0x1e376c08, 0x2748774c, 0x34b0bcb5, 0x391c0cb3, 0x4ed8aa4a, 0x5b9cca4f, 0x682e6ff3,
    0x748f82ee, 0x78a5636f, 0x84c87814, 0x8cc70208, 0x90befffa, 0xa4506ceb, 0xbef9a3f7, 0xc67178f2]

structure State where
  (a b c d e f g h : UInt32)

def initial : State := ⟨0x6a09e667, 0xbb67ae85, 0x3c6ef372, 0xa54ff53a, 0x510e527f, 0x9b05688c, 0x1f83d9ab, 0x5be0cd19⟩

def rotateRight (value count : UInt32) : UInt32 := value >>> count ||| value <<< (32 - count)

def round (state : State) (input : UInt32 × UInt32) : State :=
  let large := rotateRight state.e 6 ^^^ rotateRight state.e 11 ^^^ rotateRight state.e 25
  let choice := (state.e &&& state.f) ^^^ (~~~state.e &&& state.g)
  let first := state.h + large + choice + input.1 + input.2
  let small := rotateRight state.a 2 ^^^ rotateRight state.a 13 ^^^ rotateRight state.a 22
  let majority := (state.a &&& state.b) ^^^ (state.a &&& state.c) ^^^ (state.b &&& state.c)
  ⟨first + (small + majority), state.a, state.b, state.c, state.d + first, state.e, state.f, state.g⟩

def schedule : Nat → List UInt32 → List UInt32
  | 0, words => words
  | count + 1, words =>
    let older := words.getD 14 0
    let newer := words.getD 1 0
    let small := rotateRight older 7 ^^^ rotateRight older 18 ^^^ older >>> 3
    let large := rotateRight newer 17 ^^^ rotateRight newer 19 ^^^ newer >>> 10
    schedule count ((words.getD 15 0 + small + words.getD 6 0 + large) :: words)

def words : List UInt8 → List UInt32
  | first :: second :: third :: fourth :: rest =>
    (first.toUInt32 <<< 24 ||| second.toUInt32 <<< 16 ||| third.toUInt32 <<< 8 ||| fourth.toUInt32) :: words rest
  | _ => []

def compress (state : State) (block : List UInt8) : State :=
  let final := (roundConstants.zip (schedule 48 (words block).reverse).reverse).foldl round state
  ⟨state.a + final.a, state.b + final.b, state.c + final.c, state.d + final.d, state.e + final.e, state.f + final.f, state.g + final.g,
    state.h + final.h⟩

/-- The message with its padding to whole blocks of 64 bytes. -/
def pad (message : List UInt8) : List UInt8 :=
  message ++ 0x80 :: List.replicate ((119 - message.length % 64) % 64) 0 ++ PrefixCode.bigEndian (.ofNat (8 * message.length))

def blocks (state : State) : Nat → List UInt8 → State
  | 0, _ => state
  | count + 1, message => blocks (compress state (message.take 64)) count (message.drop 64)

def wordBytes (word : UInt32) : List UInt8 :=
  [(word >>> 24).toUInt8, (word >>> 16).toUInt8, (word >>> 8).toUInt8, word.toUInt8]

def State.bytes (state : State) : List UInt8 :=
  [state.a, state.b, state.c, state.d, state.e, state.f, state.g, state.h].flatMap wordBytes

def hash (message : List UInt8) : List UInt8 :=
  let padded := pad message
  (blocks initial (padded.length / 64) padded).bytes

theorem length_hash (message : List UInt8) : (hash message).length = 32 := rfl

example : Hex.encode (hash [0x61, 0x62, 0x63]) = "ba7816bf8f01cfea414140de5dae2223b00361a396177a9cb410ff61f20015ad" := by decide +kernel

end Sha256
