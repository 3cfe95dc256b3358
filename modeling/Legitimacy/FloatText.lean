import Mathlib.Data.List.Sort
import Mathlib.Algebra.GroupWithZero.Nat
import Mathlib.Algebra.Group.Int.Defs

namespace FloatText

def decimalValue (digits : Nat) (exponent : Int) : Float :=
  if exponent < 0 then Float.ofScientific digits true exponent.natAbs
  else Float.ofScientific digits false exponent.natAbs

/-- Sign, numerator and denominator of a finite binary64 number. -/
def fraction (value : Float) : Bool × Nat × Nat :=
  match value.toModel.unpack with
  | .finite sign mantissa exponent _ =>
    (sign == .negative, if exponent < 0 then (mantissa, 2 ^ exponent.natAbs) else (mantissa * 2 ^ exponent.natAbs, 1))
  | .zero sign => (sign == .negative, 0, 1)
  | _ => (false, 0, 1)

/-- The least `k` with `numerator / denominator < 10 ^ k`, for a positive fraction. -/
def decimalPoint (numerator denominator : Nat) : Int :=
  if denominator ≤ numerator then ((Nat.toDigits 10 (numerator / denominator)).length : Int)
  else
    match (List.range 400).find? (fun shift => denominator ≤ numerator * 10 ^ shift) with
    | some shift => 1 - (shift : Int)
    | none => 0

/-- The decimal of a given number of digits that reads back as `value`, the nearer one when both neighbours do. -/
def digitsOfLength (value : Float) (numerator denominator : Nat) (point : Int) (length : Nat) : Option (Nat × Int) :=
  let exponent := point - (length : Int)
  let scaledUp := if exponent < 0 then numerator * 10 ^ exponent.natAbs else numerator
  let scaledDown := if exponent < 0 then denominator else denominator * 10 ^ exponent.natAbs
  let below := scaledUp / scaledDown
  let belowReads := decimalValue below exponent == value && below != 0
  let aboveReads := decimalValue (below + 1) exponent == value
  if belowReads && aboveReads then
    some (if 2 * (scaledUp % scaledDown) ≤ scaledDown then below else below + 1, exponent)
  else if belowReads then some (below, exponent)
  else if aboveReads then some (below + 1, exponent)
  else none

def shortest (value : Float) (numerator denominator : Nat) : Nat × Int :=
  let point := decimalPoint numerator denominator
  let (digits, exponent) :=
    ((List.range 17).findSome? fun length => digitsOfLength value numerator denominator point (length + 1)).getD (0, 0)
  -- rounding up to a power of ten leaves one zero too many
  if digits % 10 = 0 then (digits / 10, exponent + 1) else (digits, exponent)

def positional (digits : Nat) (exponent : Int) : String :=
  if 0 ≤ exponent then toString digits ++ String.ofList (List.replicate exponent.natAbs '0')
  else
    let text := Nat.toDigits 10 digits
    let padded := List.replicate (exponent.natAbs + 1 - text.length) '0' ++ text
    let whole := padded.length - exponent.natAbs
    String.ofList (padded.take whole) ++ "." ++ String.ofList (padded.drop whole)

/-- Rust's `{}` of an `f64`: the shortest decimal that reads back, without an exponent. -/
def display (value : Float) : String :=
  if value.isNaN then "NaN"
  else if value.isInf then (if value < 0 then "-inf" else "inf")
  else
    let (negative, numerator, denominator) := fraction value
    let text :=
      if numerator = 0 then "0"
      else
        let (digits, exponent) := shortest value.abs numerator denominator
        positional digits exponent
    if negative then "-" ++ text else text

/-- The `ryu` text of a finite `f64`: the same digits, with an exponent where the point lies far from them. -/
def ryu (value : Float) : String :=
  let (negative, numerator, denominator) := fraction value
  let text :=
    if numerator = 0 then "0.0"
    else
      let (digits, exponent) := shortest value.abs numerator denominator
      let length := (Nat.toDigits 10 digits).length
      let point := (length : Int) + exponent
      if 0 ≤ exponent ∧ point ≤ 16 then positional digits exponent ++ ".0"
      else if -5 < point ∧ point ≤ 16 then positional digits exponent
      else if length = 1 then toString digits ++ "e" ++ toString (point - 1)
      else positional digits (1 - (length : Int)) ++ "e" ++ toString (point - 1)
  if negative then "-" ++ text else text

/-- Rust's `{:.n}` of an `f64`: the exact value rounded to `n` decimals, ties to even. -/
def fixed (decimals : Nat) (value : Float) : String :=
  if value.isNaN then "NaN"
  else if value.isInf then (if value < 0 then "-inf" else "inf")
  else
    let (negative, numerator, denominator) := fraction value
    let scaled := numerator * 10 ^ decimals
    let floor := scaled / denominator
    let twice := 2 * (scaled % denominator)
    let rounded :=
      if twice < denominator ∨ (twice = denominator ∧ floor % 2 = 0) then floor else floor + 1
    let text := positional rounded (-(decimals : Int))
    if negative then "-" ++ text else text

end FloatText
