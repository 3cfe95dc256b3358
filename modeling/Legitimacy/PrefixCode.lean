import Mathlib.Data.List.Basic

namespace PrefixCode

/-- On its domain, an encoding can be cut off the front of any text in one way only. -/
def PrefixFree {α σ : Type} (domain : α → Prop) (encode : α → List σ) : Prop :=
  ∀ first second rest other, domain first → domain second → encode first ++ rest = encode second ++ other →
    first = second ∧ rest = other

section

variable {α σ : Type} {domain : α → Prop} {encode : α → List σ}

theorem PrefixFree.injective (free : PrefixFree domain encode) {first second : α} (atFirst : domain first) (atSecond : domain second)
    (same : encode first = encode second) : first = second :=
  (free first second [] [] atFirst atSecond (by rw [same])).1

theorem prefixFree_of_length (size : Nat) (length : ∀ value, domain value → (encode value).length = size)
    (injective : ∀ first second, domain first → domain second → encode first = encode second → first = second) :
    PrefixFree domain encode := by
  intro first second rest other atFirst atSecond same
  have lengths : (encode first).length = (encode second).length := (length first atFirst).trans (length second atSecond).symm
  obtain ⟨word, rests⟩ := List.append_inj same lengths
  exact ⟨injective first second atFirst atSecond word, rests⟩

theorem PrefixFree.flatMap (free : PrefixFree domain encode) {first second : List α} (length : first.length = second.length)
    {rest other : List σ} (atFirst : ∀ value ∈ first, domain value) (atSecond : ∀ value ∈ second, domain value)
    (same : first.flatMap encode ++ rest = second.flatMap encode ++ other) : first = second ∧ rest = other := by
  induction first generalizing second with
  | nil =>
    obtain rfl := List.length_eq_zero_iff.1 length.symm
    exact ⟨rfl, same⟩
  | cons value values ih =>
    cases second with
    | nil => cases length
    | cons value' values' =>
      rw [List.flatMap_cons, List.flatMap_cons, List.append_assoc, List.append_assoc] at same
      obtain ⟨rfl, remaining⟩ := free _ _ _ _ (atFirst value List.mem_cons_self) (atSecond value' List.mem_cons_self) same
      obtain ⟨rfl, rests⟩ := ih (Nat.succ.inj length) (fun entry member => atFirst entry (List.mem_cons_of_mem value member))
        (fun entry member => atSecond entry (List.mem_cons_of_mem value member)) remaining
      exact ⟨rfl, rests⟩

/-- A tag and, behind one of its two values, a word. -/
def optional (absent present : σ) (encode : α → List σ) : Option α → List σ
  | none => [absent]
  | some value => present :: encode value

theorem PrefixFree.optional {absent present : σ} (apart : absent ≠ present) (free : PrefixFree domain encode) :
    PrefixFree (fun value : Option α => ∀ inner ∈ value, domain inner) (optional absent present encode) := by
  intro first second rest other atFirst atSecond same
  cases first with
  | none =>
    cases second with
    | none => exact ⟨rfl, List.tail_eq_of_cons_eq same⟩
    | some inner => exact absurd (List.head_eq_of_cons_eq same) apart
  | some inner =>
    cases second with
    | none => exact absurd (List.head_eq_of_cons_eq same).symm apart
    | some inner' =>
      obtain ⟨rfl, rests⟩ := free _ _ _ _ (atFirst inner rfl) (atSecond inner' rfl) (List.tail_eq_of_cons_eq same)
      exact ⟨rfl, rests⟩

end

def bigEndian (value : UInt64) : List UInt8 :=
  [(value >>> 56).toUInt8, (value >>> 48).toUInt8, (value >>> 40).toUInt8, (value >>> 32).toUInt8, (value >>> 24).toUInt8,
    (value >>> 16).toUInt8, (value >>> 8).toUInt8, value.toUInt8]

theorem bigEndian_injective {first second : UInt64} (same : bigEndian first = bigEndian second) : first = second := by
  simp only [bigEndian, List.cons.injEq, ← UInt8.toNat_inj, UInt64.toNat_toUInt8, UInt64.toNat_shiftRight, and_true] at same
  obtain ⟨b7, b6, b5, b4, b3, b2, b1, b0⟩ := same
  have below := first.toNat_lt
  have below' := second.toNat_lt
  rw [← UInt64.toNat_inj]
  simp only [UInt64.reduceToNat, Nat.reduceMod, Nat.shiftRight_eq_div_pow, Nat.reducePow] at *
  omega

theorem bigEndian_prefixFree : PrefixFree (fun _ => True) bigEndian :=
  prefixFree_of_length 8 (fun _ _ => rfl) fun _ _ _ _ => bigEndian_injective

def ofBigEndian (bytes : List UInt8) : Nat := bytes.foldl (fun value byte => value * 256 + byte.toNat) 0

theorem ofBigEndian_bigEndian (value : UInt64) : ofBigEndian (bigEndian value) = value.toNat := by
  have below := value.toNat_lt
  simp only [ofBigEndian, bigEndian, List.foldl_cons, List.foldl_nil, UInt64.toNat_toUInt8, UInt64.toNat_shiftRight, UInt64.reduceToNat,
    Nat.reduceMod, Nat.shiftRight_eq_div_pow, Nat.reducePow]
  omega

theorem bigEndian_ofBigEndian {bytes : List UInt8} (length : bytes.length = 8) : bigEndian (.ofNat (ofBigEndian bytes)) = bytes := by
  obtain ⟨b7, b6, b5, b4, b3, b2, b1, b0, rfl⟩ : ∃ b7 b6 b5 b4 b3 b2 b1 b0, bytes = [b7, b6, b5, b4, b3, b2, b1, b0] := by
    match bytes, length with
    | [b7, b6, b5, b4, b3, b2, b1, b0], _ => exact ⟨b7, b6, b5, b4, b3, b2, b1, b0, rfl⟩
  have below7 := b7.toNat_lt
  have below6 := b6.toNat_lt
  have below5 := b5.toNat_lt
  have below4 := b4.toNat_lt
  have below3 := b3.toNat_lt
  have below2 := b2.toNat_lt
  have below1 := b1.toNat_lt
  have below0 := b0.toNat_lt
  simp only [ofBigEndian, bigEndian, List.foldl_cons, List.foldl_nil, List.cons.injEq, ← UInt8.toNat_inj, UInt64.toNat_toUInt8,
    UInt64.toNat_shiftRight, UInt64.toNat_ofNat', UInt64.reduceToNat, Nat.reduceMod, Nat.shiftRight_eq_div_pow, Nat.reducePow, and_true]
  omega

end PrefixCode
