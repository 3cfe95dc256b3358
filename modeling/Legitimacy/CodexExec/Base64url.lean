import Legitimacy.CodexExec.TextScan

namespace Legitimacy.CodexExec

def base64urlAlphabet : List Char := "ABCDEFGHIJKLMNOPQRSTUVWXYZabcdefghijklmnopqrstuvwxyz0123456789-_".toList

def base64urlDigit (value : Nat) : UInt8 := (base64urlAlphabet.getD value '=').toUInt8

def encodeBase64url : List UInt8 → List UInt8
  | first :: second :: third :: rest =>
    let group := first.toNat * 65536 + second.toNat * 256 + third.toNat
    base64urlDigit (group / 262144) :: base64urlDigit (group / 4096 % 64) :: base64urlDigit (group / 64 % 64) :: base64urlDigit (group % 64) ::
      encodeBase64url rest
  | [first, second] =>
    let group := (first.toNat * 256 + second.toNat) * 4
    [base64urlDigit (group / 4096), base64urlDigit (group / 64 % 64), base64urlDigit (group % 64)]
  | [first] => [base64urlDigit (first.toNat * 16 / 64), base64urlDigit (first.toNat * 16 % 64)]
  | [] => []

theorem base64urlValue_digit : ∀ value < 64, base64urlValue (base64urlDigit value) = some (.ofNat value) := by decide +kernel

theorem base64urlValue_eq_some {byte value : UInt8} (read : base64urlValue byte = some value) :
    ∃ sextet < 64, value = .ofNat sextet ∧ byte = base64urlDigit sextet := by
  have table : ∀ code < 256, (base64urlValue (.ofNat code)).all fun value => value.toNat < 64 ∧ .ofNat code = base64urlDigit value.toNat := by
    decide +kernel
  have listed := table byte.toNat byte.toNat_lt
  rw [UInt8.ofNat_toNat, read, Option.all_some, decide_eq_true_eq] at listed
  exact ⟨value.toNat, listed.1, UInt8.ofNat_toNat.symm, listed.2⟩

theorem toNat_or_of_lt {high low : UInt8} (places : Nat) (below : low.toNat < 2 ^ places) (even : high.toNat % 2 ^ places = 0) :
    (high ||| low).toNat = high.toNat + low.toNat := by
  obtain ⟨quotient, same⟩ := Nat.dvd_of_mod_eq_zero even
  rw [UInt8.toNat_or, same, Nat.two_pow_add_eq_or_of_lt below]

theorem joins_first : ∀ first < 64, ∀ second < 64, UInt8.ofNat first <<< 2 ||| UInt8.ofNat second >>> 4 = .ofNat (first * 4 + second / 16) := by
  intro first small second bound
  refine UInt8.toNat_inj.1 ((toNat_or_of_lt 2 ?_ ?_).trans ?_) <;>
    simp [UInt8.toNat_shiftLeft, UInt8.toNat_shiftRight, Nat.shiftLeft_eq, Nat.shiftRight_eq_div_pow] <;> omega

theorem joins_second : ∀ second < 64, ∀ third < 64,
    UInt8.ofNat second <<< 4 ||| UInt8.ofNat third >>> 2 = .ofNat (second % 16 * 16 + third / 4) := by
  intro second small third bound
  refine UInt8.toNat_inj.1 ((toNat_or_of_lt 4 ?_ ?_).trans ?_) <;>
    simp [UInt8.toNat_shiftLeft, UInt8.toNat_shiftRight, Nat.shiftLeft_eq, Nat.shiftRight_eq_div_pow] <;> omega

theorem joins_third : ∀ third < 64, ∀ fourth < 64, UInt8.ofNat third <<< 6 ||| UInt8.ofNat fourth = .ofNat (third % 4 * 64 + fourth) := by
  intro third small fourth bound
  refine UInt8.toNat_inj.1 ((toNat_or_of_lt 6 ?_ ?_).trans ?_) <;>
    simp [UInt8.toNat_shiftLeft, Nat.shiftLeft_eq] <;> omega

theorem trailing_four : ∀ second < 64, UInt8.ofNat second &&& 0x0f = 0 ↔ second % 16 = 0 := by decide +kernel

theorem trailing_two : ∀ third < 64, UInt8.ofNat third &&& 0x03 = 0 ↔ third % 4 = 0 := by decide +kernel

theorem decodeBase64urlUnpadded_encode (bytes : List UInt8) : decodeBase64urlUnpadded (encodeBase64url bytes) = some bytes := by
  fun_induction encodeBase64url bytes with
  | case1 first second third rest group ih =>
    have bounds := And.intro first.toNat_lt (And.intro second.toNat_lt third.toNat_lt)
    have atFirst : group / 262144 * 4 + group / 4096 % 64 / 16 = first.toNat := by omega
    have atSecond : group / 4096 % 64 % 16 * 16 + group / 64 % 64 / 4 = second.toNat := by omega
    have atThird : group / 64 % 64 % 4 * 64 + group % 64 = third.toNat := by omega
    simp (disch := omega) only [decodeBase64urlUnpadded, base64urlValue_digit, Option.bind_eq_bind, Option.bind_some, ih, joins_first, joins_second,
      joins_third, atFirst, atSecond, atThird, UInt8.ofNat_toNat, List.cons_append, List.nil_append]
  | case2 first second group =>
    have bounds := And.intro first.toNat_lt second.toNat_lt
    have atFirst : group / 4096 * 4 + group / 64 % 64 / 16 = first.toNat := by omega
    have atSecond : group / 64 % 64 % 16 * 16 + group % 64 / 4 = second.toNat := by omega
    have filled : UInt8.ofNat (group % 64) &&& 0x03 = 0 := (trailing_two _ (by omega)).2 (by omega)
    simp (disch := omega) only [decodeBase64urlUnpadded, base64urlValue_digit, Option.bind_eq_bind, Option.bind_some, joins_first, joins_second,
      atFirst, atSecond, UInt8.ofNat_toNat, filled, bne_self_eq_false, Bool.false_eq_true, if_false]
  | case3 first =>
    have bound := first.toNat_lt
    have atFirst : first.toNat * 16 / 64 * 4 + first.toNat * 16 % 64 / 16 = first.toNat := by omega
    have filled : UInt8.ofNat (first.toNat * 16 % 64) &&& 0x0f = 0 := (trailing_four _ (by omega)).2 (by omega)
    simp (disch := omega) only [decodeBase64urlUnpadded, base64urlValue_digit, Option.bind_eq_bind, Option.bind_some, joins_first, atFirst,
      UInt8.ofNat_toNat, filled, bne_self_eq_false, Bool.false_eq_true, if_false]
  | case4 => rfl

theorem encode_of_decodeBase64urlUnpadded {segment bytes : List UInt8} (decodes : decodeBase64urlUnpadded segment = some bytes) :
    segment = encodeBase64url bytes := by
  fun_induction decodeBase64urlUnpadded segment generalizing bytes with
  | case1 => exact (Option.some.inj decodes) ▸ rfl
  | case2 => cases decodes
  | case3 first second =>
    simp only [Option.bind_eq_bind, Option.bind_eq_some_iff] at decodes
    obtain ⟨_, atFirst, _, atSecond, decodes⟩ := decodes
    obtain ⟨a, _, rfl, rfl⟩ := base64urlValue_eq_some atFirst
    obtain ⟨b, small, rfl, rfl⟩ := base64urlValue_eq_some atSecond
    split at decodes
    · cases decodes
    · next filled =>
      have none := (trailing_four b small).1 (by simpa using filled)
      obtain rfl := Option.some.inj decodes
      simp (disch := omega) only [joins_first, encodeBase64url, UInt8.toNat_ofNat', List.cons.injEq, and_true]
      refine ⟨?_, ?_⟩ <;> refine congrArg base64urlDigit ?_ <;> omega
  | case4 first second third =>
    simp only [Option.bind_eq_bind, Option.bind_eq_some_iff] at decodes
    obtain ⟨_, atFirst, _, atSecond, _, atThird, decodes⟩ := decodes
    obtain ⟨a, _, rfl, rfl⟩ := base64urlValue_eq_some atFirst
    obtain ⟨b, _, rfl, rfl⟩ := base64urlValue_eq_some atSecond
    obtain ⟨c, small, rfl, rfl⟩ := base64urlValue_eq_some atThird
    split at decodes
    · cases decodes
    · next filled =>
      have none := (trailing_two c small).1 (by simpa using filled)
      obtain rfl := Option.some.inj decodes
      simp (disch := omega) only [joins_first, joins_second, encodeBase64url, UInt8.toNat_ofNat', List.cons.injEq, and_true]
      refine ⟨?_, ?_, ?_⟩ <;> refine congrArg base64urlDigit ?_ <;> omega
  | case5 first second third fourth rest ih =>
    simp only [Option.bind_eq_bind, Option.bind_eq_some_iff, Option.some.injEq] at decodes
    obtain ⟨_, atFirst, _, atSecond, _, atThird, _, atFourth, more, behind, rfl⟩ := decodes
    obtain ⟨a, _, rfl, rfl⟩ := base64urlValue_eq_some atFirst
    obtain ⟨b, _, rfl, rfl⟩ := base64urlValue_eq_some atSecond
    obtain ⟨c, _, rfl, rfl⟩ := base64urlValue_eq_some atThird
    obtain ⟨d, _, rfl, rfl⟩ := base64urlValue_eq_some atFourth
    simp (disch := omega) only [joins_first, joins_second, joins_third, List.cons_append, List.nil_append, encodeBase64url, UInt8.toNat_ofNat', ← ih behind, List.cons.injEq, and_true]
    refine ⟨?_, ?_, ?_, ?_⟩ <;> refine congrArg base64urlDigit ?_ <;> omega

theorem encodeBase64url_length (bytes : List UInt8) : (encodeBase64url bytes).length % 4 ≠ 1 := by
  fun_induction encodeBase64url bytes with
  | case1 first second third rest group ih =>
    simp only [List.length_cons]
    omega
  | case2 => exact (by decide : 3 % 4 ≠ 1)
  | case3 => exact (by decide : 2 % 4 ≠ 1)
  | case4 => exact (by decide : 0 % 4 ≠ 1)

theorem decodeBase64urlUnpadded_append {front rest : List UInt8} (whole : front.length % 4 = 0) (refused : decodeBase64urlUnpadded rest = none) :
    decodeBase64urlUnpadded (front ++ rest) = none := by
  fun_induction decodeBase64urlUnpadded front with
  | case1 => exact refused
  | case2 => exact absurd whole (by decide : 1 % 4 ≠ 0)
  | case3 => exact absurd whole (by decide : 2 % 4 ≠ 0)
  | case4 => exact absurd whole (by decide : 3 % 4 ≠ 0)
  | case5 first second third fourth more ih =>
    simp only [List.length_cons] at whole
    simp [decodeBase64urlUnpadded, ih (by omega)]

/-- The texts that are read are those that are written, one for every list of bytes; a single last digit is refused, and so are digits that
the last byte leaves bits of. -/
theorem decodeBase64urlUnpadded_canonical (segment : List UInt8) :
    (∀ bytes, decodeBase64urlUnpadded segment = some bytes ↔ segment = encodeBase64url bytes) ∧
    (∀ bytes, decodeBase64urlUnpadded (encodeBase64url bytes) = some bytes) ∧
    (segment.length % 4 = 1 → decodeBase64urlUnpadded segment = none) ∧
    ∀ front first second, front.length % 4 = 0 →
      ((∃ value ∈ base64urlValue second, value &&& 0x0f ≠ 0) → decodeBase64urlUnpadded (front ++ [first, second]) = none) ∧
      ∀ third, (∃ value ∈ base64urlValue third, value &&& 0x03 ≠ 0) → decodeBase64urlUnpadded (front ++ [first, second, third]) = none := by
  refine ⟨fun bytes => ⟨encode_of_decodeBase64urlUnpadded, ?_⟩, decodeBase64urlUnpadded_encode, fun single => ?_, fun front first second whole => ?_⟩
  · rintro rfl
    exact decodeBase64urlUnpadded_encode bytes
  · refine Option.eq_none_iff_forall_ne_some.2 fun bytes decodes => ?_
    rw [encode_of_decodeBase64urlUnpadded decodes] at single
    exact encodeBase64url_length bytes single
  · refine ⟨?_, fun third => ?_⟩
    · rintro ⟨value, read, left⟩
      refine decodeBase64urlUnpadded_append whole ?_
      simp [decodeBase64urlUnpadded, Option.mem_def.1 read, left]
    · rintro ⟨value, read, left⟩
      refine decodeBase64urlUnpadded_append whole ?_
      simp [decodeBase64urlUnpadded, Option.mem_def.1 read, left]

end Legitimacy.CodexExec
