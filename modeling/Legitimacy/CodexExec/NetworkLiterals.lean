import Legitimacy.CodexExec.TextScan

namespace Legitimacy.CodexExec

open Trajectory Ipv6

section

theorem mem_splitOnP {α : Type} {separates : α → Bool} {before middle after : List α} (inside : ∀ entry ∈ middle, separates entry = false)
    (left : ∀ entry ∈ before.getLast?, separates entry) (right : ∀ entry ∈ after.head?, separates entry) :
    middle ∈ (before ++ (middle ++ after)).splitOnP separates := by
  have first : middle ∈ (middle ++ after).splitOnP separates := by
    cases after with
    | nil =>
      rw [List.append_nil, List.splitOnP_eq_singleton inside]
      exact List.mem_singleton_self middle
    | cons entry rest =>
      rw [List.splitOnP_append_cons_of_forall_mem inside entry (right entry rfl)]
      exact List.mem_cons_self
  rcases List.eq_nil_or_concat before with rfl | ⟨front, last, rfl⟩
  · exact first
  · rw [List.concat_eq_append] at left ⊢
    rw [List.append_assoc, List.singleton_append, List.splitOnP_append_cons _ _ (left last (by simp))]
    exact List.mem_append_right _ first

theorem address_char {character : Char} (plain : isAddressChar character) : isIpv6TokenChar character ∧ isBracket character = false := by
  refine ⟨?_, ?_⟩
  · rw [isIpv6TokenChar]
    rw [isAddressChar] at plain
    simp only [plain, Bool.true_or]
  · by_contra bracket
    rw [Bool.not_eq_false, isBracket, Bool.or_eq_true, beq_iff_eq, beq_iff_eq] at bracket
    rcases bracket with rfl | rfl
    · exact absurd plain (by decide)
    · exact absurd plain (by decide)

theorem dropWhile_brackets {opening rest : List Char} (brackets : ∀ character ∈ opening, isBracket character)
    (bare : ∀ character ∈ rest.head?, isBracket character = false) : (opening ++ rest).dropWhile isBracket = rest := by
  rw [List.dropWhile_append_of_pos brackets]
  cases rest with
  | nil => rfl
  | cons character more => rw [List.dropWhile_cons, bare character rfl]; rfl

theorem trimBrackets_eq {opening literal closing : List Char} (brackets : ∀ character ∈ opening ++ closing, isBracket character)
    (bare : ∀ character ∈ literal, isBracket character = false) (some : literal ≠ []) :
    trimBrackets (opening ++ (literal ++ closing)) = literal := by
  obtain ⟨opened, closed⟩ := List.forall_mem_append.1 brackets
  have front : (opening ++ (literal ++ closing)).dropWhile isBracket = literal ++ closing := by
    refine dropWhile_brackets opened fun character member => ?_
    rw [List.head?_append_of_ne_nil _ some] at member
    exact bare character (List.mem_of_head? member)
  have back : (closing.reverse ++ literal.reverse).dropWhile isBracket = literal.reverse := by
    refine dropWhile_brackets (fun character member => closed character (List.mem_reverse.1 member)) fun character member => ?_
    exact bare character (List.mem_reverse.1 (List.mem_of_head? member))
  rw [trimBrackets, front, List.reverse_append, back, List.reverse_reverse]

/-- An IPv6 address, bare or in brackets, between characters that neither addresses nor brackets have. -/
def HoldsAddress (text : List Char) : Prop :=
  ∃ before opening literal closing after, text = before ++ (opening ++ (literal ++ closing) ++ after) ∧ isIpv6Addr literal ∧
    (∀ character ∈ opening ++ closing, isBracket character) ∧ (∀ character ∈ before.getLast?, isIpv6TokenChar character = false) ∧
    ∀ character ∈ after.head?, isIpv6TokenChar character = false

theorem containsIpv6Like_of_holds {text : List Char} (holds : HoldsAddress text) : containsIpv6Like text := by
  obtain ⟨before, opening, literal, closing, after, rfl, address, brackets, left, right⟩ := holds
  obtain ⟨plain, colon⟩ := isIpv6Addr_plain address
  have token : ∀ character ∈ opening ++ (literal ++ closing), (!isIpv6TokenChar character) = false := by
    intro character member
    rw [Bool.not_eq_false']
    have bracket (isOne : isBracket character) : isIpv6TokenChar character := by rw [isIpv6TokenChar, isOne, Bool.or_true]
    simp only [List.mem_append] at member brackets
    rcases member with opened | inside | closed
    · exact bracket (brackets character (.inl opened))
    · exact (address_char (plain character inside)).1
    · exact bracket (brackets character (.inr closed))
  have listed := mem_splitOnP token (fun character member => by rw [left character member]; rfl)
    (fun character member => by rw [right character member]; rfl)
  rw [containsIpv6Like, List.any_eq_true]
  refine ⟨_, List.mem_filter.2 ⟨listed, ?_⟩, ?_⟩
  · rw [List.contains_iff_mem]
    exact List.mem_append_right _ (List.mem_append_left _ colon)
  · rw [trimBrackets_eq brackets (fun character member => (address_char (plain character member)).2) (List.ne_nil_of_mem colon)]
    exact address

end

section

/-- One to three digits of a number up to 255. -/
structure IsOctet (part : List UInt8) : Prop where
  digits : ∀ byte ∈ part, isAsciiDigit byte
  octet : isOctet part

theorem IsOctet.of_all {part : List UInt8} (digits : part.all isAsciiDigit = true) (octet : isOctet part) : IsOctet part :=
  ⟨List.all_eq_true.1 digits, octet⟩

def IsQuad (quad : List UInt8) : Prop :=
  ∃ first second third fourth, quad = first ++ 0x2E :: (second ++ 0x2E :: (third ++ 0x2E :: fourth)) ∧ IsOctet first ∧ IsOctet second ∧
    IsOctet third ∧ IsOctet fourth

/-- A dotted quad between bytes such as these. -/
def HoldsQuad (delimits : UInt8 → Bool) (bytes : List UInt8) : Prop :=
  ∃ before quad after, bytes = before ++ (quad ++ after) ∧ IsQuad quad ∧ (∀ byte ∈ before.getLast?, delimits byte) ∧
    ∀ byte ∈ after.head?, delimits byte

theorem digit_ne_point {part : List UInt8} (octet : IsOctet part) : 0x2E ∉ part := by
  intro member
  exact absurd (octet.digits _ member) (by decide)

theorem IsQuad.bytes {quad : List UInt8} (isQuad : IsQuad quad) : ∀ byte ∈ quad, isQuadByte byte := by
  obtain ⟨first, second, third, fourth, rfl, atFirst, atSecond, atThird, atFourth⟩ := isQuad
  have digits {part : List UInt8} (octet : IsOctet part) : ∀ byte ∈ part, isQuadByte byte := by
    intro byte member
    rw [isQuadByte, octet.digits byte member, Bool.true_or]
  have point : isQuadByte 0x2E := by decide
  simp only [List.forall_mem_append, List.forall_mem_cons]
  exact ⟨digits atFirst, point, digits atSecond, point, digits atThird, point, digits atFourth⟩

theorem IsQuad.dotted {quad : List UInt8} (isQuad : IsQuad quad) : isDottedQuad quad := by
  obtain ⟨first, second, third, fourth, rfl, atFirst, atSecond, atThird, atFourth⟩ := isQuad
  have parts : (first ++ 0x2E :: (second ++ 0x2E :: (third ++ 0x2E :: fourth))).splitOn 0x2E = [first, second, third, fourth] := by
    rw [List.splitOn_append_cons_self_of_not_mem (digit_ne_point atFirst), List.splitOn_append_cons_self_of_not_mem (digit_ne_point atSecond),
      List.splitOn_append_cons_self_of_not_mem (digit_ne_point atThird), List.splitOn_eq_singleton (digit_ne_point atFourth)]
  have points : (first ++ 0x2E :: (second ++ 0x2E :: (third ++ 0x2E :: fourth))).count 0x2E = 3 := by
    simp [List.count_append, List.count_eq_zero.2 (digit_ne_point atFirst), List.count_eq_zero.2 (digit_ne_point atSecond),
      List.count_eq_zero.2 (digit_ne_point atThird), List.count_eq_zero.2 (digit_ne_point atFourth)]
  simp [isDottedQuad, parts, points, atFirst.octet, atSecond.octet, atThird.octet, atFourth.octet]

theorem IsQuad.starts {quad : List UInt8} (isQuad : IsQuad quad) : ∃ digit rest, quad = digit :: rest ∧ isAsciiDigit digit := by
  obtain ⟨first, second, third, fourth, rfl, atFirst, -⟩ := isQuad
  cases first with
  | nil => exact absurd atFirst.octet (by decide)
  | cons digit rest => exact ⟨digit, _, rfl, atFirst.digits digit List.mem_cons_self⟩

theorem version_of_quadByte {byte : UInt8} (inQuad : isQuadByte byte) : isVersionTokenByte byte := by
  rw [isQuadByte, Bool.or_eq_true, beq_iff_eq] at inQuad
  rcases inQuad with digit | rfl
  · rw [isVersionTokenByte, isAsciiAlphanumeric, digit, Bool.or_true, Bool.true_or]
  · decide

theorem length_takeWhile_le {α : Type} {holds : α → Bool} {last : α} (other : holds last = false) (front rest : List α) :
    ((front ++ last :: rest).takeWhile holds).length ≤ front.length := by
  induction front with
  | nil => rw [List.nil_append, List.takeWhile_cons, other]; exact Nat.le_refl 0
  | cons entry more ih =>
    rw [List.cons_append, List.takeWhile_cons]
    split
    · exact Nat.succ_le_succ ih
    · exact Nat.zero_le _

section

variable {before quad after : List UInt8} (left : ∀ byte ∈ before.getLast?, isVersionTokenByte byte = false)

include left

theorem ipv4Loop_here (isQuad : IsQuad quad) (right : ∀ byte ∈ after.head?, isVersionTokenByte byte = false) (rounds : Nat) :
    ipv4Loop (before ++ (quad ++ after)) (rounds + 1) before.length := by
  obtain ⟨digit, rest, starts, isDigit⟩ := isQuad.starts
  have here : (before ++ (quad ++ after))[before.length]? = some digit := by
    rw [List.getElem?_append_right (Nat.le_refl _), Nat.sub_self, starts]
    rfl
  have token : ((before ++ (quad ++ after)).drop before.length).takeWhile isQuadByte = quad := by
    rw [List.drop_left, List.takeWhile_append_of_pos isQuad.bytes]
    cases after with
    | nil => rw [List.takeWhile_nil, List.append_nil]
    | cons byte more =>
      have other : isQuadByte byte = false := by
        by_contra inQuad
        rw [Bool.not_eq_false] at inQuad
        exact absurd (version_of_quadByte inQuad) (by rw [right byte rfl]; decide)
      rw [List.takeWhile_cons, other]
      exact List.append_nil quad
  have leftBound : (before.length == 0 || !((before ++ (quad ++ after))[before.length - 1]?.any isVersionTokenByte)) = true := by
    rcases List.eq_nil_or_concat before with rfl | ⟨front, last, rfl⟩
    · rfl
    · rw [List.concat_eq_append] at left ⊢
      have place : (front ++ [last] ++ (quad ++ after))[(front ++ [last]).length - 1]? = some last := by simp
      rw [place, Option.any_some, left last (by simp), Bool.not_false, Bool.or_true]
  have rightBound : (!((before ++ (quad ++ after))[before.length + quad.length]?.any isVersionTokenByte)) = true := by
    have place : (before ++ (quad ++ after))[before.length + quad.length]? = after.head? := by
      rw [← List.append_assoc, List.getElem?_append_right (by rw [List.length_append]), List.length_append, Nat.sub_self,
        List.head?_eq_getElem?]
    rw [place]
    cases after with
    | nil => rfl
    | cons byte more => rw [List.head?_cons, Option.any_some, right byte rfl, Bool.not_false]
  rw [ipv4Loop, here]
  simp only [isDigit, token, leftBound, rightBound, isQuad.dotted]
  rfl

/-- The loop comes to a quad that no version token holds, unless it finds one before. -/
theorem ipv4Loop_finds (isQuad : IsQuad quad) (right : ∀ byte ∈ after.head?, isVersionTokenByte byte = false) {rounds start : Nat}
    (toGo : before.length < start + rounds) (notPast : start ≤ before.length) : ipv4Loop (before ++ (quad ++ after)) rounds start := by
  induction rounds generalizing start with
  | zero => omega
  | succ rounds ih =>
    by_cases atQuad : start = before.length
    · subst atQuad
      exact ipv4Loop_here left isQuad right rounds
    have inside : start < before.length := by omega
    rw [ipv4Loop, List.getElem?_append_left inside, List.getElem?_eq_getElem inside]
    dsimp only
    split
    · exact ih (by omega) (by omega)
    split
    · rfl
    · have run : (((before ++ (quad ++ after)).drop start).takeWhile isQuadByte).length ≤ before.length - start := by
        rw [List.drop_append_of_le_length notPast]
        rcases List.eq_nil_or_concat (before.drop start) with empty | ⟨front, last, ends⟩
        · rw [List.drop_eq_nil_iff] at empty
          omega
        · have isLast : last ∈ before.getLast? := by
            have whole := congrArg List.getLast? (List.take_append_drop start before)
            rw [ends, List.concat_eq_append, ← List.append_assoc, List.getLast?_concat] at whole
            exact whole.symm
          have other : isQuadByte last = false := by
            by_contra inQuad
            rw [Bool.not_eq_false] at inQuad
            exact absurd (version_of_quadByte inQuad) (by rw [left last isLast]; decide)
          have length := congrArg List.length ends
          rw [List.length_drop, List.concat_eq_append, List.length_append, List.length_singleton] at length
          rw [ends, List.concat_eq_append, List.append_assoc, List.singleton_append]
          exact Nat.le_trans (length_takeWhile_le other front _) (by omega)
      exact ih (by omega) (by omega)

end

theorem containsIpv4Like_of_holds {bytes : List UInt8} (holds : HoldsQuad (fun byte => !isVersionTokenByte byte) bytes) :
    containsIpv4Like bytes := by
  obtain ⟨before, quad, after, rfl, isQuad, left, right⟩ := holds
  obtain ⟨digit, rest, starts, -⟩ := isQuad.starts
  have some : 0 < quad.length := by rw [starts]; exact Nat.succ_pos _
  refine ipv4Loop_finds (fun byte member => ?_) isQuad (fun byte member => ?_) ?_ (Nat.zero_le _)
  · simpa using left byte member
  · simpa using right byte member
  · rw [List.length_append, List.length_append]
    omega

end

/-- A text that holds a network literal at token boundaries is rejected. -/
theorem scanTextValue_rejects_literals (reader : JsonReader) (text : String) (allowDerivedUuid : Bool)
    (holds : HoldsAddress text.toList ∨ HoldsQuad (fun byte => !isVersionTokenByte byte) (Utf8.bytes text)) :
    scanTextValue reader text allowDerivedUuid = .error (.new .sanitizerRejected) := by
  unfold scanTextValue
  refine if_pos ?_
  rcases holds with address | quad
  · simp only [containsIpv6Like_of_holds address, Bool.or_true, Bool.true_or]
  · simp only [containsIpv4Like_of_holds quad, Bool.or_true, Bool.true_or]

theorem scanTextValue_rejects_literals_bounded :
    scanTextValue ⟨Json.readText, fun _ _ => .invalid⟩ "at=[2001:db8::1]/24" false = .error (.new .sanitizerRejected) ∧
      scanTextValue ⟨Json.readText, fun _ _ => .invalid⟩ "at:10.0.0.1," false = .error (.new .sanitizerRejected) := by
  refine ⟨scanTextValue_rejects_literals _ _ _ (.inl ?_), scanTextValue_rejects_literals _ _ _ (.inr ?_)⟩
  · exact ⟨['a', 't', '='], ['['], "2001:db8::1".toList, [']'], ['/', '2', '4'], by decide, by decide, List.all_eq_true.1 (by decide),
      by rintro _ ⟨⟩; decide, by rintro _ ⟨⟩; decide⟩
  · exact ⟨asciiBytes "at:", asciiBytes "10.0.0.1", asciiBytes ",", by decide,
      ⟨asciiBytes "10", asciiBytes "0", asciiBytes "0", asciiBytes "1", by decide, .of_all (by decide) (by decide),
        .of_all (by decide) (by decide), .of_all (by decide) (by decide), .of_all (by decide) (by decide)⟩,
      by rintro _ ⟨⟩; decide, by rintro _ ⟨⟩; decide⟩

/-- A quad behind the hyphen of a version token is delimited from other digits, and passes. -/
theorem version_token_passes : HoldsQuad (fun byte => !isAsciiDigit byte) (Utf8.bytes "release-1.2.3.4") ∧
    scanTextValue ⟨Json.readText, fun _ _ => .invalid⟩ "release-1.2.3.4" false = .ok () := by
  refine ⟨⟨asciiBytes "release-", asciiBytes "1.2.3.4", [], by decide, ?_, by rintro _ ⟨⟩; decide, nofun⟩, by decide +kernel⟩
  exact ⟨asciiBytes "1", asciiBytes "2", asciiBytes "3", asciiBytes "4", by decide, .of_all (by decide) (by decide), .of_all (by decide) (by decide),
    .of_all (by decide) (by decide), .of_all (by decide) (by decide)⟩

end Legitimacy.CodexExec
