import Legitimacy.JsonSize
import Legitimacy.Trajectory.Validation

namespace Legitimacy.Trajectory

open ExceptRun Json Serde

theorem stripPrefix_eq_some {literal value rest : String} : stripPrefix literal value = some rest ↔ value = literal ++ rest := by
  unfold stripPrefix
  rw [Option.ite_none_right_eq_some, List.isPrefixOf_iff_prefix, Option.some.injEq]
  constructor
  · rintro ⟨⟨tail, shape⟩, rfl⟩
    rw [← String.toList_inj, String.toList_append, String.toList_ofList, ← shape, ← String.length_toList, List.drop_left]
  · rintro rfl
    have front : literal.toList <+: (literal ++ rest).toList := by
      rw [String.toList_append]
      exact List.prefix_append _ _
    refine ⟨front, ?_⟩
    rw [String.toList_append, ← String.length_toList, List.drop_left, String.ofList_toList]

section

def isDigest (value : String) : Bool :=
  (stripPrefix "sha256:" value).any fun hex => hex.utf8ByteSize == 64 && (Utf8.bytes hex).all isHexByte

theorem isDigest_iff {value : String} : isDigest value = true ↔
    ∃ hex, value = "sha256:" ++ hex ∧ hex.utf8ByteSize = 64 ∧ (Utf8.bytes hex).all isHexByte = true := by
  rw [isDigest, Option.any_eq_true]
  constructor
  · rintro ⟨hex, stripped, both⟩
    obtain ⟨size, digits⟩ := Bool.and_eq_true_iff.1 both
    exact ⟨hex, stripPrefix_eq_some.1 stripped, beq_iff_eq.1 size, digits⟩
  · rintro ⟨hex, shape, size, digits⟩
    exact ⟨hex, stripPrefix_eq_some.2 shape, Bool.and_eq_true_iff.2 ⟨beq_iff_eq.2 size, digits⟩⟩

theorem validateDigest_eq_ok {name value : String} : validateDigest name value = .ok ⟨⟩ ↔ isDigest value = true := by
  rw [isDigest_iff]
  unfold validateDigest
  constructor
  · intro run
    split at run
    · cases run
    · rename_i hex stripped
      obtain ⟨shape, -⟩ := guard_eq_ok.1 run
      simp only [Bool.or_eq_true, decide_eq_true_eq, Bool.not_eq_true', not_or, ne_eq, not_not, Bool.not_eq_false] at shape
      exact ⟨hex, stripPrefix_eq_some.1 stripped, shape⟩
  · rintro ⟨hex, rfl, size, digits⟩
    rw [stripPrefix_eq_some.2 rfl]
    exact guard_eq_ok.2 ⟨by simp [size, digits], rfl⟩

theorem isHexByte_digit : ∀ nibble < 16, (String.utf8EncodeChar (Hex.digit nibble)).all isHexByte = true := by decide

theorem isHexByte_digits (bytes : List UInt8) : (Utf8.bytes (Hex.encode bytes)).all isHexByte = true := by
  rw [List.all_eq_true]
  intro byte member
  obtain ⟨character, inDigits, inside⟩ := List.mem_flatMap.1 member
  rw [Hex.toList_encode] at inDigits
  obtain ⟨nibble, below, rfl⟩ := Hex.mem_digits inDigits
  exact List.all_eq_true.1 (isHexByte_digit nibble below) byte inside

theorem isDigest_framedSha256 (sha256 : List UInt8 → Digest) (domain : String) (components : List (List UInt8)) :
    isDigest (framedSha256 sha256 domain components) = true :=
  isDigest_iff.2 ⟨_, rfl, by rw [Hex.utf8ByteSize_encode, Digest.length_eq], isHexByte_digits _⟩

end

section

def PlainText (text : String) : Prop := ∀ character ∈ text.toList, IsPlain character

instance (text : String) : Decidable (PlainText text) := List.decidableBAll _ text.toList

def isVisible (byte : UInt8) : Bool :=
  isLowerName byte || isUpper byte || byte == 46 || byte == 95 || byte == 58 || byte == 64 || byte == 47 || byte == 43 || byte == 45

theorem isPlain_of_visible : ∀ code < 256, isVisible (.ofNat code) = true → code < 128 ∧ IsPlain (.ofNat code) := by decide +kernel

theorem plainText_of_visible {text : String} (visible : ∀ byte ∈ Utf8.bytes text, isVisible byte = true) : PlainText text :=
  plain_of_bytes (List.all_eq_true.2 visible) isPlain_of_visible

theorem mem_of_allBytes {first later : UInt8 → Bool} {bytes : List UInt8} (all : allBytes first later bytes = true) {byte : UInt8}
    (member : byte ∈ bytes) : first byte = true ∨ later byte = true := by
  cases bytes with
  | nil => cases member
  | cons head rest =>
    obtain ⟨atHead, atRest⟩ := Bool.and_eq_true_iff.1 all
    rcases List.mem_cons.1 member with rfl | inRest
    · exact .inl atHead
    · exact .inr (List.all_eq_true.1 atRest byte inRest)

theorem isAsciiName_plain {value : String} (name : isAsciiName value = true) : value.utf8ByteSize ≤ 128 ∧ PlainText value := by
  simp only [isAsciiName, Bool.and_eq_true, decide_eq_true_eq] at name
  refine ⟨name.1.2, plainText_of_visible fun byte member => ?_⟩
  have either := mem_of_allBytes name.2 member
  simp only [isVisible, Bool.or_eq_true, beq_iff_eq] at *
  tauto

theorem isAsciiVersion_plain {value : String} (version : isAsciiVersion value = true) : value.utf8ByteSize ≤ 64 ∧ PlainText value := by
  simp only [isAsciiVersion, Bool.and_eq_true, decide_eq_true_eq] at version
  refine ⟨version.1.2, plainText_of_visible fun byte member => ?_⟩
  have either := List.all_eq_true.1 version.2 byte member
  simp only [isVisible, Bool.or_eq_true, beq_iff_eq] at *
  tauto

theorem isIdentifier_plain {value : String} (identifier : isIdentifier value = true) : value.utf8ByteSize ≤ 128 ∧ PlainText value := by
  simp only [isIdentifier, Bool.and_eq_true, decide_eq_true_eq] at identifier
  refine ⟨identifier.1.1.2, plainText_of_visible fun byte member => ?_⟩
  have either := mem_of_allBytes identifier.2 member
  simp only [isVisible, Bool.or_eq_true, beq_iff_eq] at *
  tauto

theorem isVisible_of_isHexByte {byte : UInt8} (hex : isHexByte byte = true) : isVisible byte = true := by
  simp only [isHexByte, isVisible, isLowerName, Bool.or_eq_true, Bool.and_eq_true, decide_eq_true_eq] at *
  have upper : byte ≤ 102 → byte ≤ 122 := fun below => UInt8.le_trans below (by decide)
  tauto

theorem isDigest_plain {value : String} (digest : isDigest value = true) : value.utf8ByteSize = 71 ∧ PlainText value := by
  obtain ⟨hex, rfl, size, digits⟩ := isDigest_iff.1 digest
  refine ⟨by rw [String.utf8ByteSize_append, size]; rfl, plainText_of_visible fun byte member => ?_⟩
  rw [Utf8.bytes_append, List.mem_append] at member
  rcases member with front | inHex
  · exact List.all_eq_true.1 (by decide : (Utf8.bytes "sha256:").all isVisible = true) byte front
  · exact isVisible_of_isHexByte (List.all_eq_true.1 digits byte inHex)

theorem PlainText.size {text : String} (plain : PlainText text) {floatText : Float → String} :
    textSize (compactChars floatText (.str text)) = text.utf8ByteSize + 2 := size_quoted_of_plain plain

end

section

theorem validateAsciiName_eq_ok {name value : String} : validateAsciiName name value = .ok ⟨⟩ ↔ isAsciiName value = true := by
  simp [validateAsciiName, invalid]

theorem validateAsciiVersion_eq_ok {name value : String} : validateAsciiVersion name value = .ok ⟨⟩ ↔ isAsciiVersion value = true := by
  simp [validateAsciiVersion, invalid]

theorem validateIdentifier_eq_ok {name value : String} : validateIdentifier name value = .ok ⟨⟩ ↔ isIdentifier value = true := by
  simp [validateIdentifier, invalid]

/-- A binding that validation accepts. -/
structure BindingValid (binding : ArtifactBinding) : Prop where
  identity : isAsciiName binding.identity = true
  version : isAsciiVersion binding.version = true
  hash : isDigest binding.hash = true

theorem validateBinding_eq_ok {name : String} {binding : ArtifactBinding} :
    validateBinding name binding = .ok ⟨⟩ ↔ BindingValid binding := by
  unfold validateBinding
  constructor
  · intro run
    obtain ⟨⟨⟩, identity, run⟩ := bind_eq_ok.1 run
    obtain ⟨⟨⟩, version, hash⟩ := bind_eq_ok.1 run
    exact ⟨validateAsciiName_eq_ok.1 identity, validateAsciiVersion_eq_ok.1 version, validateDigest_eq_ok.1 hash⟩
  · intro valid
    have identity : validateAsciiName s!"{name} identity" binding.identity = .ok ⟨⟩ := validateAsciiName_eq_ok.2 valid.identity
    have version : validateAsciiVersion s!"{name} version" binding.version = .ok ⟨⟩ := validateAsciiVersion_eq_ok.2 valid.version
    exact bind_eq_ok.2 ⟨_, identity, bind_eq_ok.2 ⟨_, version, validateDigest_eq_ok.2 valid.hash⟩⟩

end

section

variable {floatText : Float → String}

theorem isDigest_size {value : String} (digest : isDigest value = true) : textSize (compactChars floatText (.str value)) = 73 := by
  obtain ⟨size, plain⟩ := isDigest_plain digest
  rw [plain.size, size]

theorem size_u64_le (value : UInt64) : textSize (compactChars floatText (u64 value)) ≤ 20 :=
  size_nat_le (by decide) (Nat.lt_of_lt_of_le value.toNat_lt (by decide))

theorem identifier_size_le {value : String} (identifier : isIdentifier value = true) :
    textSize (compactChars floatText (.str value)) ≤ 130 := by
  obtain ⟨short, plain⟩ := isIdentifier_plain identifier
  rw [plain.size]
  omega

theorem bindingJson_size_le {binding : ArtifactBinding} (valid : BindingValid binding) :
    textSize (compactChars floatText (bindingJson binding)) ≤ 400 := by
  obtain ⟨shortIdentity, plainIdentity⟩ := isAsciiName_plain valid.identity
  obtain ⟨shortVersion, plainVersion⟩ := isAsciiVersion_plain valid.version
  have hash := @isDigest_size floatText _ valid.hash
  have bound := @size_struct_le floatText [("identity", .str binding.identity), ("version", .str binding.version),
    ("hash", .str binding.hash)] ["identity", "version", "hash"] rfl 33 (by decide)
  simp only [List.map_cons, List.map_nil, List.sum_cons, List.sum_nil, hash, plainIdentity.size, plainVersion.size] at bound
  rw [bindingJson]
  omega

theorem sealJson_size_le {capture : RawCaptureSeal} (digest : isDigest capture.digest = true) :
    textSize (compactChars floatText (sealJson capture)) ≤ 140 := by
  have bound := @size_struct_le floatText [("record_count", u64 capture.recordCount), ("digest", .str capture.digest)]
    ["record_count", "digest"] rfl 28 (by decide)
  have index := @size_u64_le floatText capture.recordCount
  have text := @isDigest_size floatText _ digest
  simp only [List.map_cons, List.map_nil, List.sum_cons, List.sum_nil, text] at bound
  rw [sealJson]
  omega

end

end Legitimacy.Trajectory
