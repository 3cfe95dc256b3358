import Legitimacy.CodexExec.StreamValidation
import Legitimacy.Windows

namespace Legitimacy.CodexExec

open Windows ExceptRun

def publicScanChunkBytes : Nat := 8 * 1024

def publicScanMaxPatternBytes : Nat := 32

def publicScanOverlapBytes : Nat := publicScanMaxPatternBytes - 1

def asciiBytes (text : String) : List UInt8 := text.toList.map fun character => .ofNat character.toNat

def publicScanPatterns : List (List UInt8) := List.map asciiBytes
  ["bearer ", "api_key", "api-key", "apikey", "access_token", "refresh_token", "client_secret", "private_key", "password", "passwd", "secret=",
    "session=", "cookie=", "authorization:", "begin private key", "begin rsa private key", "aws_access_key_id", "aws_secret_access_key",
    "github_pat_", "ghp_", "xoxb-", "xoxp-", "?token=", "&token=", "/home/", "/users/", "user=", "account=", "account_id", "email=", "host=",
    "hostname=", "env=", "environment=", "\\home\\"]

def toAsciiLowercase (byte : UInt8) : UInt8 := if 0x41 ≤ byte ∧ byte ≤ 0x5A then byte + 0x20 else byte

def eqIgnoreAsciiCase (part pattern : List UInt8) : Bool := part.map toAsciiLowercase == pattern.map toAsciiLowercase

def containsPattern (surface : List UInt8) : Bool :=
  publicScanPatterns.any fun pattern => (windows pattern.length surface).any fun part => eqIgnoreAsciiCase part pattern

def isRejectedControl (byte : UInt8) : Bool := (decide (byte < 0x20) && byte != 0x0A) || byte == 0x7F

/-- The loop over the chunks; the carry is the end of what has been scanned, in lower case. -/
def scanChunks : List UInt8 → List (List UInt8) → Except AdapterError Unit
  | _, [] => .ok ()
  | carry, chunk :: rest =>
    if chunk.any isRejectedControl then .error (.new .sanitizerRejected)
    else
      let scanned := carry ++ chunk.map toAsciiLowercase
      if containsPattern scanned then .error (.new .sanitizerRejected)
      else scanChunks (lastOf publicScanOverlapBytes scanned) rest

def scanFixedPatternsAndControls (surface : List UInt8) : Except AdapterError Unit := scanChunks [] (chunks publicScanChunkBytes surface)

@[simp] theorem toAsciiLowercase_idem (byte : UInt8) : toAsciiLowercase (toAsciiLowercase byte) = toAsciiLowercase byte := by
  unfold toAsciiLowercase
  split
  case isTrue upper =>
    have lower : ¬(0x41 ≤ byte + 0x20 ∧ byte + 0x20 ≤ 0x5A) := by
      simp only [UInt8.le_iff_toNat_le, UInt8.toNat_add] at upper ⊢
      have low : (0x41 : UInt8).toNat = 65 := rfl
      have high : (0x5A : UInt8).toNat = 90 := rfl
      have shift : (0x20 : UInt8).toNat = 32 := rfl
      omega
    rw [if_neg lower]
  case isFalse => rfl

/-- What the scan looks for: a part that is one of the patterns but for the case of its letters. -/
def IsPattern (part : List UInt8) : Prop := ∃ pattern ∈ publicScanPatterns, eqIgnoreAsciiCase part pattern

theorem containsPattern_iff {surface : List UInt8} : containsPattern surface ↔ Found IsPattern surface := by
  simp only [containsPattern, List.any_eq_true, mem_windows]
  constructor
  · rintro ⟨pattern, listed, part, ⟨-, isPart⟩, same⟩
    exact ⟨part, isPart, pattern, listed, same⟩
  · rintro ⟨part, isPart, pattern, listed, same⟩
    have length := congrArg List.length (eq_of_beq same)
    rw [List.length_map, List.length_map] at length
    exact ⟨pattern, listed, part, ⟨length, isPart⟩, same⟩

theorem isPattern_lowercase {part : List UInt8} : IsPattern (part.map toAsciiLowercase) ↔ IsPattern part := by
  have same : toAsciiLowercase ∘ toAsciiLowercase = toAsciiLowercase := funext toAsciiLowercase_idem
  simp only [IsPattern, eqIgnoreAsciiCase, List.map_map, same]

theorem found_lowercase {surface : List UInt8} : Found IsPattern (surface.map toAsciiLowercase) ↔ Found IsPattern surface := by
  constructor
  · rintro ⟨part, ⟨before, after, whole⟩, isPattern⟩
    obtain ⟨front, last, rfl, isFront, rfl⟩ := List.append_eq_map_iff.1 whole
    obtain ⟨first, middle, rfl, rfl, rfl⟩ := List.map_eq_append_iff.1 isFront
    exact ⟨middle, ⟨first, last, rfl⟩, isPattern_lowercase.1 isPattern⟩
  · rintro ⟨part, isPart, isPattern⟩
    exact ⟨part.map toAsciiLowercase, isPart.map _, isPattern_lowercase.2 isPattern⟩

theorem IsPattern.short {part : List UInt8} (isPattern : IsPattern part) : part.length ≤ publicScanOverlapBytes + 1 := by
  obtain ⟨pattern, listed, same⟩ := isPattern
  have all : ∀ pattern ∈ publicScanPatterns, pattern.length ≤ publicScanOverlapBytes + 1 := by decide
  have length := congrArg List.length (eq_of_beq same)
  rw [List.length_map, List.length_map] at length
  exact length ▸ all pattern listed

theorem scanChunks_eq_ok {text : List UInt8} (clean : ¬Found IsPattern text) (pieces : List (List UInt8)) :
    scanChunks (lastOf publicScanOverlapBytes (text.map toAsciiLowercase)) pieces = .ok () ↔
      (∀ byte ∈ pieces.flatten, ¬isRejectedControl byte) ∧ ¬Found IsPattern (text ++ pieces.flatten) := by
  induction pieces generalizing text with
  | nil => exact iff_of_true rfl (by simpa using clean)
  | cons chunk rest ih =>
    have here : containsPattern (lastOf publicScanOverlapBytes (text.map toAsciiLowercase) ++ chunk.map toAsciiLowercase) ↔
        Found IsPattern (text ++ chunk) := by
      have overlapping := found_append (fun part => IsPattern.short) (text.map toAsciiLowercase) (chunk.map toAsciiLowercase)
      rw [← List.map_append, found_lowercase, found_lowercase, or_iff_right clean] at overlapping
      exact containsPattern_iff.trans overlapping.symm
    have carried : lastOf publicScanOverlapBytes (lastOf publicScanOverlapBytes (text.map toAsciiLowercase) ++ chunk.map toAsciiLowercase) =
        lastOf publicScanOverlapBytes ((text ++ chunk).map toAsciiLowercase) := by rw [lastOf_append, List.map_append]
    unfold scanChunks
    dsimp only
    rw [guard_eq_ok, guard_eq_ok, here, carried, List.flatten_cons, List.forall_mem_append, ← List.append_assoc, List.any_eq_true, not_exists]
    constructor
    · rintro ⟨allowed, absent, passed⟩
      obtain ⟨others, none⟩ := (ih absent).1 passed
      exact ⟨⟨fun byte member control => allowed byte ⟨member, control⟩, others⟩, none⟩
    · rintro ⟨⟨allowed, others⟩, none⟩
      have absent : ¬Found IsPattern (text ++ chunk) := fun found => none (found.mono List.infix_append_left)
      exact ⟨fun byte control => allowed byte control.1 control.2, absent, (ih absent).2 ⟨others, none⟩⟩

theorem scanChunks_error {carry : List UInt8} {pieces : List (List UInt8)} {failure : AdapterError}
    (failed : scanChunks carry pieces = .error failure) : failure = .new .sanitizerRejected := by
  induction pieces generalizing carry with
  | nil => cases failed
  | cons chunk rest ih =>
    unfold scanChunks at failed
    dsimp only at failed
    split at failed
    · exact (Except.error.inj failed).symm
    split at failed
    · exact (Except.error.inj failed).symm
    · exact ih failed

def PublicFinding (surface : List UInt8) : Prop := (∃ byte ∈ surface, isRejectedControl byte) ∨ Found IsPattern surface

theorem scanChunks_outcome (pieces : List (List UInt8)) : (PublicFinding pieces.flatten ∧ scanChunks [] pieces = .error (.new .sanitizerRejected)) ∨
    (¬PublicFinding pieces.flatten ∧ scanChunks [] pieces = .ok ()) := by
  have none : ¬Found IsPattern [] := by
    rw [← containsPattern_iff]
    decide +kernel
  have passes := scanChunks_eq_ok none pieces
  rw [List.map_nil, show lastOf publicScanOverlapBytes ([] : List UInt8) = [] from rfl, List.nil_append] at passes
  cases outcome : scanChunks [] pieces with
  | ok =>
    obtain ⟨allowed, absent⟩ := passes.1 outcome
    refine .inr ⟨?_, rfl⟩
    rintro (⟨byte, member, control⟩ | found)
    · exact allowed byte member control
    · exact absent found
  | error failure =>
    rw [scanChunks_error outcome]
    refine .inl ⟨?_, rfl⟩
    by_contra clean
    have passed := passes.2 ⟨fun byte member control => clean (.inl ⟨byte, member, control⟩), fun found => clean (.inr found)⟩
    rw [outcome] at passed
    cases passed

/-- However a surface is cut, the scan reports what it reports of the whole, and this is exactly a finding. -/
theorem scanFixedPatternsAndControls_whole (surface : List UInt8) (pieces : List (List UInt8)) :
    scanFixedPatternsAndControls surface = scanChunks [] [surface] ∧ scanChunks [] pieces = scanChunks [] [pieces.flatten] ∧
      (scanFixedPatternsAndControls surface = .error (.new .sanitizerRejected) ↔ PublicFinding surface) ∧
      (scanFixedPatternsAndControls surface = .ok () ↔ ¬PublicFinding surface) := by
  have cut : ∀ pieces : List (List UInt8), scanChunks [] pieces = scanChunks [] [pieces.flatten] := by
    intro pieces
    have whole := scanChunks_outcome [pieces.flatten]
    rw [List.flatten_singleton] at whole
    rcases scanChunks_outcome pieces with ⟨finding, outcome⟩ | ⟨clean, outcome⟩
    · rcases whole with ⟨-, same⟩ | ⟨clean, -⟩
      · rw [outcome, same]
      · exact absurd finding clean
    · rcases whole with ⟨finding, -⟩ | ⟨-, same⟩
      · exact absurd finding clean
      · rw [outcome, same]
  have flat := flatten_chunks (by decide : 0 < publicScanChunkBytes) surface
  have outcome := scanChunks_outcome (chunks publicScanChunkBytes surface)
  have same := cut (chunks publicScanChunkBytes surface)
  rw [flat] at outcome same
  refine ⟨same, cut pieces, ?_, ?_⟩
  · rcases outcome with ⟨finding, failed⟩ | ⟨clean, passed⟩
    · exact iff_of_true failed finding
    · exact iff_of_false (by rw [scanFixedPatternsAndControls, passed]; exact nofun) clean
  · rcases outcome with ⟨finding, failed⟩ | ⟨clean, passed⟩
    · exact iff_of_false (by rw [scanFixedPatternsAndControls, failed]; exact nofun) (not_not.2 finding)
    · exact iff_of_true passed clean

example : scanChunks [] [asciiBytes "the pass", asciiBytes "Word is"] = .error (.new .sanitizerRejected) := by decide

end Legitimacy.CodexExec
