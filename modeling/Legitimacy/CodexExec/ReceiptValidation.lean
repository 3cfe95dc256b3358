import Legitimacy.CodexExec.Framing
import Legitimacy.CodexExec.Receipt

namespace Legitimacy.CodexExec

open Trajectory ExceptRun

def maxAuthorityReceiptBytes : Nat := 2 * 1024 * 1024
def maxTrustedContextBytes : Nat := 64 * 1024
def maxArgvArguments : Nat := 32
def maxArgvArgumentBytes : Nat := 4 * 1024
def maxArgvTotalBytes : Nat := 32 * 1024
def maxCaptureManifestEntries : Nat := 256

def processCaptureArgv : List (List UInt8) :=
  ["codex", "exec", "--json", "--ephemeral", "--ignore-user-config", "--ignore-rules", "--skip-git-repo-check", "--sandbox", "read-only",
    "-"].map Utf8.bytes

def processCaptureExecutableSha256 : String := "sha256:901923c1808a151f6926d41d703c17ad48815662cefb1c8d832a052c44271429"
def processCaptureReleaseName : String := "codex-x86_64-unknown-linux-musl.tar.gz"
def processCaptureReleaseSha256 : String := "sha256:725883fc20ab4af3072829aaa0edf6d12c216238f9f7315a6656b950fb05c8bb"
def processCaptureSigstoreName : String := "codex-x86_64-unknown-linux-musl.sigstore"
def processCaptureSigstoreSha256 : String := "sha256:73ee5b4cb99abfce4d7a03faf7b410b5d7c869a24b856bf23a5be031e619b4cd"

def receiptShape : AdapterError := .new .receiptShape

section

def hexNibble (byte : UInt8) : Except AdapterError UInt8 :=
  if 48 ≤ byte ∧ byte ≤ 57 then .ok (byte - 48) else if 97 ≤ byte ∧ byte ≤ 102 then .ok (byte - 97 + 10) else .error receiptShape

def hexPairs : List UInt8 → Except AdapterError (List UInt8)
  | first :: second :: rest => do
    let high ← hexNibble first
    let low ← hexNibble second
    let others ← hexPairs rest
    .ok ((high <<< 4 ||| low) :: others)
  | _ => .ok []

def decodeLowerHex (value : String) : Except AdapterError (List UInt8) :=
  if value.utf8ByteSize % 2 ≠ 0 then .error receiptShape else hexPairs (Utf8.bytes value)

def standardSha256 (sha256 : List UInt8 → Digest) (bytes : List UInt8) : String := "sha256:" ++ Hex.encode (sha256 bytes).bytes

end

section

def validateName (value : String) : Except AdapterError Unit := if !isAsciiName value then .error receiptShape else .ok ⟨⟩

def validateSha256 (value : String) : Except AdapterError Unit := if !isDigest value then .error receiptShape else .ok ⟨⟩

def validateBinding (binding : ArtifactBinding) : Except AdapterError Unit := do
  validateName binding.identity
  if !isAsciiVersion binding.version then .error receiptShape else validateSha256 binding.hash

def validateNonce (value : String) (provenance : AssertedNonceSource) : Except AdapterError Unit :=
  if value.utf8ByteSize ≠ 64 ∨ !(Utf8.bytes value).all isHexByte ∨
      provenance = .captureRandom ∧ (Utf8.bytes value).all (· == 48) then .error receiptShape
  else .ok ⟨⟩

def EmitterIdentity.pinned : EmitterIdentity :=
  ⟨"0.144.0", "rust-v0.144.0", "e0a9ff6938d85db1a7b11a693b6aa2bc31fe5a55", "767822446c7a594caa19609ca435281a9ec67e0d"⟩

def EmitterIdentity.validate (emitter : EmitterIdentity) : Except AdapterError Unit :=
  if emitter ≠ .pinned then .error (.new .receiptMismatch) else .ok ⟨⟩

def validateInputSeal : ByteInputSeal → Except AdapterError Unit
  | .absent => .ok ⟨⟩
  | .present _ sha256 => validateSha256 sha256

def ByteInputSeal.isPresent : ByteInputSeal → Bool
  | .absent => false
  | .present _ _ => true

def validateStreamSeal (stream : ByteStreamSeal) : Except AdapterError Unit := validateSha256 stream.sha256

def validateTerminationDomain : ProcessTermination → Except AdapterError Unit
  | .exited code => if code ≤ 125 then .ok ⟨⟩ else .error (.new .illegalTermination)
  | .signaled signal _ => if 1 ≤ signal ∧ signal ≤ 64 then .ok ⟨⟩ else .error (.new .illegalTermination)

def addArgument (entry : Nat × List String) (argument : List UInt8) : Except AdapterError (Nat × List String) :=
  if 0 ∈ argument ∨ maxArgvArgumentBytes < argument.length then .error receiptShape
  else if maxArgvTotalBytes < entry.1 + argument.length then .error receiptShape
  else .ok (entry.1 + argument.length, entry.2 ++ [Hex.encode argument])

def ArgvBytes.fromArguments (arguments : List (List UInt8)) : Except AdapterError ArgvBytes :=
  if maxArgvArguments < arguments.length then .error receiptShape
  else do
    let (total, encoded) ← arguments.foldlM addArgument (0, [])
    .ok ⟨.ofNat arguments.length, encoded, .ofNat total⟩

def ArgvBytes.decoded (argv : ArgvBytes) : Except AdapterError (List (List UInt8)) := do
  let arguments ← argv.argumentsLowerHex.mapM decodeLowerHex
  let rebuilt ← ArgvBytes.fromArguments arguments
  if rebuilt ≠ argv then .error receiptShape else .ok arguments

theorem validateName_eq_ok {value : String} : validateName value = .ok ⟨⟩ ↔ isAsciiName value = true := by
  unfold validateName
  cases isAsciiName value <;> simp

theorem validateSha256_eq_ok {value : String} : validateSha256 value = .ok ⟨⟩ ↔ isDigest value = true := by
  unfold validateSha256
  cases isDigest value <;> simp

theorem validateBinding_eq_ok {binding : ArtifactBinding} : validateBinding binding = .ok ⟨⟩ ↔ BindingValid binding := by
  constructor
  · intro run
    obtain ⟨⟨⟩, name, rest⟩ := bind_eq_ok.1 run
    obtain ⟨version, hash⟩ := guard_eq_ok.1 rest
    exact ⟨validateName_eq_ok.1 name, by simpa using version, validateSha256_eq_ok.1 hash⟩
  · intro valid
    refine bind_eq_ok.2 ⟨⟨⟩, validateName_eq_ok.2 valid.identity, guard_eq_ok.2 ⟨?_, validateSha256_eq_ok.2 valid.hash⟩⟩
    simp [valid.version]

theorem validateNonce_encode {bytes : List UInt8} (length : bytes.length = 32) {source : AssertedNonceSource}
    (drawn : source = .captureRandom → ∃ byte ∈ bytes, byte ≠ 0) : validateNonce (Hex.encode bytes) source = .ok ⟨⟩ := by
  refine guard_eq_ok.2 ⟨?_, rfl⟩
  rintro (size | digits | ⟨random, zeros⟩)
  · exact size (by rw [Hex.utf8ByteSize_encode, length])
  · simp [isHexByte_digits] at digits
  · obtain ⟨byte, member, nonzero⟩ := drawn random
    have all : ∀ digit ∈ Utf8.bytes (Hex.encode bytes), digit = 48 := fun digit inside => beq_iff_eq.1 (List.all_eq_true.1 zeros digit inside)
    have count : (Utf8.bytes (Hex.encode bytes)).length = 64 := by rw [Utf8.length_bytes, Hex.utf8ByteSize_encode, length]
    have same : Utf8.bytes (Hex.encode bytes) = Utf8.bytes (Hex.encode (List.replicate 32 0)) :=
      (List.eq_replicate_iff.2 ⟨count, all⟩).trans (by decide)
    rw [Hex.encode_injective (Utf8.bytes_injective same)] at member
    exact nonzero (List.eq_of_mem_replicate member)

end

section

def CaptureManifestEntry.validate (entry : CaptureManifestEntry) : Except AdapterError Unit :=
  if entry.role ≠ "fixture-input" ∨ entry.format ≠ "regular-file-bytes" then .error receiptShape
  else do
    validateSha256 entry.sha256
    let path ← decodeLowerHex entry.relativePathLowerHex
    if path = [] ∨ 4096 < path.length ∨ path.head? = some 47 ∨
        (path.splitOn 47).any (fun part => part == [] || part == [46] || part == [46, 46] || part.contains 0) then .error receiptShape
    else .ok ⟨⟩

def validateEntry (before : List CaptureManifestEntry) (entry : CaptureManifestEntry) :
    Except AdapterError (List CaptureManifestEntry) := do
  entry.validate
  if entry.ordinal ≠ .ofNat before.length ∨
      before.getLast?.any fun previous => decide (entry.relativePathLowerHex ≤ previous.relativePathLowerHex) then .error receiptShape
  else if before.any fun previous => previous.inode == entry.inode then .error receiptShape
  else .ok (before ++ [entry])

def validateOrder (entries : List CaptureManifestEntry) : Except AdapterError Unit := do
  let _ ← entries.foldlM validateEntry []
  .ok ⟨⟩

def manifestComponents (entry : CaptureManifestEntry) : List (List UInt8) :=
  [PrefixCode.bigEndian entry.ordinal, Utf8.bytes entry.role, Utf8.bytes entry.format, Utf8.bytes entry.relativePathLowerHex,
    PrefixCode.bigEndian entry.byteLength, Utf8.bytes entry.sha256, PrefixCode.bigEndian entry.inode.dev, PrefixCode.bigEndian entry.inode.ino]

def workspaceTreeDigest (sha256 : List UInt8 → Digest) (entries : List CaptureManifestEntry) : Except AdapterError String := do
  validateOrder entries
  .ok (framedSha256 sha256 "legitimacy.codex-exec-v0.workspace-tree.v0" (entries.flatMap manifestComponents))

end

section

variable (host : AdapterHost)

def SyntheticFixtureReceipt.validate (receipt : SyntheticFixtureReceipt) : Except AdapterError Unit := do
  if receipt.receiptFormat ≠ "legitimacy.codex-exec-v0.synthetic-fixture-receipt" ∨ receipt.receiptVersion ≠ "0" ∨
      receipt.evidenceClass ≠ "synthetic-fixture" ∨ receipt.rawRecordCount ≠ receipt.rawCaptureSeal.recordCount then .error receiptShape
  else
    receipt.emitter.validate
    validateSha256 receipt.fullJsonlDigest
    validateSha256 receipt.rawCaptureSeal.digest
    validateBinding receipt.fixtureSpecManifest
    if receipt.fixtureSpecManifest ≠ host.fixtureSpecBinding then .error (.new .receiptMismatch)
    else validateNonce receipt.blindingNonceLowerHex receipt.assertedNonceSource

/-- The artifacts of a capture are other files than its executable and its tool. -/
def ProcessCaptureReceipt.sharesInode (receipt : ProcessCaptureReceipt) : Bool :=
  receipt.executableInode == receipt.captureTool.inode ||
    receipt.workspaceManifest.any fun entry => entry.inode == receipt.executableInode || entry.inode == receipt.captureTool.inode

def ProcessCaptureReceipt.validate (receipt : ProcessCaptureReceipt) : Except AdapterError Unit := do
  if receipt.receiptFormat ≠ "legitimacy.codex-exec-v0.process-capture-receipt" ∨ receipt.receiptVersion ≠ "0" ∨
      receipt.evidenceClass ≠ "genuine-process-capture" ∨ receipt.assertedNonceSource ≠ .captureRandom ∨
      receipt.rawRecordCount ≠ receipt.rawCaptureSeal.recordCount then .error receiptShape
  else
    receipt.emitter.validate
    validateSha256 receipt.executableSha256
    if receipt.executableSha256 ≠ processCaptureExecutableSha256 then .error (.new .receiptMismatch)
    else if receipt.executableExecutionBinding ≠ "fexecve-held-fd" ∨ receipt.artifactOpenDiscipline ≠ "held-fd-no-symlink" ∨
        receipt.workspaceExecutionDiscipline ≠ "held-read-only-during-exec" then .error (.new .unsupportedProfile)
    else
      let arguments ← receipt.argv.decoded
      if arguments ≠ processCaptureArgv then .error (.new .unsupportedProfile)
      else if !receipt.stdin.isPresent then .error (.new .unsupportedProfile)
      else
        validateInputSeal receipt.stdin
        validateStreamSeal receipt.stdout
        validateStreamSeal receipt.stderr
        validateSha256 receipt.rawCaptureSeal.digest
        validateBinding receipt.captureTool.identity
        validateSha256 receipt.captureTool.fileSha256
        if receipt.captureTool.identity ≠ host.captureProducerBinding then .error (.new .receiptMismatch)
        else
          validateBinding receipt.captureProfileArtifact
          if receipt.captureProfileArtifact ≠ host.captureProfileBinding then .error (.new .unsupportedProfile)
          else if maxCaptureManifestEntries < receipt.workspaceManifest.length then .error receiptShape
          else
            validateOrder receipt.workspaceManifest
            if receipt.sharesInode then .error (.new .receiptMismatch)
            else
              validateSha256 receipt.workspaceTreeDigest
              let treeDigest ← CodexExec.workspaceTreeDigest host.sha256 receipt.workspaceManifest
              if receipt.workspaceTreeDigest ≠ treeDigest then .error (.new .receiptMismatch)
              else if receipt.releaseAsset ≠ ⟨processCaptureReleaseName, processCaptureReleaseSha256⟩ ∨
                  receipt.sigstoreBundle ≠ ⟨processCaptureSigstoreName, processCaptureSigstoreSha256⟩ ∨
                  receipt.sigstoreVerification ≠ "verified-sigstore-rekor" ∧
                    receipt.sigstoreVerification ≠ "bundle-present-unverified" then .error (.new .receiptMismatch)
              else
                validateNonce receipt.blindingNonceLowerHex .captureRandom
                validateTerminationDomain receipt.termination

/-- The origins that a derived capture may assert, with the parents and nonces that go with them. -/
def assertedOrigin (origin : String) : AssertedParentReceipt → AssertedNonceSource → Bool
  | .syntheticFixtureCaptureRandom, _ => origin == "synthetic-fixture"
  | .syntheticFixtureFixedSyntheticTest, _ => origin == "synthetic-fixture"
  | .processCaptureCaptureRandom, .captureRandom => origin == "genuine-process-capture"
  | .processCaptureCaptureRandom, .fixedSyntheticTest => false

def SanitizedDerivedCaptureReceipt.validate (receipt : SanitizedDerivedCaptureReceipt) : Except AdapterError Unit := do
  if receipt.receiptFormat ≠ "legitimacy.codex-exec-v0.sanitized-derived-capture-receipt" ∨ receipt.receiptVersion ≠ "0" ∨
      receipt.evidenceClass ≠ "sanitized-derived-capture" ∨
      receipt.assertedOriginEvidenceClass ≠ "synthetic-fixture" ∧ receipt.assertedOriginEvidenceClass ≠ "genuine-process-capture" ∨
      !assertedOrigin receipt.assertedOriginEvidenceClass receipt.assertedParentReceipt receipt.assertedNonceSource then .error receiptShape
  else
    [receipt.parentReceiptCommitment, receipt.parentFullJsonlDigest, receipt.parentRawCaptureSeal.digest, receipt.derivedFullJsonlDigest,
      receipt.derivedRawCaptureSeal.digest].forM validateSha256
    validateBinding receipt.sanitizerPolicy
    validateBinding receipt.sanitizerArtifact
    if receipt.sanitizerPolicy ≠ host.sanitizerPolicyBinding ∨ receipt.sanitizerArtifact ≠ host.sanitizerBinding then
      .error (.new .receiptMismatch)
    else validateNonce receipt.blindingNonceLowerHex receipt.assertedNonceSource

def InputAuthorityReceipt.validate : InputAuthorityReceipt → Except AdapterError Unit
  | .syntheticFixture receipt => receipt.validate host
  | .processCapture receipt => receipt.validate host
  | .sanitizedDerivedCapture receipt => receipt.validate host

end

section

def reservedPolicyNamespaces : List String := ["legitimacy.codex-exec-v0.", "legitimacy.trajectory.", "derivation.codex-exec-v0."]

def isReserved (identity : String) : Bool := reservedPolicyNamespaces.any fun namespace_ => startsWith identity namespace_

def validatePolicyIdentity (identity : String) : Except AdapterError Unit :=
  if isReserved identity then .error (.new .reservedPolicy) else .ok ⟨⟩

/-- The context that adaptation trusts. It is built by its constructor alone, whose format and version are fixed. -/
structure TrustedAdaptationContext where
  expectedAuthorityCommitment : String
  downstreamGovernancePolicy : ArtifactBinding
  commitment : validateSha256 expectedAuthorityCommitment = .ok ⟨⟩
  policy : validateBinding downstreamGovernancePolicy = .ok ⟨⟩
  unreserved : validatePolicyIdentity downstreamGovernancePolicy.identity = .ok ⟨⟩

def trustedContextFormat : String := "legitimacy.codex-exec-v0.trusted-adaptation-context"

def trustedContextVersion : String := "0"

def established : (check : Except AdapterError Unit) → Except AdapterError (PLift (check = .ok ⟨⟩))
  | .ok ⟨⟩ => .ok ⟨rfl⟩
  | .error failure => .error failure

def TrustedAdaptationContext.new (expectedAuthorityCommitment : String) (downstreamGovernancePolicy : ArtifactBinding) :
    Except AdapterError TrustedAdaptationContext := do
  let commitment ← established (validateSha256 expectedAuthorityCommitment)
  let policy ← established (validateBinding downstreamGovernancePolicy)
  let unreserved ← established (validatePolicyIdentity downstreamGovernancePolicy.identity)
  .ok ⟨expectedAuthorityCommitment, downstreamGovernancePolicy, commitment.down, policy.down, unreserved.down⟩

end

section

namespace InputAuthorityReceipt

def evidenceClass : InputAuthorityReceipt → String
  | .syntheticFixture _ => "synthetic-fixture"
  | .processCapture _ => "genuine-process-capture"
  | .sanitizedDerivedCapture _ => "sanitized-derived-capture"

def rawSeal : InputAuthorityReceipt → RawCaptureSeal
  | .syntheticFixture receipt => receipt.rawCaptureSeal
  | .processCapture receipt => receipt.rawCaptureSeal
  | .sanitizedDerivedCapture receipt => receipt.derivedRawCaptureSeal

def processTermination : InputAuthorityReceipt → Option ProcessTermination
  | .processCapture receipt => some receipt.termination
  | .syntheticFixture _ => none
  | .sanitizedDerivedCapture _ => none

def parentCommitment : InputAuthorityReceipt → Option String
  | .sanitizedDerivedCapture receipt => some receipt.parentReceiptCommitment
  | .syntheticFixture _ => none
  | .processCapture _ => none

def substitutesAssignedRole (policy : ArtifactBinding) : InputAuthorityReceipt → Bool
  | .syntheticFixture receipt => policy.identity == receipt.fixtureSpecManifest.identity
  | .processCapture receipt =>
    policy.identity == receipt.captureTool.identity.identity || policy.identity == receipt.captureProfileArtifact.identity
  | .sanitizedDerivedCapture receipt =>
    policy.identity == receipt.sanitizerPolicy.identity || policy.identity == receipt.sanitizerArtifact.identity

def rejectDynamicPolicySubstitution (authority : InputAuthorityReceipt) (policy : ArtifactBinding) : Except AdapterError Unit := do
  validatePolicyIdentity policy.identity
  if authority.substitutesAssignedRole policy then .error (.new .reservedPolicy) else .ok ⟨⟩

variable (host : AdapterHost)

/-- The receipt names the capture: its length, its digest, its records and their seal. -/
def seals (framed : FramedCapture) (authority : InputAuthorityReceipt) : Bool :=
  let records := framed.recordSlices
  let capture := rawCaptureSeal host.sha256 records
  let length := UInt64.ofNat framed.bytes.length
  let digest := fullJsonlDigest host.sha256 framed.bytes
  match authority with
  | .syntheticFixture receipt =>
    receipt.fullJsonlLength == length && receipt.fullJsonlDigest == digest && receipt.rawRecordCount == .ofNat records.length &&
      receipt.rawCaptureSeal == capture
  | .processCapture receipt =>
    receipt.stdout.byteLength == length && receipt.stdout.sha256 == standardSha256 host.sha256 framed.bytes &&
      receipt.rawRecordCount == .ofNat records.length && receipt.rawCaptureSeal == capture
  | .sanitizedDerivedCapture receipt =>
    receipt.derivedFullJsonlLength == length && receipt.derivedFullJsonlDigest == digest && receipt.derivedRawCaptureSeal == capture

def authorize (authority : InputAuthorityReceipt) (framed : FramedCapture) (trusted : TrustedAdaptationContext) : Except AdapterError Unit := do
  authority.validate host
  authority.rejectDynamicPolicySubstitution trusted.downstreamGovernancePolicy
  if authority.commitment host.sha256 ≠ trusted.expectedAuthorityCommitment then .error (.new .trustedContextMismatch)
  else if !authority.seals host framed then .error (.new .receiptMismatch)
  else .ok ⟨⟩

end InputAuthorityReceipt

variable {host : AdapterHost} {framed : FramedCapture} {authority : InputAuthorityReceipt} {context : TrustedAdaptationContext}

theorem authorize_eq_ok : authority.authorize host framed context = .ok ⟨⟩ ↔ authority.validate host = .ok ⟨⟩ ∧
    authority.rejectDynamicPolicySubstitution context.downstreamGovernancePolicy = .ok ⟨⟩ ∧
    authority.commitment host.sha256 = context.expectedAuthorityCommitment ∧ authority.seals host framed = true := by
  constructor
  · intro run
    obtain ⟨⟨⟩, valid, rest⟩ := bind_eq_ok.1 run
    obtain ⟨⟨⟩, assigned, rest⟩ := bind_eq_ok.1 rest
    obtain ⟨committed, rest⟩ := guard_eq_ok.1 rest
    exact ⟨valid, assigned, not_not.1 committed, by simpa using (guard_eq_ok.1 rest).1⟩
  · rintro ⟨valid, assigned, committed, sealed⟩
    refine bind_eq_ok.2 ⟨⟨⟩, valid, bind_eq_ok.2 ⟨⟨⟩, assigned, guard_eq_ok.2 ⟨not_not.2 committed, guard_eq_ok.2 ⟨?_, rfl⟩⟩⟩⟩
    simp [sealed]

theorem authorize_rawSeal (authorized : authority.authorize host framed context = .ok ⟨⟩) :
    authority.rawSeal = rawCaptureSeal host.sha256 framed.recordSlices := by
  have sealed := (authorize_eq_ok.1 authorized).2.2.2
  cases authority <;> simp [InputAuthorityReceipt.seals] at sealed <;> simp [InputAuthorityReceipt.rawSeal, sealed]

theorem context_policy (context : TrustedAdaptationContext) : BindingValid context.downstreamGovernancePolicy :=
  validateBinding_eq_ok.1 context.policy

theorem context_unreserved (context : TrustedAdaptationContext) : isReserved context.downstreamGovernancePolicy.identity = false := by
  simpa using (guard_eq_ok.1 context.unreserved).1

def TrustedAdaptationContext.expecting (host : AdapterHost) (authority : InputAuthorityReceipt) {policy : ArtifactBinding}
    (valid : BindingValid policy) (unreserved : isReserved policy.identity = false) : TrustedAdaptationContext where
  expectedAuthorityCommitment := authority.commitment host.sha256
  downstreamGovernancePolicy := policy
  commitment := validateSha256_eq_ok.2 (isDigest_framedSha256 _ _ _)
  policy := validateBinding_eq_ok.2 valid
  unreserved := guard_eq_ok.2 ⟨by simp [unreserved], rfl⟩

end

section

structure NonceMaterial where
  assertedSource : AssertedNonceSource
  bytes : List UInt8
  length : bytes.length = 32

variable (host : AdapterHost)

def SyntheticFixtureReceipt.withNonce (jsonl : List UInt8) (fixtureSpecManifest : ArtifactBinding) (nonce : NonceMaterial) :
    Except AdapterError SyntheticFixtureReceipt := do
  let framed ← parseOwned host.reader jsonl
  let records := framed.recordSlices
  .ok {
    receiptFormat := "legitimacy.codex-exec-v0.synthetic-fixture-receipt"
    receiptVersion := "0"
    evidenceClass := "synthetic-fixture"
    emitter := .pinned
    fullJsonlLength := .ofNat jsonl.length
    fullJsonlDigest := CodexExec.fullJsonlDigest host.sha256 framed.bytes
    rawRecordCount := .ofNat records.length
    rawCaptureSeal := Trajectory.rawCaptureSeal host.sha256 records
    fixtureSpecManifest
    assertedNonceSource := nonce.assertedSource
    blindingNonceLowerHex := Hex.encode nonce.bytes }

structure DerivedReceiptInputs where
  assertedOriginEvidenceClass : String
  assertedParentReceipt : AssertedParentReceipt
  parentReceiptCommitment : String
  parentFullJsonlLength : UInt64
  parentFullJsonlDigest : String
  parentRawCaptureSeal : RawCaptureSeal
  sanitizerPolicy : ArtifactBinding
  sanitizerArtifact : ArtifactBinding

def SanitizedDerivedCaptureReceipt.new (inputs : DerivedReceiptInputs) (derived : FramedCapture) (nonce : NonceMaterial) :
    SanitizedDerivedCaptureReceipt where
  receiptFormat := "legitimacy.codex-exec-v0.sanitized-derived-capture-receipt"
  receiptVersion := "0"
  evidenceClass := "sanitized-derived-capture"
  assertedOriginEvidenceClass := inputs.assertedOriginEvidenceClass
  assertedParentReceipt := inputs.assertedParentReceipt
  parentReceiptCommitment := inputs.parentReceiptCommitment
  parentFullJsonlLength := inputs.parentFullJsonlLength
  parentFullJsonlDigest := inputs.parentFullJsonlDigest
  parentRawCaptureSeal := inputs.parentRawCaptureSeal
  sanitizerPolicy := inputs.sanitizerPolicy
  sanitizerArtifact := inputs.sanitizerArtifact
  derivedFullJsonlLength := .ofNat derived.bytes.length
  derivedFullJsonlDigest := fullJsonlDigest host.sha256 derived.bytes
  derivedRawCaptureSeal := rawCaptureSeal host.sha256 derived.recordSlices
  assertedNonceSource := nonce.assertedSource
  blindingNonceLowerHex := Hex.encode nonce.bytes

variable {host : AdapterHost} {jsonl : List UInt8} {framed : FramedCapture} {nonce : NonceMaterial} {context : TrustedAdaptationContext}

theorem withNonce_authorizes (parsed : parseOwned host.reader jsonl = .ok framed)
    (drawn : nonce.assertedSource = .captureRandom → ∃ byte ∈ nonce.bytes, byte ≠ 0) {receipt : SyntheticFixtureReceipt}
    (made : SyntheticFixtureReceipt.withNonce host jsonl host.fixtureSpecBinding nonce = .ok receipt)
    (expected : (InputAuthorityReceipt.syntheticFixture receipt).commitment host.sha256 = context.expectedAuthorityCommitment) :
    (InputAuthorityReceipt.syntheticFixture receipt).authorize host framed context = .ok ⟨⟩ := by
  obtain ⟨capture, read, made⟩ := bind_eq_ok.1 made
  obtain rfl := Except.ok.inj (parsed.symm.trans read)
  obtain rfl := Except.ok.inj made
  have unreserved := context_unreserved context
  refine authorize_eq_ok.2 ⟨guard_eq_ok.2 ⟨?_, ?_⟩, bind_eq_ok.2 ⟨⟨⟩, context.unreserved, guard_eq_ok.2 ⟨?_, rfl⟩⟩, expected, ?_⟩
  · rintro (format | version | evidence | count)
    · exact format rfl
    · exact version rfl
    · exact evidence rfl
    · exact count rfl
  · refine bind_eq_ok.2 ⟨⟨⟩, if_neg (not_not.2 rfl), bind_eq_ok.2 ⟨⟨⟩, validateSha256_eq_ok.2 (isDigest_framedSha256 _ _ _), ?_⟩⟩
    refine bind_eq_ok.2 ⟨⟨⟩, validateSha256_eq_ok.2 (isDigest_framedSha256 _ _ _), ?_⟩
    refine bind_eq_ok.2 ⟨⟨⟩, validateBinding_eq_ok.2 host.fixtureSpecBinding_valid, guard_eq_ok.2 ⟨not_not.2 rfl, ?_⟩⟩
    exact validateNonce_encode nonce.length drawn
  · intro substitutes
    have reserved : isReserved host.fixtureSpecBinding.identity = true := by
      show isReserved "legitimacy.codex-exec-v0.fixture-spec" = true
      decide
    rw [← beq_iff_eq.1 substitutes, unreserved] at reserved
    cases reserved
  · simp [InputAuthorityReceipt.seals, parseOwned_bytes parsed]

theorem assertedOrigin_classes {origin : String} {parent : AssertedParentReceipt} {source : AssertedNonceSource}
    (asserted : assertedOrigin origin parent source = true) : origin = "synthetic-fixture" ∨ origin = "genuine-process-capture" := by
  unfold assertedOrigin at asserted
  split at asserted
  · exact .inl (beq_iff_eq.1 asserted)
  · exact .inl (beq_iff_eq.1 asserted)
  · exact .inr (beq_iff_eq.1 asserted)
  · cases asserted

structure SanitizedDerivedCaptureReceipt.Valid (host : AdapterHost) (receipt : SanitizedDerivedCaptureReceipt) : Prop where
  format : receipt.receiptFormat = "legitimacy.codex-exec-v0.sanitized-derived-capture-receipt"
  version : receipt.receiptVersion = "0"
  evidence : receipt.evidenceClass = "sanitized-derived-capture"
  origin : assertedOrigin receipt.assertedOriginEvidenceClass receipt.assertedParentReceipt receipt.assertedNonceSource = true
  digests : ∀ digest ∈ [receipt.parentReceiptCommitment, receipt.parentFullJsonlDigest, receipt.parentRawCaptureSeal.digest,
    receipt.derivedFullJsonlDigest, receipt.derivedRawCaptureSeal.digest], isDigest digest = true
  policy : receipt.sanitizerPolicy = host.sanitizerPolicyBinding
  artifact : receipt.sanitizerArtifact = host.sanitizerBinding
  nonce : validateNonce receipt.blindingNonceLowerHex receipt.assertedNonceSource = .ok ⟨⟩

theorem validateDerived_eq_ok {receipt : SanitizedDerivedCaptureReceipt} : receipt.validate host = .ok ⟨⟩ ↔ receipt.Valid host := by
  constructor
  · intro run
    obtain ⟨shape, run⟩ := guard_eq_ok.1 run
    simp only [not_or, not_not, Bool.not_eq_true', Bool.not_eq_false] at shape
    obtain ⟨⟨⟩, digests, run⟩ := bind_eq_ok.1 run
    obtain ⟨⟨⟩, -, run⟩ := bind_eq_ok.1 run
    obtain ⟨⟨⟩, -, run⟩ := bind_eq_ok.1 run
    obtain ⟨bound, nonce⟩ := guard_eq_ok.1 run
    obtain ⟨policy, artifact⟩ := not_or.1 bound
    refine ⟨shape.1, shape.2.1, shape.2.2.1, shape.2.2.2.2, fun digest listed => ?_, not_not.1 policy, not_not.1 artifact, nonce⟩
    exact validateSha256_eq_ok.1 (forM_eq_ok.1 digests digest listed)
  · intro valid
    have policy : BindingValid receipt.sanitizerPolicy := valid.policy ▸ host.sanitizerPolicyBinding_valid
    have artifact : BindingValid receipt.sanitizerArtifact := valid.artifact ▸ host.sanitizerBinding_valid
    refine guard_eq_ok.2 ⟨?_, bind_eq_ok.2 ⟨⟨⟩, forM_eq_ok.2 fun digest listed => validateSha256_eq_ok.2 (valid.digests digest listed), ?_⟩⟩
    · rintro (format | version | evidence | ⟨fixture, genuine⟩ | asserted)
      · exact format valid.format
      · exact version valid.version
      · exact evidence valid.evidence
      · exact (assertedOrigin_classes valid.origin).elim fixture genuine
      · simp [valid.origin] at asserted
    · refine bind_eq_ok.2 ⟨⟨⟩, validateBinding_eq_ok.2 policy, bind_eq_ok.2 ⟨⟨⟩, validateBinding_eq_ok.2 artifact, ?_⟩⟩
      exact guard_eq_ok.2 ⟨not_or.2 ⟨not_not.2 valid.policy, not_not.2 valid.artifact⟩, valid.nonce⟩

theorem new_authorizes {inputs : DerivedReceiptInputs} (valid : (SanitizedDerivedCaptureReceipt.new host inputs framed nonce).Valid host)
    (expected : (InputAuthorityReceipt.sanitizedDerivedCapture (.new host inputs framed nonce)).commitment host.sha256 =
      context.expectedAuthorityCommitment) :
    (InputAuthorityReceipt.sanitizedDerivedCapture (.new host inputs framed nonce)).authorize host framed context = .ok ⟨⟩ := by
  have unreserved := context_unreserved context
  refine authorize_eq_ok.2 ⟨validateDerived_eq_ok.2 valid, bind_eq_ok.2 ⟨⟨⟩, context.unreserved, guard_eq_ok.2 ⟨?_, rfl⟩⟩, expected, ?_⟩
  · have reserved : isReserved host.sanitizerPolicyBinding.identity = true ∧ isReserved host.sanitizerBinding.identity = true := by
      show isReserved "legitimacy.codex-exec-v0.sanitizer-policy" = true ∧ isReserved "legitimacy.codex-exec-v0.sanitizer" = true
      decide
    rw [← valid.policy, ← valid.artifact] at reserved
    intro substitutes
    rcases Bool.or_eq_true_iff.1 substitutes with same | same
    · exact Bool.false_ne_true (unreserved.symm.trans (beq_iff_eq.1 same ▸ reserved.1))
    · exact Bool.false_ne_true (unreserved.symm.trans (beq_iff_eq.1 same ▸ reserved.2))
  · simp [InputAuthorityReceipt.seals, SanitizedDerivedCaptureReceipt.new]

end

end Legitimacy.CodexExec
