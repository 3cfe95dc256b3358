import Legitimacy.CodexExec.StreamValidation
import Legitimacy.Trajectory.SingleEvent

namespace Legitimacy.CodexExec

open Trajectory

def receiptMagic : List UInt8 := Utf8.bytes "legitimacy.codex-exec-v0.authority.canonical.v0\x00"

inductive FreshExecMode
  | freshExecStructuredStdin
  deriving DecidableEq

inductive CaptureProfile
  | unixReadOnlyStdinJson
  deriving DecidableEq

structure InodeIdentity where
  dev : UInt64
  ino : UInt64
  deriving DecidableEq

@[ext]
structure ArgvBytes where
  argumentCount : UInt64
  argumentsLowerHex : List String
  totalBytes : UInt64
  deriving DecidableEq

structure CaptureManifestEntry where
  ordinal : UInt64
  role : String
  format : String
  relativePathLowerHex : String
  byteLength : UInt64
  sha256 : String
  inode : InodeIdentity
  deriving DecidableEq

inductive AssertedNonceSource
  | captureRandom | fixedSyntheticTest
  deriving DecidableEq

def AssertedNonceSource.label : AssertedNonceSource → String
  | .captureRandom => "capture-random"
  | .fixedSyntheticTest => "fixed-synthetic-test"

inductive AssertedParentReceipt
  | syntheticFixtureCaptureRandom | syntheticFixtureFixedSyntheticTest | processCaptureCaptureRandom
  deriving DecidableEq

def AssertedParentReceipt.label : AssertedParentReceipt → String
  | .syntheticFixtureCaptureRandom => "asserted-parent-receipt-synthetic-fixture-capture-random"
  | .syntheticFixtureFixedSyntheticTest => "asserted-parent-receipt-synthetic-fixture-fixed-synthetic-test"
  | .processCaptureCaptureRandom => "asserted-parent-receipt-process-capture-capture-random"

structure EmitterIdentity where
  packageVersion : String
  sourceTag : String
  sourceTagObjectSha : String
  sourceCommitSha : String
  deriving DecidableEq

inductive ByteInputSeal
  | absent
  | present (byteLength : UInt64) (sha256 : String)
  deriving DecidableEq

structure ByteStreamSeal where
  byteLength : UInt64
  sha256 : String
  deriving DecidableEq

@[ext]
structure ExecutedArtifact where
  identity : ArtifactBinding
  fileSha256 : String
  inode : InodeIdentity
  deriving DecidableEq

structure ReleaseArtifact where
  name : String
  sha256 : String
  deriving DecidableEq

structure SyntheticFixtureReceipt where
  receiptFormat : String
  receiptVersion : String
  evidenceClass : String
  emitter : EmitterIdentity
  fullJsonlLength : UInt64
  fullJsonlDigest : String
  rawRecordCount : UInt64
  rawCaptureSeal : RawCaptureSeal
  fixtureSpecManifest : ArtifactBinding
  assertedNonceSource : AssertedNonceSource
  blindingNonceLowerHex : String
  deriving DecidableEq

structure ProcessCaptureReceipt where
  receiptFormat : String
  receiptVersion : String
  evidenceClass : String
  emitter : EmitterIdentity
  executableSha256 : String
  executableInode : InodeIdentity
  executableExecutionBinding : String
  artifactOpenDiscipline : String
  workspaceExecutionDiscipline : String
  argv : ArgvBytes
  resolvedMode : FreshExecMode
  captureProfile : CaptureProfile
  stdin : ByteInputSeal
  termination : ProcessTermination
  stdout : ByteStreamSeal
  stderr : ByteStreamSeal
  rawRecordCount : UInt64
  rawCaptureSeal : RawCaptureSeal
  captureTool : ExecutedArtifact
  captureProfileArtifact : ArtifactBinding
  workspaceManifest : List CaptureManifestEntry
  workspaceTreeDigest : String
  releaseAsset : ReleaseArtifact
  sigstoreBundle : ReleaseArtifact
  sigstoreVerification : String
  assertedNonceSource : AssertedNonceSource
  blindingNonceLowerHex : String
  deriving DecidableEq

structure SanitizedDerivedCaptureReceipt where
  receiptFormat : String
  receiptVersion : String
  evidenceClass : String
  assertedOriginEvidenceClass : String
  assertedParentReceipt : AssertedParentReceipt
  parentReceiptCommitment : String
  parentFullJsonlLength : UInt64
  parentFullJsonlDigest : String
  parentRawCaptureSeal : RawCaptureSeal
  sanitizerPolicy : ArtifactBinding
  sanitizerArtifact : ArtifactBinding
  derivedFullJsonlLength : UInt64
  derivedFullJsonlDigest : String
  derivedRawCaptureSeal : RawCaptureSeal
  assertedNonceSource : AssertedNonceSource
  blindingNonceLowerHex : String
  deriving DecidableEq

inductive InputAuthorityReceipt
  | syntheticFixture (receipt : SyntheticFixtureReceipt)
  | processCapture (receipt : ProcessCaptureReceipt)
  | sanitizedDerivedCapture (receipt : SanitizedDerivedCaptureReceipt)
  deriving DecidableEq

section

def fieldString (name value : String) : List UInt8 := putString name ++ putString value

def fieldU64 (name : String) (value : UInt64) : List UInt8 := putString name ++ putU64 value

def fieldLen (name : String) (value : Nat) : List UInt8 := fieldU64 name (.ofNat value)

def encodeCommon (format version evidenceClass : String) : List UInt8 :=
  fieldString "receipt-format" format ++ (fieldString "receipt-version" version ++ fieldString "evidence-class" evidenceClass)

def encodeEmitter (emitter : EmitterIdentity) : List UInt8 :=
  fieldString "emitter-package-version" emitter.packageVersion ++ (fieldString "emitter-source-tag" emitter.sourceTag ++
    (fieldString "emitter-source-tag-object-sha" emitter.sourceTagObjectSha ++
      fieldString "emitter-source-commit-sha" emitter.sourceCommitSha))

def encodeNamedBinding (name : String) (binding : ArtifactBinding) : List UInt8 := putString name ++ encodeBinding binding

def encodeSeal (name : String) (value : RawCaptureSeal) : List UInt8 :=
  putString name ++ (putU64 value.recordCount ++ putString value.digest)

def encodeInode (name : String) (inode : InodeIdentity) : List UInt8 := putString name ++ (putU64 inode.dev ++ putU64 inode.ino)

def encodeInputSeal (value : ByteInputSeal) : List UInt8 :=
  putString "stdin" ++ match value with
    | .absent => [0]
    | .present byteLength sha256 => 1 :: (putU64 byteLength ++ putString sha256)

def encodeTermination (termination : ProcessTermination) : List UInt8 :=
  putString "termination" ++ match termination with
    | .exited code => [0, code]
    | .signaled signal coreDumped => [1, signal, if coreDumped then 1 else 0]

def encodeStream (name : String) (stream : ByteStreamSeal) : List UInt8 :=
  putString name ++ (putU64 stream.byteLength ++ putString stream.sha256)

def encodeRelease (name : String) (release : ReleaseArtifact) : List UInt8 :=
  putString name ++ (putString release.name ++ putString release.sha256)

def encodeNonce (kind nonce : String) : List UInt8 :=
  fieldString "nonce-kind" kind ++ fieldString "blinding-nonce-lower-hex" nonce

def encodeManifestEntry (entry : CaptureManifestEntry) : List UInt8 :=
  putU64 entry.ordinal ++ (putString entry.role ++ (putString entry.format ++ (putString entry.relativePathLowerHex ++
    (putU64 entry.byteLength ++ (putString entry.sha256 ++ (putU64 entry.inode.dev ++ putU64 entry.inode.ino))))))

def FreshExecMode.label : FreshExecMode → String
  | .freshExecStructuredStdin => "fresh-exec-structured-stdin"

def CaptureProfile.label : CaptureProfile → String
  | .unixReadOnlyStdinJson => "unix-read-only-stdin-json-v0"

def SyntheticFixtureReceipt.encode (receipt : SyntheticFixtureReceipt) : List UInt8 :=
  fieldString "authority" "synthetic-fixture" ++
    (encodeCommon receipt.receiptFormat receipt.receiptVersion receipt.evidenceClass ++
    (encodeEmitter receipt.emitter ++
    (fieldU64 "full-jsonl-length" receipt.fullJsonlLength ++
    (fieldString "full-jsonl-digest" receipt.fullJsonlDigest ++
    (fieldU64 "raw-record-count" receipt.rawRecordCount ++
    (encodeSeal "raw-capture-seal" receipt.rawCaptureSeal ++
    (encodeNamedBinding "fixture-spec-manifest" receipt.fixtureSpecManifest ++
    encodeNonce receipt.assertedNonceSource.label receipt.blindingNonceLowerHex)))))))

def ProcessCaptureReceipt.encode (receipt : ProcessCaptureReceipt) : List UInt8 :=
  fieldString "authority" "process-capture" ++
    (encodeCommon receipt.receiptFormat receipt.receiptVersion receipt.evidenceClass ++
    (encodeEmitter receipt.emitter ++
    (fieldString "executable-sha256" receipt.executableSha256 ++
    (encodeInode "executable-inode" receipt.executableInode ++
    (fieldString "executable-execution-binding" receipt.executableExecutionBinding ++
    (fieldString "artifact-open-discipline" receipt.artifactOpenDiscipline ++
    (fieldString "workspace-execution-discipline" receipt.workspaceExecutionDiscipline ++
    (fieldU64 "argv-count" receipt.argv.argumentCount ++
    (fieldU64 "argv-total-bytes" receipt.argv.totalBytes ++
    (fieldLen "argv-arguments" receipt.argv.argumentsLowerHex.length ++
    (receipt.argv.argumentsLowerHex.flatMap putString ++
    (fieldString "resolved-mode" receipt.resolvedMode.label ++
    (fieldString "capture-profile" receipt.captureProfile.label ++
    (encodeInputSeal receipt.stdin ++
    (encodeTermination receipt.termination ++
    (encodeStream "stdout" receipt.stdout ++
    (encodeStream "stderr" receipt.stderr ++
    (fieldU64 "raw-record-count" receipt.rawRecordCount ++
    (encodeSeal "raw-capture-seal" receipt.rawCaptureSeal ++
    (encodeNamedBinding "capture-tool" receipt.captureTool.identity ++
    (fieldString "capture-tool-file-sha256" receipt.captureTool.fileSha256 ++
    (encodeInode "capture-tool-inode" receipt.captureTool.inode ++
    (encodeNamedBinding "capture-profile-artifact" receipt.captureProfileArtifact ++
    (fieldLen "workspace-manifest" receipt.workspaceManifest.length ++
    (receipt.workspaceManifest.flatMap encodeManifestEntry ++
    (fieldString "workspace-tree-digest" receipt.workspaceTreeDigest ++
    (encodeRelease "release-asset" receipt.releaseAsset ++
    (encodeRelease "sigstore-bundle" receipt.sigstoreBundle ++
    (fieldString "sigstore-verification" receipt.sigstoreVerification ++
    encodeNonce receipt.assertedNonceSource.label receipt.blindingNonceLowerHex)))))))))))))))))))))))))))))

def SanitizedDerivedCaptureReceipt.encode (receipt : SanitizedDerivedCaptureReceipt) : List UInt8 :=
  fieldString "authority" "sanitized-derived-capture" ++
    (encodeCommon receipt.receiptFormat receipt.receiptVersion receipt.evidenceClass ++
    (fieldString "asserted-parent-receipt" receipt.assertedParentReceipt.label ++
    (fieldString "asserted-origin-evidence-class" receipt.assertedOriginEvidenceClass ++
    (fieldString "parent-receipt-commitment" receipt.parentReceiptCommitment ++
    (fieldU64 "parent-full-jsonl-length" receipt.parentFullJsonlLength ++
    (fieldString "parent-full-jsonl-digest" receipt.parentFullJsonlDigest ++
    (encodeSeal "parent-raw-capture-seal" receipt.parentRawCaptureSeal ++
    (encodeNamedBinding "sanitizer-policy" receipt.sanitizerPolicy ++
    (encodeNamedBinding "sanitizer-artifact" receipt.sanitizerArtifact ++
    (fieldU64 "derived-full-jsonl-length" receipt.derivedFullJsonlLength ++
    (fieldString "derived-full-jsonl-digest" receipt.derivedFullJsonlDigest ++
    (encodeSeal "derived-raw-capture-seal" receipt.derivedRawCaptureSeal ++
    encodeNonce receipt.assertedNonceSource.label receipt.blindingNonceLowerHex))))))))))))

def InputAuthorityReceipt.canonicalBytes (authority : InputAuthorityReceipt) : List UInt8 :=
  receiptMagic ++ match authority with
    | .syntheticFixture receipt => receipt.encode
    | .processCapture receipt => receipt.encode
    | .sanitizedDerivedCapture receipt => receipt.encode

def receiptCommitmentDomain : String := "legitimacy.codex-exec-v0.authority-commitment.v0"

def InputAuthorityReceipt.commitment (sha256 : List UInt8 → Digest) (authority : InputAuthorityReceipt) : String :=
  framedSha256 sha256 receiptCommitmentDomain [authority.canonicalBytes]

end

/-- What the adapter takes from its crates, and the files of the repository that are compiled into it. -/
structure AdapterHost extends Host where
  file : String → List UInt8

def adapterCoreSources : List String :=
  ["src/trajectory/codex_exec_v0/source_bindings.rs", "src/trajectory/codex_exec_v0/bundle.rs",
    "src/trajectory/codex_exec_v0/bundle_wire.rs", "src/trajectory/codex_exec_v0/error.rs", "src/trajectory/codex_exec_v0/event.rs",
    "src/trajectory/codex_exec_v0/event_wire.rs", "src/trajectory/codex_exec_v0/framing.rs", "src/trajectory/codex_exec_v0/fsm.rs",
    "src/trajectory/codex_exec_v0/mapping.rs", "src/trajectory/codex_exec_v0/mod.rs", "src/trajectory/codex_exec_v0/process_capture.rs",
    "src/trajectory/codex_exec_v0/process_capture_cleanup.rs", "src/trajectory/codex_exec_v0/process_capture_output.rs",
    "src/trajectory/codex_exec_v0/process_capture_platform.rs", "src/trajectory/codex_exec_v0/process_capture_signal.rs",
    "src/trajectory/codex_exec_v0/process_capture_supervision.rs", "src/trajectory/codex_exec_v0/process_capture_supervisor.rs",
    "src/trajectory/codex_exec_v0/receipt.rs", "src/trajectory/codex_exec_v0/receipt_canonical.rs",
    "src/trajectory/codex_exec_v0/receipt_context.rs", "src/trajectory/codex_exec_v0/receipt_debug.rs",
    "src/trajectory/codex_exec_v0/receipt_hex.rs", "src/trajectory/codex_exec_v0/receipt_nonce.rs",
    "src/trajectory/codex_exec_v0/receipt_validate.rs", "src/trajectory/codex_exec_v0/receipt_wire.rs",
    "src/trajectory/codex_exec_v0/receipt_workspace.rs", "src/trajectory/mod.rs", "src/trajectory/duplicate_json.rs",
    "src/trajectory/canonical.rs", "src/trajectory/validation.rs", "src/trajectory/interchange.rs"]

def sanitizerOnlySources : List String :=
  ["src/trajectory/codex_exec_v0/sanitizer.rs", "src/trajectory/codex_exec_v0/sanitizer_jwt.rs",
    "src/trajectory/codex_exec_v0/publication_authority.rs", "src/trajectory/codex_exec_v0/lineage_sidecar.rs"]

def fixtureSpecSources : List String := ["tests/fixtures/codex-exec-v0/source-manifest.json"]

def captureProducerSources : List String := ["src/bin/legitimacy-codex-capture-v0.rs"]

def sanitizerPolicy : List UInt8 :=
  Utf8.bytes ("legitimacy.codex-exec-v0.sanitizer-policy\nretain=event-structure,item-ids,statuses,integers,booleans\n" ++
    "replace=thread,prose,command,output,path,todo-text\n")

def captureProfileArtifact : List UInt8 :=
  Utf8.bytes ("legitimacy.codex-exec-v0.capture-profile\nplatform=unix\nmode=fresh-structured-stdin-json\nsandbox=read-only\n" ++
    "executable=fexecve-held-fd\nartifacts=held-fd-no-symlink\nworkspace=held-read-only\n")

namespace AdapterHost

variable (host : AdapterHost)

def bindingFromRegistries (identity framingDomain : String) (registries : List (List String)) : ArtifactBinding :=
  ⟨identity, "0", framedSha256 host.sha256 framingDomain (registries.flatten.flatMap fun path => [Utf8.bytes path, host.file path])⟩

def adapterBinding : ArtifactBinding :=
  host.bindingFromRegistries "legitimacy.codex-exec-v0.adapter" "legitimacy.codex-exec-v0.adapter-source-manifest.v0" [adapterCoreSources]

def sanitizerBinding : ArtifactBinding :=
  host.bindingFromRegistries "legitimacy.codex-exec-v0.sanitizer" "legitimacy.codex-exec-v0.sanitizer-registered-source-manifest.v0"
    [adapterCoreSources, sanitizerOnlySources]

def fixtureSpecBinding : ArtifactBinding :=
  host.bindingFromRegistries "legitimacy.codex-exec-v0.fixture-spec" "legitimacy.codex-exec-v0.fixture-source-manifest.v0" [fixtureSpecSources]

def captureProducerBinding : ArtifactBinding :=
  host.bindingFromRegistries "legitimacy.codex-exec-v0.capture-producer"
    "legitimacy.codex-exec-v0.capture-producer-source-manifest.v0" [adapterCoreSources, captureProducerSources]

def sanitizerPolicyBinding : ArtifactBinding :=
  ⟨"legitimacy.codex-exec-v0.sanitizer-policy", "0", artifactDigest host.sha256 sanitizerPolicy⟩

def captureProfileBinding : ArtifactBinding :=
  ⟨"legitimacy.codex-exec-v0.capture-profile", "0", artifactDigest host.sha256 captureProfileArtifact⟩

theorem hashedBinding_valid {identity domain : String} {components : List (List UInt8)} (named : isAsciiName identity = true) :
    BindingValid ⟨identity, "0", framedSha256 host.sha256 domain components⟩ :=
  ⟨named, by show isAsciiVersion "0" = true; decide, isDigest_framedSha256 _ _ _⟩

theorem adapterBinding_valid : BindingValid host.adapterBinding := host.hashedBinding_valid (by decide)

theorem fixtureSpecBinding_valid : BindingValid host.fixtureSpecBinding := host.hashedBinding_valid (by decide)

theorem sanitizerBinding_valid : BindingValid host.sanitizerBinding := host.hashedBinding_valid (by decide)

theorem sanitizerPolicyBinding_valid : BindingValid host.sanitizerPolicyBinding := host.hashedBinding_valid (by decide)

end AdapterHost

end Legitimacy.CodexExec
