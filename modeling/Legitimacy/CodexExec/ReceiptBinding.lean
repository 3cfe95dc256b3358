import Legitimacy.CodexExec.Receipt

namespace Legitimacy.CodexExec

open Trajectory PrefixCode

/-- Every string of the list, and the list itself, fits a length prefix. -/
def ShortStrings (texts : List String) : Prop := texts.length < 2 ^ 64 ∧ ∀ text ∈ texts, ShortString text

structure ShortEmitter (emitter : EmitterIdentity) : Prop where
  packageVersion : ShortString emitter.packageVersion
  sourceTag : ShortString emitter.sourceTag
  sourceTagObjectSha : ShortString emitter.sourceTagObjectSha
  sourceCommitSha : ShortString emitter.sourceCommitSha

def ShortInput : ByteInputSeal → Prop
  | .absent => True
  | .present _ sha256 => ShortString sha256

def ShortRelease (release : ReleaseArtifact) : Prop := ShortString release.name ∧ ShortString release.sha256

structure ShortEntry (entry : CaptureManifestEntry) : Prop where
  role : ShortString entry.role
  format : ShortString entry.format
  relativePathLowerHex : ShortString entry.relativePathLowerHex
  sha256 : ShortString entry.sha256

structure ShortSynthetic (receipt : SyntheticFixtureReceipt) : Prop where
  receiptFormat : ShortString receipt.receiptFormat
  receiptVersion : ShortString receipt.receiptVersion
  evidenceClass : ShortString receipt.evidenceClass
  emitter : ShortEmitter receipt.emitter
  fullJsonlDigest : ShortString receipt.fullJsonlDigest
  rawCaptureSeal : ShortString receipt.rawCaptureSeal.digest
  fixtureSpecManifest : ShortBinding receipt.fixtureSpecManifest
  blindingNonceLowerHex : ShortString receipt.blindingNonceLowerHex

structure ShortProcess (receipt : ProcessCaptureReceipt) : Prop where
  receiptFormat : ShortString receipt.receiptFormat
  receiptVersion : ShortString receipt.receiptVersion
  evidenceClass : ShortString receipt.evidenceClass
  emitter : ShortEmitter receipt.emitter
  executableSha256 : ShortString receipt.executableSha256
  executableExecutionBinding : ShortString receipt.executableExecutionBinding
  artifactOpenDiscipline : ShortString receipt.artifactOpenDiscipline
  workspaceExecutionDiscipline : ShortString receipt.workspaceExecutionDiscipline
  argv : ShortStrings receipt.argv.argumentsLowerHex
  stdin : ShortInput receipt.stdin
  stdout : ShortString receipt.stdout.sha256
  stderr : ShortString receipt.stderr.sha256
  rawCaptureSeal : ShortString receipt.rawCaptureSeal.digest
  captureTool : ShortBinding receipt.captureTool.identity
  captureToolFile : ShortString receipt.captureTool.fileSha256
  captureProfileArtifact : ShortBinding receipt.captureProfileArtifact
  workspaceCount : receipt.workspaceManifest.length < 2 ^ 64
  workspaceManifest : ∀ entry ∈ receipt.workspaceManifest, ShortEntry entry
  workspaceTreeDigest : ShortString receipt.workspaceTreeDigest
  releaseAsset : ShortRelease receipt.releaseAsset
  sigstoreBundle : ShortRelease receipt.sigstoreBundle
  sigstoreVerification : ShortString receipt.sigstoreVerification
  blindingNonceLowerHex : ShortString receipt.blindingNonceLowerHex

structure ShortSanitized (receipt : SanitizedDerivedCaptureReceipt) : Prop where
  receiptFormat : ShortString receipt.receiptFormat
  receiptVersion : ShortString receipt.receiptVersion
  evidenceClass : ShortString receipt.evidenceClass
  assertedOriginEvidenceClass : ShortString receipt.assertedOriginEvidenceClass
  parentReceiptCommitment : ShortString receipt.parentReceiptCommitment
  parentFullJsonlDigest : ShortString receipt.parentFullJsonlDigest
  parentRawCaptureSeal : ShortString receipt.parentRawCaptureSeal.digest
  sanitizerPolicy : ShortBinding receipt.sanitizerPolicy
  sanitizerArtifact : ShortBinding receipt.sanitizerArtifact
  derivedFullJsonlDigest : ShortString receipt.derivedFullJsonlDigest
  derivedRawCaptureSeal : ShortString receipt.derivedRawCaptureSeal.digest
  blindingNonceLowerHex : ShortString receipt.blindingNonceLowerHex

def ShortReceipt : InputAuthorityReceipt → Prop
  | .syntheticFixture receipt => ShortSynthetic receipt
  | .processCapture receipt => ShortProcess receipt
  | .sanitizedDerivedCapture receipt => ShortSanitized receipt

section

variable (name : String)

theorem fieldString_free : PrefixFree ShortString (fieldString name) := by
  intro first second rest other atFirst atSecond same
  simp only [fieldString, List.append_assoc, List.append_cancel_left_eq] at same
  exact putString_free _ _ _ _ atFirst atSecond same

theorem fieldU64_free : PrefixFree (fun _ => True) (fieldU64 name) := by
  intro first second rest other _ _ same
  simp only [fieldU64, List.append_assoc, List.append_cancel_left_eq] at same
  exact putU64_free _ _ _ _ trivial trivial same

theorem fieldLen_free : PrefixFree (fun size => size < 2 ^ 64) (fieldLen name) := by
  intro first second rest other atFirst atSecond same
  simp only [fieldLen, fieldU64, List.append_assoc, List.append_cancel_left_eq] at same
  exact putLen_free _ _ _ _ atFirst atSecond same

theorem fieldLen_flatMap {α : Type} {domain : α → Prop} {encode : α → List UInt8} (free : PrefixFree domain encode)
    {first second : List α} {rest other : List UInt8} (fits : first.length < 2 ^ 64) (fits' : second.length < 2 ^ 64)
    (atFirst : ∀ value ∈ first, domain value) (atSecond : ∀ value ∈ second, domain value)
    (same : fieldLen name first.length ++ (first.flatMap encode ++ rest) =
      fieldLen name second.length ++ (second.flatMap encode ++ other)) : first = second ∧ rest = other := by
  obtain ⟨length, words⟩ := fieldLen_free name _ _ _ _ fits fits' same
  exact free.flatMap length atFirst atSecond words

theorem encodeNamedBinding_free : PrefixFree ShortBinding (encodeNamedBinding name) := by
  intro first second rest other atFirst atSecond same
  simp only [encodeNamedBinding, List.append_assoc, List.append_cancel_left_eq] at same
  exact encodeBinding_free _ _ _ _ atFirst atSecond same

theorem encodeSeal_free : PrefixFree (fun value : RawCaptureSeal => ShortString value.digest) (encodeSeal name) := by
  intro first second rest other atFirst atSecond same
  simp only [encodeSeal, List.append_assoc, List.append_cancel_left_eq] at same
  obtain ⟨recordCount, same⟩ := putU64_free _ _ _ _ trivial trivial same
  obtain ⟨digest, rests⟩ := putString_free _ _ _ _ atFirst atSecond same
  cases first
  cases second
  obtain rfl : _ = _ := recordCount
  obtain rfl : _ = _ := digest
  exact ⟨rfl, rests⟩

theorem encodeInode_free : PrefixFree (fun _ => True) (encodeInode name) := by
  intro first second rest other _ _ same
  simp only [encodeInode, List.append_assoc, List.append_cancel_left_eq] at same
  obtain ⟨dev, same⟩ := putU64_free _ _ _ _ trivial trivial same
  obtain ⟨ino, rests⟩ := putU64_free _ _ _ _ trivial trivial same
  cases first
  cases second
  obtain rfl : _ = _ := dev
  obtain rfl : _ = _ := ino
  exact ⟨rfl, rests⟩

theorem encodeStream_free : PrefixFree (fun stream : ByteStreamSeal => ShortString stream.sha256) (encodeStream name) := by
  intro first second rest other atFirst atSecond same
  simp only [encodeStream, List.append_assoc, List.append_cancel_left_eq] at same
  obtain ⟨byteLength, same⟩ := putU64_free _ _ _ _ trivial trivial same
  obtain ⟨sha256, rests⟩ := putString_free _ _ _ _ atFirst atSecond same
  cases first
  cases second
  obtain rfl : _ = _ := byteLength
  obtain rfl : _ = _ := sha256
  exact ⟨rfl, rests⟩

theorem encodeRelease_free : PrefixFree ShortRelease (encodeRelease name) := by
  intro first second rest other atFirst atSecond same
  simp only [encodeRelease, List.append_assoc, List.append_cancel_left_eq] at same
  obtain ⟨label, same⟩ := putString_free _ _ _ _ atFirst.1 atSecond.1 same
  obtain ⟨sha256, rests⟩ := putString_free _ _ _ _ atFirst.2 atSecond.2 same
  cases first
  cases second
  obtain rfl : _ = _ := label
  obtain rfl : _ = _ := sha256
  exact ⟨rfl, rests⟩

end

theorem encodeEmitter_free : PrefixFree ShortEmitter encodeEmitter := by
  intro first second rest other atFirst atSecond same
  simp only [encodeEmitter, List.append_assoc] at same
  obtain ⟨packageVersion, same⟩ := fieldString_free _ _ _ _ _ atFirst.packageVersion atSecond.packageVersion same
  obtain ⟨sourceTag, same⟩ := fieldString_free _ _ _ _ _ atFirst.sourceTag atSecond.sourceTag same
  obtain ⟨object, same⟩ := fieldString_free _ _ _ _ _ atFirst.sourceTagObjectSha atSecond.sourceTagObjectSha same
  obtain ⟨commit, rests⟩ := fieldString_free _ _ _ _ _ atFirst.sourceCommitSha atSecond.sourceCommitSha same
  cases first
  cases second
  simp_all

theorem encodeInputSeal_free : PrefixFree ShortInput encodeInputSeal := by
  intro first second rest other atFirst atSecond same
  simp only [encodeInputSeal, List.append_assoc, List.append_cancel_left_eq] at same
  cases first with
  | absent =>
    cases second with
    | absent => exact ⟨rfl, List.tail_eq_of_cons_eq same⟩
    | present => exact absurd (List.head_eq_of_cons_eq same) (by decide)
  | present byteLength sha256 =>
    cases second with
    | absent => exact absurd (List.head_eq_of_cons_eq same) (by decide)
    | present byteLength' sha256' =>
      have behindTag := List.tail_eq_of_cons_eq same
      simp only [List.append_eq, List.append_assoc] at behindTag
      obtain ⟨rfl, behindLength⟩ := putU64_free _ _ _ _ trivial trivial behindTag
      obtain ⟨rfl, rests⟩ := putString_free _ _ _ _ atFirst atSecond behindLength
      exact ⟨rfl, rests⟩

theorem encodeTermination_free : PrefixFree (fun _ => True) encodeTermination := by
  intro first second rest other _ _ same
  simp only [encodeTermination, List.append_assoc, List.append_cancel_left_eq] at same
  cases first with
  | exited code =>
    cases second with
    | exited code' =>
      simp only [List.cons_append, List.nil_append, List.cons.injEq, true_and] at same
      exact ⟨by rw [same.1], same.2⟩
    | signaled => exact absurd (List.head_eq_of_cons_eq same) (by decide)
  | signaled signal coreDumped =>
    cases second with
    | exited => exact absurd (List.head_eq_of_cons_eq same) (by decide)
    | signaled signal' coreDumped' =>
      simp only [List.cons_append, List.nil_append, List.cons.injEq, true_and] at same
      obtain ⟨rfl, flag, rests⟩ := same
      cases coreDumped <;> cases coreDumped' <;> simp_all

theorem encodeManifestEntry_free : PrefixFree ShortEntry encodeManifestEntry := by
  intro first second rest other atFirst atSecond same
  simp only [encodeManifestEntry, List.append_assoc] at same
  obtain ⟨ordinal, same⟩ := putU64_free _ _ _ _ trivial trivial same
  obtain ⟨role, same⟩ := putString_free _ _ _ _ atFirst.role atSecond.role same
  obtain ⟨format, same⟩ := putString_free _ _ _ _ atFirst.format atSecond.format same
  obtain ⟨path, same⟩ := putString_free _ _ _ _ atFirst.relativePathLowerHex atSecond.relativePathLowerHex same
  obtain ⟨byteLength, same⟩ := putU64_free _ _ _ _ trivial trivial same
  obtain ⟨sha256, same⟩ := putString_free _ _ _ _ atFirst.sha256 atSecond.sha256 same
  obtain ⟨dev, same⟩ := putU64_free _ _ _ _ trivial trivial same
  obtain ⟨ino, rests⟩ := putU64_free _ _ _ _ trivial trivial same
  have inode : first.inode = second.inode := by
    cases h : first.inode
    cases h' : second.inode
    simp_all
  cases first
  cases second
  simp_all

theorem nonceLabel_injective : Function.Injective AssertedNonceSource.label := by
  intro first second same
  cases first <;> cases second <;> first | rfl | exact absurd same (by decide)

theorem shortNonceLabel (source : AssertedNonceSource) : ShortString source.label := by
  unfold ShortString
  cases source <;> decide

theorem parentLabel_injective : Function.Injective AssertedParentReceipt.label := by
  intro first second same
  cases first <;> cases second <;> first | rfl | exact absurd same (by decide)

theorem shortParentLabel (parent : AssertedParentReceipt) : ShortString parent.label := by
  unfold ShortString
  cases parent <;> decide

theorem parentField_free (name : String) : PrefixFree (fun _ => True) fun parent : AssertedParentReceipt => fieldString name parent.label := by
  intro first second rest other _ _ same
  obtain ⟨labels, rests⟩ := fieldString_free name _ _ _ _ (shortParentLabel first) (shortParentLabel second) same
  exact ⟨parentLabel_injective labels, rests⟩

theorem shortModeLabel (mode : FreshExecMode) : ShortString mode.label := by
  unfold ShortString
  cases mode
  decide

theorem shortProfileLabel (profile : CaptureProfile) : ShortString profile.label := by
  unfold ShortString
  cases profile
  decide

theorem encodeNonce_injective {first second : AssertedNonceSource} {nonce nonce' : String} (atFirst : ShortString nonce)
    (atSecond : ShortString nonce') (same : encodeNonce first.label nonce = encodeNonce second.label nonce') :
    first = second ∧ nonce = nonce' := by
  obtain ⟨labels, same⟩ := fieldString_free _ _ _ _ _ (shortNonceLabel first) (shortNonceLabel second) same
  exact ⟨nonceLabel_injective labels, (fieldString_free _).injective atFirst atSecond same⟩

section

variable {format format' version version' evidence evidence' : String} {rest other : List UInt8}

theorem encodeCommon_free (atFirst : ShortString format ∧ ShortString version ∧ ShortString evidence)
    (atSecond : ShortString format' ∧ ShortString version' ∧ ShortString evidence')
    (same : encodeCommon format version evidence ++ rest = encodeCommon format' version' evidence' ++ other) :
    (format = format' ∧ version = version' ∧ evidence = evidence') ∧ rest = other := by
  simp only [encodeCommon, List.append_assoc] at same
  obtain ⟨formats, same⟩ := fieldString_free _ _ _ _ _ atFirst.1 atSecond.1 same
  obtain ⟨versions, same⟩ := fieldString_free _ _ _ _ _ atFirst.2.1 atSecond.2.1 same
  obtain ⟨evidences, rests⟩ := fieldString_free _ _ _ _ _ atFirst.2.2 atSecond.2.2 same
  exact ⟨⟨formats, versions, evidences⟩, rests⟩

end

theorem SyntheticFixtureReceipt.encode_injective {first second : SyntheticFixtureReceipt} (atFirst : ShortSynthetic first)
    (atSecond : ShortSynthetic second) (same : first.encode = second.encode) : first = second := by
  simp only [SyntheticFixtureReceipt.encode, List.append_cancel_left_eq] at same
  obtain ⟨common, same⟩ := encodeCommon_free ⟨atFirst.receiptFormat, atFirst.receiptVersion, atFirst.evidenceClass⟩
    ⟨atSecond.receiptFormat, atSecond.receiptVersion, atSecond.evidenceClass⟩ same
  obtain ⟨emitter, same⟩ := encodeEmitter_free _ _ _ _ atFirst.emitter atSecond.emitter same
  obtain ⟨length, same⟩ := fieldU64_free _ _ _ _ _ trivial trivial same
  obtain ⟨digest, same⟩ := fieldString_free _ _ _ _ _ atFirst.fullJsonlDigest atSecond.fullJsonlDigest same
  obtain ⟨recordCount, same⟩ := fieldU64_free _ _ _ _ _ trivial trivial same
  obtain ⟨raw, same⟩ := encodeSeal_free _ _ _ _ _ atFirst.rawCaptureSeal atSecond.rawCaptureSeal same
  obtain ⟨manifest, same⟩ := encodeNamedBinding_free _ _ _ _ _ atFirst.fixtureSpecManifest atSecond.fixtureSpecManifest same
  obtain ⟨source, nonce⟩ := encodeNonce_injective atFirst.blindingNonceLowerHex atSecond.blindingNonceLowerHex same
  cases first
  cases second
  simp_all

theorem SanitizedDerivedCaptureReceipt.encode_injective {first second : SanitizedDerivedCaptureReceipt} (atFirst : ShortSanitized first)
    (atSecond : ShortSanitized second) (same : first.encode = second.encode) : first = second := by
  simp only [SanitizedDerivedCaptureReceipt.encode, List.append_cancel_left_eq] at same
  obtain ⟨common, same⟩ := encodeCommon_free ⟨atFirst.receiptFormat, atFirst.receiptVersion, atFirst.evidenceClass⟩
    ⟨atSecond.receiptFormat, atSecond.receiptVersion, atSecond.evidenceClass⟩ same
  obtain ⟨parent, same⟩ := parentField_free _ _ _ _ _ trivial trivial same
  obtain ⟨origin, same⟩ := fieldString_free _ _ _ _ _ atFirst.assertedOriginEvidenceClass atSecond.assertedOriginEvidenceClass same
  obtain ⟨commitment, same⟩ := fieldString_free _ _ _ _ _ atFirst.parentReceiptCommitment atSecond.parentReceiptCommitment same
  obtain ⟨parentLength, same⟩ := fieldU64_free _ _ _ _ _ trivial trivial same
  obtain ⟨parentDigest, same⟩ := fieldString_free _ _ _ _ _ atFirst.parentFullJsonlDigest atSecond.parentFullJsonlDigest same
  obtain ⟨parentRaw, same⟩ := encodeSeal_free _ _ _ _ _ atFirst.parentRawCaptureSeal atSecond.parentRawCaptureSeal same
  obtain ⟨policy, same⟩ := encodeNamedBinding_free _ _ _ _ _ atFirst.sanitizerPolicy atSecond.sanitizerPolicy same
  obtain ⟨artifact, same⟩ := encodeNamedBinding_free _ _ _ _ _ atFirst.sanitizerArtifact atSecond.sanitizerArtifact same
  obtain ⟨length, same⟩ := fieldU64_free _ _ _ _ _ trivial trivial same
  obtain ⟨digest, same⟩ := fieldString_free _ _ _ _ _ atFirst.derivedFullJsonlDigest atSecond.derivedFullJsonlDigest same
  obtain ⟨raw, same⟩ := encodeSeal_free _ _ _ _ _ atFirst.derivedRawCaptureSeal atSecond.derivedRawCaptureSeal same
  obtain ⟨source, nonce⟩ := encodeNonce_injective atFirst.blindingNonceLowerHex atSecond.blindingNonceLowerHex same
  cases first
  cases second
  simp_all

theorem ProcessCaptureReceipt.encode_injective {first second : ProcessCaptureReceipt} (atFirst : ShortProcess first)
    (atSecond : ShortProcess second) (same : first.encode = second.encode) : first = second := by
  simp only [ProcessCaptureReceipt.encode, List.append_cancel_left_eq] at same
  obtain ⟨common, same⟩ := encodeCommon_free ⟨atFirst.receiptFormat, atFirst.receiptVersion, atFirst.evidenceClass⟩
    ⟨atSecond.receiptFormat, atSecond.receiptVersion, atSecond.evidenceClass⟩ same
  obtain ⟨emitter, same⟩ := encodeEmitter_free _ _ _ _ atFirst.emitter atSecond.emitter same
  obtain ⟨executable, same⟩ := fieldString_free _ _ _ _ _ atFirst.executableSha256 atSecond.executableSha256 same
  obtain ⟨executableInode, same⟩ := encodeInode_free _ _ _ _ _ trivial trivial same
  obtain ⟨execution, same⟩ := fieldString_free _ _ _ _ _ atFirst.executableExecutionBinding atSecond.executableExecutionBinding same
  obtain ⟨opened, same⟩ := fieldString_free _ _ _ _ _ atFirst.artifactOpenDiscipline atSecond.artifactOpenDiscipline same
  obtain ⟨workspace, same⟩ := fieldString_free _ _ _ _ _ atFirst.workspaceExecutionDiscipline atSecond.workspaceExecutionDiscipline same
  obtain ⟨argumentCount, same⟩ := fieldU64_free _ _ _ _ _ trivial trivial same
  obtain ⟨totalBytes, same⟩ := fieldU64_free _ _ _ _ _ trivial trivial same
  obtain ⟨arguments, same⟩ := fieldLen_flatMap _ putString_free atFirst.argv.1 atSecond.argv.1 atFirst.argv.2 atSecond.argv.2 same
  obtain ⟨-, same⟩ := fieldString_free _ _ _ _ _ (shortModeLabel _) (shortModeLabel _) same
  obtain ⟨-, same⟩ := fieldString_free _ _ _ _ _ (shortProfileLabel _) (shortProfileLabel _) same
  obtain ⟨stdin, same⟩ := encodeInputSeal_free _ _ _ _ atFirst.stdin atSecond.stdin same
  obtain ⟨termination, same⟩ := encodeTermination_free _ _ _ _ trivial trivial same
  obtain ⟨stdout, same⟩ := encodeStream_free _ _ _ _ _ atFirst.stdout atSecond.stdout same
  obtain ⟨stderr, same⟩ := encodeStream_free _ _ _ _ _ atFirst.stderr atSecond.stderr same
  obtain ⟨recordCount, same⟩ := fieldU64_free _ _ _ _ _ trivial trivial same
  obtain ⟨raw, same⟩ := encodeSeal_free _ _ _ _ _ atFirst.rawCaptureSeal atSecond.rawCaptureSeal same
  obtain ⟨tool, same⟩ := encodeNamedBinding_free _ _ _ _ _ atFirst.captureTool atSecond.captureTool same
  obtain ⟨toolFile, same⟩ := fieldString_free _ _ _ _ _ atFirst.captureToolFile atSecond.captureToolFile same
  obtain ⟨toolInode, same⟩ := encodeInode_free _ _ _ _ _ trivial trivial same
  obtain ⟨profile, same⟩ := encodeNamedBinding_free _ _ _ _ _ atFirst.captureProfileArtifact atSecond.captureProfileArtifact same
  obtain ⟨entries, same⟩ := fieldLen_flatMap _ encodeManifestEntry_free atFirst.workspaceCount atSecond.workspaceCount
    atFirst.workspaceManifest atSecond.workspaceManifest same
  obtain ⟨tree, same⟩ := fieldString_free _ _ _ _ _ atFirst.workspaceTreeDigest atSecond.workspaceTreeDigest same
  obtain ⟨asset, same⟩ := encodeRelease_free _ _ _ _ _ atFirst.releaseAsset atSecond.releaseAsset same
  obtain ⟨bundle, same⟩ := encodeRelease_free _ _ _ _ _ atFirst.sigstoreBundle atSecond.sigstoreBundle same
  obtain ⟨verification, same⟩ := fieldString_free _ _ _ _ _ atFirst.sigstoreVerification atSecond.sigstoreVerification same
  obtain ⟨source, nonce⟩ := encodeNonce_injective atFirst.blindingNonceLowerHex atSecond.blindingNonceLowerHex same
  have argv := ArgvBytes.ext argumentCount arguments totalBytes
  have captureTool := ExecutedArtifact.ext tool toolFile toolInode
  cases first
  cases second
  simp_all

theorem authority_apart {first second : String} (short : ShortString first ∧ ShortString second) (different : first ≠ second)
    {rest other : List UInt8} : fieldString "authority" first ++ rest ≠ fieldString "authority" second ++ other :=
  fun same => different (fieldString_free _ _ _ _ _ short.1 short.2 same).1

theorem canonicalBytes_injective {first second : InputAuthorityReceipt} (atFirst : ShortReceipt first) (atSecond : ShortReceipt second)
    (same : first.canonicalBytes = second.canonicalBytes) : first = second := by
  have synthetic : ShortString "synthetic-fixture" := by unfold ShortString; decide
  have process : ShortString "process-capture" := by unfold ShortString; decide
  have sanitized : ShortString "sanitized-derived-capture" := by unfold ShortString; decide
  replace same := List.append_cancel_left same
  cases first with
  | syntheticFixture receipt =>
    cases second with
    | syntheticFixture receipt' => rw [SyntheticFixtureReceipt.encode_injective atFirst atSecond same]
    | processCapture receipt' => exact absurd same (authority_apart ⟨synthetic, process⟩ (by decide))
    | sanitizedDerivedCapture receipt' => exact absurd same (authority_apart ⟨synthetic, sanitized⟩ (by decide))
  | processCapture receipt =>
    cases second with
    | syntheticFixture receipt' => exact absurd same (authority_apart ⟨process, synthetic⟩ (by decide))
    | processCapture receipt' => rw [ProcessCaptureReceipt.encode_injective atFirst atSecond same]
    | sanitizedDerivedCapture receipt' => exact absurd same (authority_apart ⟨process, sanitized⟩ (by decide))
  | sanitizedDerivedCapture receipt =>
    cases second with
    | syntheticFixture receipt' => exact absurd same (authority_apart ⟨sanitized, synthetic⟩ (by decide))
    | processCapture receipt' => exact absurd same (authority_apart ⟨sanitized, process⟩ (by decide))
    | sanitizedDerivedCapture receipt' => rw [SanitizedDerivedCaptureReceipt.encode_injective atFirst atSecond same]

def commitmentPreimage (authority : InputAuthorityReceipt) : List UInt8 :=
  hashEnvelope ++ hashFrame (Utf8.bytes receiptCommitmentDomain) ++ bigEndian 1 ++ [authority.canonicalBytes].flatMap hashFrame

theorem commitmentPreimage_injective {first second : InputAuthorityReceipt} (atFirst : ShortReceipt first) (atSecond : ShortReceipt second)
    (same : commitmentPreimage first = commitmentPreimage second) : first = second := by
  simp only [commitmentPreimage, List.append_cancel_left_eq, List.flatMap_cons, List.flatMap_nil, List.append_nil, hashFrame] at same
  exact canonicalBytes_injective atFirst atSecond (bigEndian_prefixFree _ _ _ _ trivial trivial same).2

theorem commitment_preimage {sha256 : List UInt8 → Digest} {first second : InputAuthorityReceipt}
    (same : first.commitment sha256 = second.commitment sha256) : sha256 (commitmentPreimage first) = sha256 (commitmentPreimage second) := by
  have hexes := (String.append_right_inj _).1 same
  exact Digest.eq_of_bytes (Hex.encode_injective hexes)

def blankFixture (source : AssertedNonceSource) : InputAuthorityReceipt :=
  .syntheticFixture ⟨"", "", "", ⟨"", "", "", ""⟩, 0, "", 0, ⟨0, ""⟩, ⟨"", "", ""⟩, source, ""⟩

end Legitimacy.CodexExec
