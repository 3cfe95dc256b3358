import Legitimacy.CodexExec.StreamValidation
import Legitimacy.LinuxOutput.FileSystem
import Legitimacy.Sha256

namespace Legitimacy.LinuxOutput

open Outcomes CodexExec

def outputMode : Nat := 0o600

def verifyChunkBytes : Nat := 64 * 1024

structure Snapshot where
  ino : Nat
  reader : Descriptor
  baseline : Stat
  expectedLen : Nat
  expectedSha256 : List UInt8

structure PreparedPublication where
  parentPath : Descriptor
  parentSync : Descriptor
  name : Name
  parentIdentity : Nat
  expectedUid : Nat

structure CommittedPublication where
  held : Descriptor
  parentPath : Descriptor
  parentSync : Descriptor
  name : Name
  identity : Nat
  metadata : Option Stat
  expectedUid : Nat

inductive CommitFailure
  | preLink (error : AdapterErrorCode)
  | postLink (committed : CommittedPublication) (error : AdapterErrorCode)

/-- A call whose failure is reported with one code. -/
def calling {α : Type} (code : AdapterErrorCode) (call : Calls Errno α) : Calls AdapterErrorCode α := orFail (fun _ => code) call

def isLinkProfileErrno (errno : Errno) : Bool := errno ∈ [.xdev, .notsup, .nosys, .inval]

def isProfileErrno (errno : Errno) : Bool := errno ∈ [.notsup, .nosys, .inval, .isdir]

def publicationErrno (errno : Errno) (profile : Bool) : AdapterErrorCode :=
  if profile || isProfileErrno errno then .unsupportedPublicationProfile else .outputPublish

structure ParsedOutputPath where
  absolute : Bool
  ancestors : List Name
  finalName : Name

def slash : UInt8 := 47

def dot : UInt8 := 46

def pathComponents (raw : List UInt8) : List Name := (raw.splitOn slash).filter fun segment => segment ≠ [] ∧ segment ≠ [dot]

def parseOutputPath (raw : List UInt8) : Except AdapterErrorCode ParsedOutputPath :=
  let names := pathComponents raw
  if raw = [] ∨ 0 ∈ raw then .error .unsafeOutputPath
  else if [dot, dot] ∈ names then .error .unsafeOutputPath
  else if raw.getLast? = some slash ∨ raw = [dot] ∨ raw = [dot, slash] ∨ [slash, dot] <:+ raw then .error .unsafeOutputPath
  else match names.getLast? with
    | none => .error .unsafeOutputPath
    | some finalName => .ok ⟨raw.head? = some slash, names.dropLast, finalName⟩

/-- The result of a check that makes no call. -/
def checked {α : Type} : Except AdapterErrorCode α → Calls AdapterErrorCode α
  | .ok value => pure value
  | .error code => throw code

def sameDirectory (left right : Stat) : Bool := right.kind = .directory ∧ left.ino = right.ino

def flagsAreExact (status : AccessMode × List OpenFlag) (access : AccessMode) (required : OpenFlag) (allowed : List OpenFlag) : Bool :=
  status.1 = access ∧ required ∈ status.2 ∧ status.2.all (· ∈ allowed)

def protectedAlias (stat : Stat) (guarded : List CommittedPublication) : Bool :=
  guarded.any fun publication => publication.identity = stat.ino

def inputAlias (stat : Stat) (inputs : List Snapshot) : Bool := inputs.any fun input => input.ino = stat.ino

/-- What a name that is already there is reported as. -/
def incumbentCode (stat : Stat) (inputs : List Snapshot) (guarded : List CommittedPublication) : AdapterErrorCode :=
  if stat.kind = .symlink then .outputSymlink
  else if protectedAlias stat guarded then .crossOutputAlias
  else if inputAlias stat inputs then .inputAlias
  else .outputExists

structure HeldExpectation where
  bytes : List UInt8
  hash : List UInt8
  uid : Nat
  links : Nat
  propertyCode : AdapterErrorCode
  contentCode : AdapterErrorCode

def temporaryPropertiesAreExact (stat : Stat) (currentUid expectedUid expectedLinks : Nat) : Bool :=
  stat.kind = .regularFile ∧ currentUid = expectedUid ∧ stat.uid = expectedUid ∧ stat.mode &&& 0o7777 = outputMode ∧ stat.nlink = expectedLinks

section

variable (host : Host)

def requireDirectory (stat : Stat) : Calls AdapterErrorCode Unit :=
  if stat.kind = .directory then pure ⟨⟩
  else if stat.kind = .symlink then throw .outputSymlink
  else throw .outputPublish

def walkAncestors (parent : Descriptor) : List Name → Calls AdapterErrorCode Descriptor
  | [] => pure parent
  | component :: rest => do
    let observed ← calling .outputPublish (statat host parent component)
    requireDirectory observed
    let opened ← calling .outputPublish (openDirectory host parent component [.path, .directory, .nofollow])
    let pinned ← calling .outputPublish (fstat host opened)
    require (sameDirectory observed pinned) .outputPublish
    walkAncestors opened rest

def verifySyncDirectory (directory : Descriptor) (expected : Nat) : Calls AdapterErrorCode Unit := do
  let stat ← calling .outputPublish (fstat host directory)
  let status ← calling .outputPublish (fcntlGetfl host directory)
  calling .outputPublish (fcntlGetfd host directory)
  require (stat.ino = expected ∧ stat.kind = .directory ∧
    flagsAreExact status .readOnly .directory [.directory, .nofollow, .largefile]) .unsupportedPublicationProfile

def preflightFinal (parent : Descriptor) (name : Name) (inputs : List Snapshot) (guarded : List CommittedPublication) :
    Calls AdapterErrorCode Unit := do
  match ← outcome (statat host parent name) with
  | .ok stat => throw (incumbentCode stat inputs guarded)
  | .error .noent => pure ⟨⟩
  | .error _ => throw .outputPublish

def classifyIncumbent (parent : Descriptor) (name : Name) (inputs : List Snapshot) (guarded : List CommittedPublication) :
    Calls AdapterErrorCode AdapterErrorCode := do
  match ← outcome (statat host parent name) with
  | .ok stat => pure (incumbentCode stat inputs guarded)
  | .error _ => pure .outputPublish

/-- Reads `expected` bytes in chunks. Every turn reads at least one byte, so their number bounds the turns. -/
def readLoop (code : AdapterErrorCode) (held : Descriptor) (expected : Nat) : Nat → List UInt8 → Calls AdapterErrorCode (List UInt8)
  | 0, bytes => pure bytes
  | turns + 1, bytes =>
    if expected ≤ bytes.length then pure bytes
    else do
      let chunk ← calling code (pread host held (min (expected - bytes.length) verifyChunkBytes) bytes.length)
      require (chunk ≠ []) code
      readLoop code held expected turns (bytes ++ chunk)

def verifyHeld (held : Descriptor) (expected : HeldExpectation) : Calls AdapterErrorCode Stat := do
  let before ← calling expected.contentCode (fstat host held)
  require (temporaryPropertiesAreExact before host.euid expected.uid expected.links) expected.propertyCode
  require (before.size = expected.bytes.length) expected.contentCode
  let bytes ← readLoop host expected.contentCode held expected.bytes.length expected.bytes.length []
  let eof ← calling expected.contentCode (pread host held 1 bytes.length)
  require (eof = [] ∧ bytes = expected.bytes ∧ Sha256.hash bytes = expected.hash) expected.contentCode
  let after ← calling expected.contentCode (fstat host held)
  require (before = after) expected.contentCode
  pure after

/-- Reads an input once more: neither its properties nor its bytes have changed. -/
def Snapshot.revalidate (input : Snapshot) : Calls AdapterErrorCode Unit := do
  let before ← calling .inputChanged (fstat host input.reader)
  require (before = input.baseline) .inputChanged
  let observed ← readLoop host .inputChanged input.reader input.expectedLen input.expectedLen []
  let eof ← calling .inputChanged (pread host input.reader 1 observed.length)
  let after ← calling .inputChanged (fstat host input.reader)
  require (eof = [] ∧ Sha256.hash observed = input.expectedSha256 ∧ after = input.baseline) .inputChanged

def revalidateInputs (inputs : List Snapshot) : Calls AdapterErrorCode Unit := inputs.forM (Snapshot.revalidate host)

def verifyFinalIdentity (parent : Descriptor) (name : Name) (expected : Nat) (expectedMetadata : Option Stat)
    (expectedUid expectedLen : Nat) : Calls AdapterErrorCode Unit := do
  let stat ← calling .outputIdentityUncertain (statat host parent name)
  require (stat.ino = expected ∧ temporaryPropertiesAreExact stat host.euid expectedUid 1 ∧ stat.size = expectedLen) .outputIdentityUncertain
  require (expectedMetadata.all (stat = ·)) .outputIdentityUncertain

def verifyProcSource (held : Descriptor) (expected : Nat) : Calls AdapterErrorCode Unit := do
  let stat ← calling .unsupportedPublicationProfile (statProcSource host held)
  require (stat.ino = expected ∧ stat.kind = .regularFile) .unsupportedPublicationProfile

def verifyTemporaryFlags (held : Descriptor) : Calls AdapterErrorCode Unit := do
  let status ← calling .outputPublish (fcntlGetfl host held)
  calling .outputPublish (fcntlGetfd host held)
  require (flagsAreExact status .readWrite .tmpfile [.tmpfile, .largefile]) .unsupportedPublicationProfile

end

section

variable (host : Host)

/-- The parent of an output: its directory, its identity and a second descriptor for the syncs. -/
def openParent (parsed : ParsedOutputPath) : Calls AdapterErrorCode (Descriptor × Descriptor × Nat) := do
  let start ← calling .outputPublish (openStart host parsed.absolute)
  let parentPath ← walkAncestors host start parsed.ancestors
  let parentStat ← calling .outputPublish (fstat host parentPath)
  let parentSync ← calling .outputPublish (reopen host parentPath [.directory, .nofollow])
  verifySyncDirectory host parentSync parentStat.ino
  pure (parentPath, parentSync, parentStat.ino)

def prepareWithHooks (output : List UInt8) (inputs : List Snapshot) (expectedUid : Nat) : Calls AdapterErrorCode PreparedPublication := do
  require (host.euid = expectedUid) .unsupportedPublicationProfile
  let parsed ← checked (parseOutputPath output)
  let (parentPath, parentSync, parentIdentity) ← openParent host parsed
  preflightFinal host parentPath parsed.finalName inputs []
  pure ⟨parentPath, parentSync, parsed.finalName, parentIdentity, expectedUid⟩

def writeLoop (held : Descriptor) : Nat → List UInt8 → Calls AdapterErrorCode Unit
  | 0, _ => pure ⟨⟩
  | turns + 1, remaining =>
    if remaining = [] then pure ⟨⟩
    else do
      let count ← calling .outputPublish (write host held remaining)
      require (count ≠ 0) .outputPublish
      writeLoop held turns (remaining.drop count)

def writeAll (held : Descriptor) (bytes : List UInt8) : Calls AdapterErrorCode Unit := writeLoop host held bytes.length bytes

/-- What is written before the output has a name: the anonymous file with its bytes, synced and verified. -/
def stageTemporary (prepared : PreparedPublication) (bytes : List UInt8) (inputs : List Snapshot) (guarded : List CommittedPublication) :
    Calls AdapterErrorCode Descriptor := do
  require (host.euid = prepared.expectedUid) .unsupportedPublicationProfile
  preflightFinal host prepared.parentPath prepared.name inputs guarded
  let held ← orFail (fun errno => publicationErrno errno (isProfileErrno errno)) (openTemporary host prepared.parentSync outputMode)
  verifyTemporaryFlags host held
  writeAll host held bytes
  calling .outputPublish (fchmod host held outputMode)
  let _ ← verifyHeld host held ⟨bytes, Sha256.hash bytes, prepared.expectedUid, 0, .unsupportedPublicationProfile, .outputPublish⟩
  calling .outputPublish (fsync host held)
  orFail (fun errno => publicationErrno errno (isProfileErrno errno)) (fsync host prepared.parentSync)
  pure held

/-- The last checks before the link, and the identity of the held file. -/
def verifyBeforeLink (prepared : PreparedPublication) (held : Descriptor) (inputs : List Snapshot) (guarded : List CommittedPublication)
    (guard : Calls AdapterErrorCode Unit) : Calls AdapterErrorCode Nat := do
  calling .unsupportedPublicationProfile (openProc host)
  let procfs ← calling .unsupportedPublicationProfile (fstatfsProc host)
  require (procfs = true) .unsupportedPublicationProfile
  let heldStat ← calling .outputPublish (fstat host held)
  verifyProcSource host held heldStat.ino
  preflightFinal host prepared.parentPath prepared.name inputs guarded
  guard
  pure heldStat.ino

def linkTemporary (prepared : PreparedPublication) (held : Descriptor) (inputs : List Snapshot) (guarded : List CommittedPublication) :
    Calls AdapterErrorCode Unit := do
  match ← outcome (linkat host held prepared.parentSync prepared.name) with
  | .ok _ => pure ⟨⟩
  | .error errno =>
    if errno = .exist then do
      let code ← classifyIncumbent host prepared.parentPath prepared.name inputs guarded
      throw code
    else throw (publicationErrno errno (isLinkProfileErrno errno))

/-- The integrity of a committed file: what `verifyHeld` finds is what was found right after the link. -/
def verifyIntegrity (committed : CommittedPublication) (bytes : List UInt8) : Calls AdapterErrorCode Stat := do
  let metadata ← verifyHeld host committed.held
    ⟨bytes, Sha256.hash bytes, committed.expectedUid, 1, .outputIntegrityUncertain, .outputIntegrityUncertain⟩
  require (committed.metadata = some metadata) .outputIntegrityUncertain
  pure metadata

/-- The metadata that the final name must have, from the two looks at the held file. -/
def expectedMetadata (committed : CommittedPublication) (integrity finalHeld : Except AdapterErrorCode Stat) :
    Except AdapterErrorCode (Option Stat) :=
  match integrity, finalHeld with
  | .ok integrityMetadata, .ok finalMetadata =>
    if integrityMetadata = finalMetadata ∧ committed.metadata = some finalMetadata then .ok (some finalMetadata)
    else .error .outputIdentityUncertain
  | .ok _, .error _ => .error .outputIdentityUncertain
  | .error _, .ok finalMetadata => .ok (some finalMetadata)
  | .error _, .error _ => .ok none

def isError {α : Type} : Except AdapterErrorCode α → Bool
  | .ok _ => false
  | .error _ => true

def postlinkChecks (committed : CommittedPublication) (bytes : List UInt8) : Calls AdapterErrorCode Unit := do
  let source ← outcome (verifyProcSource host committed.held committed.identity)
  let sync ← outcome (calling .durabilityUncertain (fsync host committed.parentSync))
  let integrity ← outcome (verifyIntegrity host committed bytes)
  let identity ← outcome do
    let finalHeld ← outcome (verifyHeld host committed.held
      ⟨bytes, Sha256.hash bytes, committed.expectedUid, 1, .outputIdentityUncertain, .outputIdentityUncertain⟩)
    let metadata ← checked (expectedMetadata committed integrity finalHeld)
    verifyFinalIdentity host committed.parentPath committed.name committed.identity metadata committed.expectedUid bytes.length
  require (!isError source && !isError identity) .outputIdentityUncertain
  require (!isError integrity) .outputIntegrityUncertain
  require (!isError sync) .durabilityUncertain

def commitWithHooks (prepared : PreparedPublication) (bytes : List UInt8) (inputs : List Snapshot) (guarded : List CommittedPublication)
    (guard : Calls AdapterErrorCode Unit) : Calls CommitFailure CommittedPublication := do
  let held ← orFail .preLink (stageTemporary host prepared bytes inputs guarded)
  let identity ← orFail .preLink (verifyBeforeLink host prepared held inputs guarded guard)
  orFail .preLink (linkTemporary host prepared held inputs guarded)
  let metadata ← outcome (fstat host held)
  let committed : CommittedPublication :=
    ⟨held, prepared.parentPath, prepared.parentSync, prepared.name, identity, metadata.toOption, prepared.expectedUid⟩
  orFail (.postLink committed) (postlinkChecks host committed bytes)
  pure committed

def revalidateCommitted (committed : CommittedPublication) (bytes : List UInt8) : Calls AdapterErrorCode Unit := do
  let integrity ← outcome (verifyIntegrity host committed bytes)
  let identity ← outcome (verifyFinalIdentity host committed.parentPath committed.name committed.identity committed.metadata
    committed.expectedUid bytes.length)
  require (host.euid = committed.expectedUid ∧ !isError identity) .outputIdentityUncertain
  require (!isError integrity) .outputIntegrityUncertain

end

end Legitimacy.LinuxOutput
