import Legitimacy.LinuxOutput.Publication

namespace Legitimacy.LinuxOutput

open Outcomes CodexExec

section

variable (host : Host)

def asciiName (text : String) : Name := text.toList.map fun character => UInt8.ofNat character.toNat

def randomName (front back : String) : Calls AdapterErrorCode Name := do
  let random ← calling .entropyUnavailable (getrandom host)
  require (random.all (· = 0) = false) .entropyUnavailable
  pure (asciiName front ++ asciiName (Hex.encode random) ++ asciiName back)

def rollbackQuarantineName : Calls AdapterErrorCode Name := randomName host ".rollback-" ".quarantine"

def verifyQuarantinedContent (publication : CommittedPublication) (bytes : List UInt8) : Calls AdapterErrorCode Unit := do
  let _ ← verifyHeld host publication.held
    ⟨bytes, Sha256.hash bytes, publication.expectedUid, 1, .outputRollbackUncertain, .outputRollbackUncertain⟩

/-- Moves the output to a fresh name and removes it from there. Every failure leaves the rollback uncertain. -/
def rollbackCommitted (publication : CommittedPublication) (bytes : List UInt8) : Calls AdapterErrorCode Unit :=
  orFail (fun _ => .outputRollbackUncertain) do
    let held ← calling .outputRollbackUncertain (fstat host publication.held)
    verifyFinalIdentity host publication.parentPath publication.name publication.identity publication.metadata publication.expectedUid
      held.size
    let quarantine ← rollbackQuarantineName host
    calling .outputRollbackUncertain (renameatNoreplace host publication.parentPath publication.name quarantine)
    verifyFinalIdentity host publication.parentPath quarantine publication.identity none publication.expectedUid held.size
    verifyQuarantinedContent host publication bytes
    verifyFinalIdentity host publication.parentPath quarantine publication.identity none publication.expectedUid held.size
    verifyQuarantinedContent host publication bytes
    calling .outputRollbackUncertain (unlinkat host publication.parentPath quarantine)
    calling .outputRollbackUncertain (fsync host publication.parentSync)

/-- Rolls all outputs back and says whether one of the rollbacks failed. -/
def rollbackLoop : List (CommittedPublication × List UInt8) → Bool → Calls AdapterErrorCode Bool
  | [], rollbackFailed => pure rollbackFailed
  | (publication, bytes) :: rest, rollbackFailed => do
    match ← outcome (rollbackCommitted host publication bytes) with
    | .ok _ => rollbackLoop rest rollbackFailed
    | .error _ => rollbackLoop rest true

def rollbackAfterError (committed : List (CommittedPublication × List UInt8)) (original : AdapterErrorCode) : Calls AdapterErrorCode Unit := do
  let rollbackFailed ← rollbackLoop host committed.reverse false
  throw (if rollbackFailed then .outputRollbackUncertain else original)

end

structure PublicationSpec where
  output : List UInt8
  bytes : List UInt8

def PreparedPublication.aliases (left right : PreparedPublication) : Bool :=
  left.parentIdentity = right.parentIdentity ∧ left.name = right.name

section

variable (host : Host)

def prepareAll (inputs : List Snapshot) : List PublicationSpec → Calls AdapterErrorCode (List PreparedPublication)
  | [] => pure []
  | publication :: rest => do
    let prepared ← prepareWithHooks host publication.output inputs host.euid
    let others ← prepareAll inputs rest
    pure (prepared :: others)

def rejectCrossOutputAlias : List PreparedPublication → Calls AdapterErrorCode Unit
  | [] => pure ⟨⟩
  | left :: rest => do
    require (rest.any left.aliases = false) .crossOutputAlias
    rejectCrossOutputAlias rest

def revalidateAll (committed : List (CommittedPublication × List UInt8)) : Calls AdapterErrorCode Unit :=
  committed.forM fun (publication, bytes) => revalidateCommitted host publication bytes

def commitLoop (inputs : List Snapshot) (lateVerifier : Except AdapterErrorCode Unit) :
    List (PreparedPublication × List UInt8) → List (CommittedPublication × List UInt8) → Calls AdapterErrorCode Unit
  | [], committed => do
    let final ← outcome do
      checked lateVerifier
      revalidateInputs host inputs
      revalidateAll host committed
    match final with
    | .ok _ => pure ⟨⟩
    | .error original => rollbackAfterError host committed original
  | (prepared, bytes) :: rest, committed => do
    let result ← outcome (commitWithHooks host prepared bytes inputs (committed.map Prod.fst) do
      revalidateInputs host inputs
      revalidateAll host committed)
    match result with
    | .ok publication => commitLoop inputs lateVerifier rest (committed ++ [(publication, bytes)])
    | .error (.preLink original) => rollbackAfterError host committed original
    | .error (.postLink publication original) => rollbackAfterError host (committed ++ [(publication, bytes)]) original

def publishSet (publications : List PublicationSpec) (inputs : List Snapshot) (lateVerifier : Except AdapterErrorCode Unit) :
    Calls AdapterErrorCode Unit := do
  require (publications ≠ []) .outputPublish
  let prepared ← prepareAll host inputs publications
  rejectCrossOutputAlias prepared
  revalidateInputs host inputs
  commitLoop host inputs lateVerifier (prepared.zip (publications.map PublicationSpec.bytes)) []

end

def setDirectoryMode : Nat := 0o700

def stagingAttempts : Nat := 8

def validRelativeName (name : Name) : Bool := name ≠ [] ∧ name ≠ [dot] ∧ name ≠ [dot, dot] ∧ 0 ∉ name ∧ slash ∉ name

def validateMembers (members : List (Name × List UInt8)) : Calls AdapterErrorCode Unit :=
  require (members ≠ [] ∧ members.all (fun member => validRelativeName member.1) ∧ (members.map Prod.fst).Nodup) .unsafeOutputPath

structure RelativeSetFailure where
  committed : List CommittedPublication
  error : AdapterErrorCode

section

variable (host : Host)

def prepareRelative (directory : Descriptor) (name : Name) (inputs : List Snapshot) (expectedUid : Nat) :
    Calls AdapterErrorCode PreparedPublication := do
  require (host.euid = expectedUid ∧ validRelativeName name) .unsafeOutputPath
  let parentStat ← calling .outputPublish (fstat host directory)
  let parentPath ← calling .outputPublish (reopen host directory [.path, .directory, .nofollow])
  let parentSync ← calling .outputPublish (reopen host directory [.directory, .nofollow])
  let opened ← calling .outputPublish (fstat host parentPath)
  require (opened.ino = parentStat.ino) .outputPublish
  verifySyncDirectory host parentSync parentStat.ino
  preflightFinal host parentPath name inputs []
  pure ⟨parentPath, parentSync, name, parentStat.ino, expectedUid⟩

def prepareMembers (directory : Descriptor) (inputs : List Snapshot) :
    List (Name × List UInt8) → Calls AdapterErrorCode (List (PreparedPublication × List UInt8))
  | [] => pure []
  | (name, bytes) :: rest => do
    let prepared ← prepareRelative host directory name inputs host.euid
    let others ← prepareMembers directory inputs rest
    pure ((prepared, bytes) :: others)

def commitMembers (inputs : List Snapshot) :
    List (PreparedPublication × List UInt8) → List CommittedPublication → Calls RelativeSetFailure (List CommittedPublication)
  | [], committed => pure committed
  | (prepared, bytes) :: rest, committed => do
    match ← outcome (commitWithHooks host prepared bytes inputs committed (pure ⟨⟩)) with
    | .ok publication => commitMembers inputs rest (committed ++ [publication])
    | .error (.preLink error) => throw ⟨committed, error⟩
    | .error (.postLink publication error) => throw ⟨committed ++ [publication], error⟩

def publishRelativeSet (directory : Descriptor) (publications : List (Name × List UInt8)) (inputs : List Snapshot)
    (lateVerifier : Except AdapterErrorCode Unit) : Calls RelativeSetFailure (List CommittedPublication) := do
  let prepared ← orFail (RelativeSetFailure.mk []) (prepareMembers host directory inputs publications)
  orFail (RelativeSetFailure.mk []) (revalidateInputs host inputs)
  let committed ← commitMembers host inputs prepared []
  orFail (RelativeSetFailure.mk committed) (checked lateVerifier)
  orFail (RelativeSetFailure.mk committed) (revalidateInputs host inputs)
  orFail (RelativeSetFailure.mk committed) (revalidateAll host (committed.zip (publications.map Prod.snd)))
  pure committed

def exactStagingProperties (stat : Stat) : Bool :=
  stat.kind = .directory ∧ stat.uid = host.euid ∧ stat.mode &&& 0o7777 = setDirectoryMode

def createStagingDirectory (parent : Descriptor) : Nat → Calls AdapterErrorCode Name
  | 0 => throw .outputPublish
  | attempts + 1 => do
    let name ← randomName host ".legitimacy-output-set-" ".staging"
    match ← outcome (mkdirat host parent name setDirectoryMode) with
    | .ok _ => pure name
    | .error errno => if errno = .exist then createStagingDirectory parent attempts else throw .outputPublish

def openStaging (parent : Descriptor) (stagingName : Name) : Calls AdapterErrorCode Descriptor := do
  let observed ← calling .outputPublish (statat host parent stagingName)
  let staging ← calling .outputPublish (openDirectory host parent stagingName [.directory, .nofollow])
  let stagingStat ← calling .outputPublish (fstat host staging)
  require (sameDirectory observed stagingStat ∧ exactStagingProperties host stagingStat) .outputPublish
  pure staging

def verifyStagingName (parent : Descriptor) (name : Name) (expected : Nat) : Calls AdapterErrorCode Unit := do
  let stat ← calling .outputIdentityUncertain (statat host parent name)
  require (stat.ino = expected ∧ exactStagingProperties host stat) .outputIdentityUncertain

def verifyMember (expected : Nat) (publication : CommittedPublication) (name : Name) (bytes : List UInt8) :
    Calls AdapterErrorCode Unit := do
  let parentStat ← calling .outputIdentityUncertain (fstat host publication.parentPath)
  require (publication.name = name ∧ parentStat.ino = expected) .outputIdentityUncertain
  revalidateCommitted host publication bytes

def verifyStagingDirectory (staging : Descriptor) (expected : Nat) (members : List (Name × List UInt8))
    (committed : List CommittedPublication) : Calls AdapterErrorCode Unit := do
  let stat ← calling .outputIdentityUncertain (fstat host staging)
  require (stat.ino = expected ∧ exactStagingProperties host stat) .outputIdentityUncertain
  let inventory ← calling .outputIdentityUncertain (reopen host staging [.directory, .nofollow])
  let names ← calling .outputIdentityUncertain (readDirectory host inventory)
  require (names ⊆ members.map Prod.fst ∧ members.map Prod.fst ⊆ names ∧ committed.length = members.length) .outputIdentityUncertain
  (committed.zip members).forM fun (publication, name, bytes) => verifyMember host expected publication name bytes

/-- The proof that the staging directory is complete and the final name free, once. -/
def proveStaging (parent : Descriptor) (finalName stagingName : Name) (staging : Descriptor) (stagingIdentity : Nat)
    (members : List (Name × List UInt8)) (committed : List CommittedPublication) (inputs : List Snapshot) :
    Calls AdapterErrorCode Unit := do
  verifyStagingName host parent stagingName stagingIdentity
  verifyStagingDirectory host staging stagingIdentity members committed
  revalidateInputs host inputs
  preflightFinal host parent finalName inputs []

def renameStaging (parent : Descriptor) (stagingName finalName : Name) (inputs : List Snapshot) : Calls AdapterErrorCode Unit := do
  match ← outcome (renameatNoreplace host parent stagingName finalName) with
  | .ok _ => pure ⟨⟩
  | .error errno =>
    if errno = .exist then do
      let code ← classifyIncumbent host parent finalName inputs []
      throw code
    else throw (publicationErrno errno (isLinkProfileErrno errno))

def finalizeStaging (parent parentSync : Descriptor) (finalName stagingName : Name) (staging : Descriptor) (stagingIdentity : Nat)
    (members : List (Name × List UInt8)) (committed : List CommittedPublication) (inputs : List Snapshot) :
    Calls AdapterErrorCode Unit := do
  proveStaging host parent finalName stagingName staging stagingIdentity members committed inputs
  calling .outputPublish (fsync host staging)
  calling .outputPublish (fsync host parentSync)
  proveStaging host parent finalName stagingName staging stagingIdentity members committed inputs
  proveStaging host parent finalName stagingName staging stagingIdentity members committed inputs
  renameStaging host parent stagingName finalName inputs
  let _ ← outcome (fsync host parentSync)

def verifyEmptyStagingDirectory (staging : Descriptor) (expected : Nat) : Calls AdapterErrorCode Unit := do
  let stat ← calling .outputRollbackUncertain (fstat host staging)
  require (stat.ino = expected ∧ exactStagingProperties host stat) .outputRollbackUncertain
  let inventory ← calling .outputRollbackUncertain (reopen host staging [.directory, .nofollow])
  let names ← calling .outputRollbackUncertain (readDirectory host inventory)
  require (names = []) .outputRollbackUncertain

def removeMember (publication : CommittedPublication) (name : Name) (bytes : List UInt8) : Calls AdapterErrorCode Unit := do
  revalidateCommitted host publication bytes
  let quarantine ← randomName host ".rollback-" ".quarantine"
  calling .outputRollbackUncertain (renameatNoreplace host publication.parentPath name quarantine)
  verifyFinalIdentity host publication.parentPath quarantine publication.identity none publication.expectedUid bytes.length
  verifyQuarantinedContent host publication bytes
  calling .outputRollbackUncertain (unlinkat host publication.parentPath quarantine)

def cleanupStaging (parent parentSync : Descriptor) (stagingName : Name) (staging : Descriptor) (stagingIdentity : Nat)
    (members : List (Name × List UInt8)) (committed : List CommittedPublication) : Calls AdapterErrorCode Unit :=
  orFail (fun _ => .outputRollbackUncertain) do
    verifyStagingName host parent stagingName stagingIdentity
    (committed.zip members).forM fun (publication, name, bytes) => removeMember host publication name bytes
    verifyEmptyStagingDirectory host staging stagingIdentity
    verifyStagingName host parent stagingName stagingIdentity
    verifyEmptyStagingDirectory host staging stagingIdentity
    calling .outputRollbackUncertain (unlinkatDirectory host parent stagingName)
    calling .outputRollbackUncertain (fsync host parentSync)

/-- The staging directory is filled and renamed to the final name; a failure empties and removes it. -/
def publishStaging (parentPath parentSync : Descriptor) (finalName stagingName : Name) (staging : Descriptor)
    (members : List (Name × List UInt8)) (inputs : List Snapshot) (lateVerifier : Except AdapterErrorCode Unit) :
    Calls AdapterErrorCode Unit := do
  let published ← outcome (publishRelativeSet host staging members inputs lateVerifier)
  let (committed, publicationResult) ← match published with
    | .ok publications => do
      let result ← outcome (finalizeStaging host parentPath parentSync finalName stagingName staging staging.inode members publications inputs)
      pure (publications, result)
    | .error failure => pure (failure.committed, .error failure.error)
  match publicationResult with
  | .ok _ => pure ⟨⟩
  | .error code => do
    cleanupStaging host parentPath parentSync stagingName staging staging.inode members committed
    throw code

/-- What comes before the staging directory: the parent is opened and the final name free. -/
def prepareDirectorySet (outputSet : List UInt8) (members : List (Name × List UInt8)) (inputs : List Snapshot) :
    Calls AdapterErrorCode (Descriptor × Descriptor × Name) := do
  validateMembers members
  let parsed ← checked (parseOutputPath outputSet)
  let start ← calling .outputPublish (openStart host parsed.absolute)
  let parentPath ← walkAncestors host start parsed.ancestors
  let parentSync ← calling .outputPublish (reopen host parentPath [.directory, .nofollow])
  let parentStat ← calling .outputPublish (fstat host parentPath)
  verifySyncDirectory host parentSync parentStat.ino
  preflightFinal host parentPath parsed.finalName inputs []
  revalidateInputs host inputs
  pure (parentPath, parentSync, parsed.finalName)

def publishDirectorySet (outputSet : List UInt8) (members : List (Name × List UInt8)) (inputs : List Snapshot)
    (lateVerifier : Except AdapterErrorCode Unit) : Calls AdapterErrorCode Unit := do
  let (parentPath, parentSync, finalName) ← prepareDirectorySet host outputSet members inputs
  let stagingName ← createStagingDirectory host parentPath stagingAttempts
  let staging ← openStaging host parentPath stagingName
  publishStaging host parentPath parentSync finalName stagingName staging members inputs lateVerifier

end

end Legitimacy.LinuxOutput
