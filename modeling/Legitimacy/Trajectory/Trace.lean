import Legitimacy.Hex
import Legitimacy.PrefixCode
import Legitimacy.Standard

namespace Legitimacy.Trajectory

open PrefixCode

def schemaId : String := "legitimacy.trajectory.trace"
def schemaVersion : String := "0"

def maxTraceJsonInputBytes : Nat := 8 * 1024 * 1024
def maxTraceCompactJsonBytes : Nat := 8 * 1024 * 1024
def maxJsonKeysPerObject : Nat := 1024
def maxJsonKeyBytesPerObject : Nat := 64 * 1024
def maxRawCaptureBytes : Nat := 64 * 1024 * 1024
def maxRawRecordBytes : Nat := 8 * 1024 * 1024
def maxRawRecords : Nat := 10000
def maxEvents : Nat := 10000
def maxPayloadFieldsPerObject : Nat := 256
def maxPayloadFieldsTotal : Nat := 50000
def maxPayloadContentBytesTotal : Nat := 8 * 1024 * 1024
def maxNormalizedNodes : Nat := 100000
def maxNormalizedDepth : Nat := 32
def maxNormalizedArrayItems : Nat := 1024
def maxEvidenceLocators : Nat := 100000
def maxDerivationInputs : Nat := 1024
def maxDistinctCitedBytes : Nat := 16 * 1024 * 1024
def maxIdentifierBytes : Nat := 128
def maxNormalizedStringScalars : Nat := 16384
def maxNormalizedStringBytes : Nat := 65536
def maxIntegerDigits : Nat := 1024
def maxEvidenceReasonBytes : Nat := 1024

structure ArtifactBinding where
  identity : String
  version : String
  hash : String
  deriving DecidableEq

structure RawCaptureSeal where
  recordCount : UInt64
  digest : String
  deriving DecidableEq

structure SourceLocator where
  recordIndex : UInt64
  byteOffset : UInt64
  byteLength : UInt64
  digest : String
  deriving DecidableEq

inductive Evidence
  | citesRawRange (locator : SourceLocator)
  | declaredDerivationBinding (rule : ArtifactBinding) (sourceInputs : List SourceLocator)
  | unavailable (reason : String)
  deriving DecidableEq

structure Evidenced (α : Type) where
  value : Option α
  evidence : Evidence
  deriving DecidableEq

inductive NormalizedEventKind
  | actionRequest | actionResult | observation | message | lifecycle
  deriving DecidableEq

def NormalizedEventKind.label : NormalizedEventKind → String
  | .actionRequest => "action-request"
  | .actionResult => "action-result"
  | .observation => "observation"
  | .message => "message"
  | .lifecycle => "lifecycle"

/-- A normalized value before the fields of its objects are known to be in key order. -/
inductive NormalizedTree
  | null
  | boolean (value : Bool)
  | integer (digits : String)
  | string (text : String)
  | array (values : List NormalizedTree)
  | object (fields : List (String × NormalizedTree))

mutual

/-- The fields of every object are those of a `BTreeMap`. -/
def NormalizedTree.Ordered : NormalizedTree → Prop
  | .null => True
  | .boolean _ => True
  | .integer _ => True
  | .string _ => True
  | .array values => NormalizedTree.AllOrdered values
  | .object fields => (fields.map Prod.fst).Pairwise (· < ·) ∧ NormalizedTree.FieldsOrdered fields

def NormalizedTree.AllOrdered : List NormalizedTree → Prop
  | [] => True
  | value :: rest => value.Ordered ∧ NormalizedTree.AllOrdered rest

def NormalizedTree.FieldsOrdered : List (String × NormalizedTree) → Prop
  | [] => True
  | (_, value) :: rest => value.Ordered ∧ NormalizedTree.FieldsOrdered rest

end

structure NormalizedValue where
  tree : NormalizedTree
  ordered : tree.Ordered

structure RawRecordReference where
  recordIndex : UInt64
  digest : String
  deriving DecidableEq

structure AgentActionEvent where
  eventId : Evidenced String
  sequenceIndex : Evidenced UInt64
  kind : Evidenced NormalizedEventKind
  sourceItemId : Option (Evidenced String)
  rawRecord : RawRecordReference
  payload : BTreeMap String (Evidenced NormalizedValue)

structure TrajectoryTrace where
  schema : ArtifactBinding
  runId : Evidenced String
  adapter : ArtifactBinding
  policy : ArtifactBinding
  rawCapture : RawCaptureSeal
  events : List AgentActionEvent

/-- The declarations against which a trace is validated. The set of rules is only asked for its members. -/
structure TrajectoryValidationContext where
  adapter : ArtifactBinding
  policy : ArtifactBinding
  rawCapture : RawCaptureSeal
  allowedDerivations : List ArtifactBinding

structure Digest where
  bytes : List UInt8
  length_eq : bytes.length = 32

theorem Digest.eq_of_bytes {first second : Digest} (same : first.bytes = second.bytes) : first = second := by
  cases first
  cases second
  obtain rfl : _ = _ := same
  rfl

section

variable (sha256 : List UInt8 → Digest)

def hashEnvelope : List UInt8 := Utf8.bytes "legitimacy.trajectory.hash.v0\x00"

def hashFrame (bytes : List UInt8) : List UInt8 := bigEndian (.ofNat bytes.length) ++ bytes

def framedSha256 (domain : String) (components : List (List UInt8)) : String :=
  "sha256:" ++ Hex.encode (sha256 (hashEnvelope ++ hashFrame (Utf8.bytes domain) ++ bigEndian (.ofNat components.length) ++
    components.flatMap hashFrame)).bytes

def artifactDigest (bytes : List UInt8) : String := framedSha256 sha256 "legitimacy.trajectory.artifact.v0" [bytes]

def rawRecordDigest (bytes : List UInt8) : String := framedSha256 sha256 "legitimacy.trajectory.raw-record.v0" [bytes]

def sourceLocatorDigest (bytes : List UInt8) : String := framedSha256 sha256 "legitimacy.trajectory.source-locator.v0" [bytes]

def rawCaptureSeal (rawRecords : List (List UInt8)) : RawCaptureSeal :=
  ⟨.ofNat rawRecords.length, framedSha256 sha256 "legitimacy.trajectory.raw-capture.v0" rawRecords⟩

/-- `schemaBytes` is the text of `schemas/trajectory-v0.schema.json`. -/
def schemaBinding (schemaBytes : List UInt8) : ArtifactBinding := ⟨schemaId, schemaVersion, artifactDigest sha256 schemaBytes⟩

@[simp]
theorem utf8ByteSize_framedSha256 (domain : String) (components : List (List UInt8)) :
    (framedSha256 sha256 domain components).utf8ByteSize = 71 := by
  rw [framedSha256, String.utf8ByteSize_append, Hex.utf8ByteSize_encode, Digest.length_eq]
  rfl

end

end Legitimacy.Trajectory
