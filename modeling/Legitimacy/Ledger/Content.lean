import Legitimacy.FloatText
import Legitimacy.Json
import Legitimacy.Ledger.Database
import Legitimacy.Sha256

namespace Legitimacy.Ledger

/-- What the crates below the ledger decide: how a number is written, and which rowid is taken when the largest is in use. -/
structure Host where
  floatText : Float → String
  freeRowid : List Int → Option Int

def exampleHost : Host := ⟨FloatText.ryu, fun _ => none⟩

def jsonReal (value : Float) : Json := if value.isFinite then .float value else .null

structure CompiledRuleContent where
  name : String
  version : String
  admissible : Bool
  familyDescription : String
  compiledAt : String
  axiomVerdictsJson : String
  strategyproofnessJson : String

structure CertificateContent where
  ruleName : String
  ruleVersion : String
  compiledRuleHash : String
  claimantId : String
  outcome : Float
  evidenceJson : String
  issuedAt : String

structure DeclaredSacrificeChainContent where
  compiledKind : String
  subjectName : String
  subjectVersion : String
  sacrificedProperty : String
  justification : String
  impactBound : Float
  monitoringPlanJson : String
  provenanceJson : String
  declaredAt : String

structure ParadoxResultContent where
  ruleName : String
  paradoxType : String
  description : String
  detectedAt : String

-- the keys of a JSON value stand in alphabetical order

def compiledRuleContentJson (content : CompiledRuleContent) : Json :=
  .obj [("admissible", .bool content.admissible), ("axiom_verdicts_json", .str content.axiomVerdictsJson),
    ("compiled_at", .str content.compiledAt), ("family_description", .str content.familyDescription), ("name", .str content.name),
    ("strategyproofness_json", .str content.strategyproofnessJson), ("version", .str content.version)]

def legacyCompiledRuleContentJson (content : CompiledRuleContent) : Json :=
  .obj [("admissible", .bool content.admissible), ("axiom_verdicts_json", .str content.axiomVerdictsJson),
    ("compiled_at", .str content.compiledAt), ("family_description", .str content.familyDescription), ("name", .str content.name),
    ("version", .str content.version)]

def certificateContentJson (content : CertificateContent) : Json :=
  .obj [("claimant_id", .str content.claimantId), ("compiled_rule_hash", .str content.compiledRuleHash),
    ("evidence_json", .str content.evidenceJson), ("issued_at", .str content.issuedAt), ("outcome", jsonReal content.outcome),
    ("rule_name", .str content.ruleName), ("rule_version", .str content.ruleVersion)]

def legacyCertificateContentJson (content : CertificateContent) : Json :=
  .obj [("claimant_id", .str content.claimantId), ("evidence_json", .str content.evidenceJson), ("issued_at", .str content.issuedAt),
    ("outcome", jsonReal content.outcome), ("rule_name", .str content.ruleName), ("rule_version", .str content.ruleVersion)]

def declaredSacrificeContentJson (content : DeclaredSacrificeChainContent) : Json :=
  .obj [("compiled_kind", .str content.compiledKind), ("declared_at", .str content.declaredAt),
    ("impact_bound", jsonReal content.impactBound), ("justification", .str content.justification),
    ("monitoring_plan_json", .str content.monitoringPlanJson), ("provenance_json", .str content.provenanceJson),
    ("sacrificed_property", .str content.sacrificedProperty), ("subject_name", .str content.subjectName),
    ("subject_version", .str content.subjectVersion)]

def paradoxResultContentJson (content : ParadoxResultContent) : Json :=
  .obj [("description", .str content.description), ("detected_at", .str content.detectedAt), ("paradox_type", .str content.paradoxType),
    ("rule_name", .str content.ruleName)]

/-- How one table keeps its rows and ties them together. -/
structure Schema (γ : Type) where
  table : Table
  label : String
  recorded : String
  columns : List String
  params : γ → List SqlValue
  read : List SqlValue → Except String γ
  contentJson : γ → Json
  /-- The spelling of rows from before the last column was added. -/
  legacyContentJson : γ → Option Json

def readString (columns : List SqlValue) (place : Nat) (name : String) : Except String String :=
  getString (place + 1) name (columns.getD place .null)

def readBool (columns : List SqlValue) (place : Nat) (name : String) : Except String Bool :=
  getBool (place + 1) name (columns.getD place .null)

def readReal (columns : List SqlValue) (place : Nat) (name : String) : Except String Float :=
  getReal (place + 1) name (columns.getD place .null)

def compiledRules : Schema CompiledRuleContent where
  table := .compiledRules
  label := "compiled rule"
  recorded := "compiled rule"
  columns :=
    ["name", "version", "admissible", "family_description", "compiled_at", "axiom_verdicts_json", "strategyproofness_json"]
  params content :=
    [.text content.name, .text content.version, .ofBool content.admissible, .text content.familyDescription, .text content.compiledAt,
      .text content.axiomVerdictsJson, .text content.strategyproofnessJson]
  read columns := do
    let name ← readString columns 0 "name"
    let version ← readString columns 1 "version"
    let admissible ← readBool columns 2 "admissible"
    let familyDescription ← readString columns 3 "family_description"
    let compiledAt ← readString columns 4 "compiled_at"
    let axiomVerdictsJson ← readString columns 5 "axiom_verdicts_json"
    let strategyproofnessJson ← readString columns 6 "strategyproofness_json"
    .ok ⟨name, version, admissible, familyDescription, compiledAt, axiomVerdictsJson, strategyproofnessJson⟩
  contentJson := compiledRuleContentJson
  legacyContentJson content :=
    if content.strategyproofnessJson = "\"Strategyproof\"" then some (legacyCompiledRuleContentJson content) else none

def certificates : Schema CertificateContent where
  table := .certificates
  label := "certificate"
  recorded := "certificate"
  columns := ["rule_name", "rule_version", "compiled_rule_hash", "claimant_id", "outcome", "evidence_json", "issued_at"]
  params content :=
    [.text content.ruleName, .text content.ruleVersion, .text content.compiledRuleHash, .text content.claimantId,
      .ofReal content.outcome, .text content.evidenceJson, .text content.issuedAt]
  read columns := do
    let ruleName ← readString columns 0 "rule_name"
    let ruleVersion ← readString columns 1 "rule_version"
    let compiledRuleHash ← readString columns 2 "compiled_rule_hash"
    let claimantId ← readString columns 3 "claimant_id"
    let outcome ← readReal columns 4 "outcome"
    let evidenceJson ← readString columns 5 "evidence_json"
    let issuedAt ← readString columns 6 "issued_at"
    .ok ⟨ruleName, ruleVersion, compiledRuleHash, claimantId, outcome, evidenceJson, issuedAt⟩
  contentJson := certificateContentJson
  legacyContentJson content := if content.compiledRuleHash = "" then some (legacyCertificateContentJson content) else none

def declaredSacrifices : Schema DeclaredSacrificeChainContent where
  table := .declaredSacrifices
  label := "declared sacrifice"
  recorded := "declared sacrifice"
  columns :=
    ["compiled_kind", "subject_name", "subject_version", "sacrificed_property", "justification", "impact_bound",
      "monitoring_plan_json", "provenance_json", "declared_at"]
  params content :=
    [.text content.compiledKind, .text content.subjectName, .text content.subjectVersion, .text content.sacrificedProperty,
      .text content.justification, .ofReal content.impactBound, .text content.monitoringPlanJson, .text content.provenanceJson,
      .text content.declaredAt]
  read columns := do
    let compiledKind ← readString columns 0 "compiled_kind"
    let subjectName ← readString columns 1 "subject_name"
    let subjectVersion ← readString columns 2 "subject_version"
    let sacrificedProperty ← readString columns 3 "sacrificed_property"
    let justification ← readString columns 4 "justification"
    let impactBound ← readReal columns 5 "impact_bound"
    let monitoringPlanJson ← readString columns 6 "monitoring_plan_json"
    let provenanceJson ← readString columns 7 "provenance_json"
    let declaredAt ← readString columns 8 "declared_at"
    .ok ⟨compiledKind, subjectName, subjectVersion, sacrificedProperty, justification, impactBound, monitoringPlanJson, provenanceJson,
      declaredAt⟩
  contentJson := declaredSacrificeContentJson
  legacyContentJson _ := none

def paradoxResults : Schema ParadoxResultContent where
  table := .paradoxResults
  label := "paradox"
  recorded := "paradox result"
  columns := ["rule_name", "paradox_type", "description", "detected_at"]
  params content := [.text content.ruleName, .text content.paradoxType, .text content.description, .text content.detectedAt]
  read columns := do
    let ruleName ← readString columns 0 "rule_name"
    let paradoxType ← readString columns 1 "paradox_type"
    let description ← readString columns 2 "description"
    let detectedAt ← readString columns 3 "detected_at"
    .ok ⟨ruleName, paradoxType, description, detectedAt⟩
  contentJson := paradoxResultContentJson
  legacyContentJson _ := none

def preimage (prevHash : String) (rowid : Int) (contentJson : String) : String := prevHash ++ toString rowid ++ contentJson

def chainHash (prevHash : String) (rowid : Int) (contentJson : String) : String :=
  Hex.encode (Sha256.hash (Utf8.bytes (preimage prevHash rowid contentJson)))

theorem chainHash_ne_empty (prevHash : String) (rowid : Int) (contentJson : String) : chainHash prevHash rowid contentJson ≠ "" := by
  intro empty
  have length := congrArg String.utf8ByteSize empty
  rw [chainHash, Hex.utf8ByteSize_encode, Sha256.length_hash] at length
  simp at length

section

/-- What a row says when its numbers come back from the store. -/
def storedReal (value : Float) : Float := if value == 0 then 0 else value

theorem getReal_ofReal {index : Nat} {name : String} {value : Float} (number : value.isNaN = false) :
    getReal index name (.ofReal value) = .ok (storedReal value) := by
  unfold SqlValue.ofReal storedReal
  rw [number]
  by_cases zero : (value == 0) = true
  · simp [zero, getReal]
  · simp [zero, getReal]

theorem getBool_ofBool (index : Nat) (name : String) (value : Bool) : getBool index name (.ofBool value) = .ok value := by
  cases value <;> rfl

theorem compiledRules_read_params (content : CompiledRuleContent) : compiledRules.read (compiledRules.params content) = .ok content := by
  show (do
    let admissible ← getBool 3 "admissible" (.ofBool content.admissible)
    .ok { content with admissible } : Except String CompiledRuleContent) = _
  rw [getBool_ofBool]
  rfl

theorem certificates_read_params {content : CertificateContent} (number : content.outcome.isNaN = false) :
    certificates.read (certificates.params content) = .ok { content with outcome := storedReal content.outcome } := by
  show (do
    let outcome ← getReal 5 "outcome" (.ofReal content.outcome)
    .ok { content with outcome } : Except String CertificateContent) = _
  rw [getReal_ofReal number]
  rfl

theorem declaredSacrifices_read_params {content : DeclaredSacrificeChainContent} (number : content.impactBound.isNaN = false) :
    declaredSacrifices.read (declaredSacrifices.params content) = .ok { content with impactBound := storedReal content.impactBound } := by
  show (do
    let impactBound ← getReal 6 "impact_bound" (.ofReal content.impactBound)
    .ok { content with impactBound } : Except String DeclaredSacrificeChainContent) = _
  rw [getReal_ofReal number]
  rfl

theorem paradoxResults_read_params (content : ParadoxResultContent) : paradoxResults.read (paradoxResults.params content) = .ok content := rfl

end

end Legitimacy.Ledger
