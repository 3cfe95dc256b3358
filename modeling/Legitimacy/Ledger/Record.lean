import Legitimacy.Ledger.Chain
import Legitimacy.ProtocolState

namespace Legitimacy.Ledger

open Transaction

def openConnection (host : Host) : Statements Unit := do
  idle (sqlite "creating ledger schema")
  idle (sqlite "reading schema for 'compiled_rules'")
  idle (sqlite "reading schema for 'certificates'")
  ensureChainSchema host

def withConnection {α : Type} (host : Host) (f : Statements α) : Statements α := do
  openConnection host
  f

def openLedger (host : Host) : Statements Unit := withConnection host (pure ⟨⟩)

def verifyChain (host : Host) : Statements ChainVerificationResult := withConnection host (verifyTables host)

section

def civilFromDays (daysSinceUnixEpoch : Int) : Int × Int × Int :=
  let shiftedDays := daysSinceUnixEpoch + 719468
  let era := Int.tdiv (if 0 ≤ shiftedDays then shiftedDays else shiftedDays - 146096) 146097
  let dayOfEra := shiftedDays - era * 146097
  let yearOfEra := Int.tdiv (dayOfEra - Int.tdiv dayOfEra 1460 + Int.tdiv dayOfEra 36524 - Int.tdiv dayOfEra 146096) 365
  let year := yearOfEra + era * 400
  let dayOfYear := dayOfEra - (365 * yearOfEra + Int.tdiv yearOfEra 4 - Int.tdiv yearOfEra 100)
  let monthPiece := Int.tdiv (5 * dayOfYear + 2) 153
  let day := dayOfYear - Int.tdiv (153 * monthPiece + 2) 5 + 1
  let month := monthPiece + if monthPiece < 10 then 3 else -9
  let year := year + if month ≤ 2 then 1 else 0
  (year.bmod (2 ^ 32), month, day)

def padded (width : Nat) (value : Int) : String :=
  let digits := Nat.toDigits 10 value.natAbs
  if value < 0 then "-" ++ String.ofList (List.replicate (width - 1 - digits.length) '0' ++ digits)
  else String.ofList (List.replicate (width - digits.length) '0' ++ digits)

def timestamp (seconds : Int) : String :=
  let days := seconds / 86400
  let secondsOfDay := seconds % 86400
  let (year, month, day) := civilFromDays days
  let hour := secondsOfDay / 3600
  let minute := secondsOfDay % 3600 / 60
  let second := secondsOfDay % 60
  s!"{padded 4 year}-{padded 2 month}-{padded 2 day}T{padded 2 hour}:{padded 2 minute}:{padded 2 second}Z"

example : timestamp 1713052801 = "2024-04-14T00:00:01Z" := by decide +kernel

/-- The time of a clock that shows so many seconds since 1970. -/
def currentTimestamp (clock : Int) : Statements String :=
  if clock < 0 then throw (.systemClock "second time provided was later than self") else pure (timestamp clock)

end

/-- The verdict of an axiom check; a counterexample is only ever serialized here, and kept as its tree. -/
inductive Verdict
  | admissible (axiomName : String) (perturbationsTested : Nat)
  | rejected (axiomName : String) (counterexample : Json)

structure CompiledRule where
  name : String
  version : String
  axiomVerdicts : List Verdict
  strategyproofness : StrategyproofnessVerdict
  familyDescription : String
  compiledAt : String

def Verdict.isAdmissible : Verdict → Bool
  | .admissible _ _ => true
  | .rejected _ _ => false

def isStrategyproof : StrategyproofnessVerdict → Bool
  | .strategyproof => true
  | .manipulable .. => false

def CompiledRule.isAdmissible (rule : CompiledRule) : Bool :=
  rule.axiomVerdicts.all Verdict.isAdmissible && isStrategyproof rule.strategyproofness

def Verdict.toJson : Verdict → Json
  | .admissible axiomName perturbationsTested =>
    .obj [("Admissible", .obj [("axiom", .str axiomName), ("perturbations_tested", .int perturbationsTested)])]
  | .rejected axiomName counterexample =>
    .obj [("Rejected", .obj [("axiom", .str axiomName), ("counterexample", counterexample)])]

def strategyproofnessToJson : StrategyproofnessVerdict → Json
  | .strategyproof => .str "Strategyproof"
  | .manipulable claimant trueStrength reported trueAlloc manipulatedAlloc =>
    .obj [("Manipulable", .obj [("claimant", .str claimant), ("true_strength", jsonReal trueStrength), ("reported", jsonReal reported),
      ("true_alloc", jsonReal trueAlloc), ("manipulated_alloc", jsonReal manipulatedAlloc)])]

structure Certificate where
  ruleName : String
  ruleVersion : String
  compiledRuleHash : String
  claimantId : String
  outcome : Float
  evidence : BTreeMap String String
  issuedAt : String

def evidenceToJson (evidence : BTreeMap String String) : Json :=
  .obj (evidence.toList.map fun (key, value) => (key, .str value))

inductive CompiledGovernanceKind
  | rule
  | graph

def compiledKindLabel : CompiledGovernanceKind → String
  | .rule => "rule"
  | .graph => "graph"

structure SacrificeProvenance where
  compiledKind : CompiledGovernanceKind
  compiledName : String
  compiledVersion : String
  compiledAt : String
  familyDescription : String
  sourceAxiom : String
  witness : String

structure DeclaredSacrifice where
  sacrificedProperty : GovernanceProperty
  justification : String
  impactBound : Float
  monitoringPlan : List MonitoringSpec
  provenance : SacrificeProvenance

/-- What was compiled, as far as the ledger names it, and what it gives up. -/
structure DeclaredSacrificesCertificate where
  kind : CompiledGovernanceKind
  name : String
  version : String
  sacrifices : List DeclaredSacrifice

def monitoringPlanToJson (plan : List MonitoringSpec) : Json :=
  .arr (plan.map fun spec => .obj [("metric", .str spec.metric), ("threshold", jsonReal spec.threshold),
    ("frequency_seconds", .int spec.frequencySeconds), ("alert_channel", .str spec.alertChannel)])

def provenanceToJson (provenance : SacrificeProvenance) : Json :=
  .obj [("compiled_kind", .str (compiledKindLabel provenance.compiledKind)), ("compiled_name", .str provenance.compiledName),
    ("compiled_version", .str provenance.compiledVersion), ("compiled_at", .str provenance.compiledAt),
    ("family_description", .str provenance.familyDescription), ("source_axiom", .str provenance.sourceAxiom),
    ("witness", .str provenance.witness)]

inductive ParadoxType
  | claimantAddition
  | population
  | priority

def paradoxTypeLabel : ParadoxType → String
  | .claimantAddition => "claimant_addition"
  | .population => "population"
  | .priority => "priority"

structure ParadoxViolation where
  paradoxType : ParadoxType
  description : String

section

variable (host : Host)

def compiledRuleContent (rule : CompiledRule) : CompiledRuleContent where
  name := rule.name
  version := rule.version
  admissible := rule.isAdmissible
  familyDescription := rule.familyDescription
  compiledAt := rule.compiledAt
  axiomVerdictsJson := (Json.arr (rule.axiomVerdicts.map Verdict.toJson)).compact host.floatText
  strategyproofnessJson := (strategyproofnessToJson rule.strategyproofness).compact host.floatText

def certificateContent (certificate : Certificate) : CertificateContent where
  ruleName := certificate.ruleName
  ruleVersion := certificate.ruleVersion
  compiledRuleHash := certificate.compiledRuleHash
  claimantId := certificate.claimantId
  outcome := certificate.outcome
  evidenceJson := (evidenceToJson certificate.evidence).compact host.floatText
  issuedAt := certificate.issuedAt

def declaredSacrificeContent (certificate : DeclaredSacrificesCertificate) (declaredAt : String) (sacrifice : DeclaredSacrifice) :
    DeclaredSacrificeChainContent where
  compiledKind := compiledKindLabel certificate.kind
  subjectName := certificate.name
  subjectVersion := certificate.version
  sacrificedProperty := sacrifice.sacrificedProperty.asStr
  justification := sacrifice.justification
  impactBound := sacrifice.impactBound
  monitoringPlanJson := (monitoringPlanToJson sacrifice.monitoringPlan).compact host.floatText
  provenanceJson := (provenanceToJson sacrifice.provenance).compact host.floatText
  declaredAt := declaredAt

end

def insertCompiledRule (host : Host) (rule : CompiledRule) : Statements Unit :=
  immediate "recording compiled rule" (appendRow host compiledRules (compiledRuleContent host rule))

def insertCertificate (host : Host) (certificate : Certificate) : Statements Unit :=
  immediate "recording certificate" (appendRow host certificates (certificateContent host certificate))

def insertDeclaredSacrifices (host : Host) (certificate : DeclaredSacrificesCertificate) (declaredAt : String) : Statements Unit :=
  immediate "recording declared sacrifices"
    (certificate.sacrifices.forM fun sacrifice =>
      appendRow host declaredSacrifices (declaredSacrificeContent host certificate declaredAt sacrifice))

def insertParadoxRow (host : Host) (content : ParadoxResultContent) : Statements Unit :=
  immediate "recording paradox result" (appendRow host paradoxResults content)

def recordCompiledRule (host : Host) (rule : CompiledRule) : Statements Unit := withConnection host (insertCompiledRule host rule)

def recordCertificate (host : Host) (certificate : Certificate) : Statements Unit := withConnection host (insertCertificate host certificate)

def recordDeclaredSacrifices (host : Host) (certificate : DeclaredSacrificesCertificate) (clock : Int) : Statements Unit := do
  let declaredAt ← currentTimestamp clock
  withConnection host (insertDeclaredSacrifices host certificate declaredAt)

def recordParadoxRow (host : Host) (ruleName paradoxType description : String) (clock : Int) : Statements Unit := do
  let detectedAt ← currentTimestamp clock
  insertParadoxRow host ⟨ruleName, paradoxType, description, detectedAt⟩

def recordViolation (host : Host) (ruleName : String) (violation : ParadoxViolation × Int) : Statements Unit :=
  recordParadoxRow host ruleName (paradoxTypeLabel violation.1.paradoxType) violation.1.description violation.2

/-- `clocks` is what the clock shows at each insertion. -/
def recordParadoxResults (host : Host) (ruleName : String) (violations : List ParadoxViolation) (clocks : Nat → Int) : Statements Unit :=
  withConnection host
    (if violations.isEmpty then recordParadoxRow host ruleName "none" "No paradox violations detected" (clocks 0)
    else (violations.zipIdx.map fun (violation, index) => (violation, clocks index)).forM (recordViolation host ruleName))

end Legitimacy.Ledger
