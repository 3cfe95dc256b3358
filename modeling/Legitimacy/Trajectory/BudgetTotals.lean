import Legitimacy.Metering
import Legitimacy.Trajectory.Budget
import Mathlib.Algebra.BigOperators.Group.Finset.Basic

namespace Legitimacy.Trajectory

open ExceptRun Metering

/-- What counts against the budget of a trace. -/
inductive Charge
  | field
  | content (bytes : Nat)
  | node
  | range (cited : LocatorRange)

def PayloadBudget.spend (budget : PayloadBudget) : Charge → PayloadBudget
  | .field => { budget with payloadFields := budget.payloadFields + 1 }
  | .content bytes => { budget with payloadContentBytes := budget.payloadContentBytes + bytes }
  | .node => { budget with normalizedNodes := budget.normalizedNodes + 1 }
  | .range cited =>
    if cited ∈ budget.distinctRanges then { budget with evidenceLocators := budget.evidenceLocators + 1 }
    else
      { budget with
        evidenceLocators := budget.evidenceLocators + 1
        distinctRanges := cited :: budget.distinctRanges
        distinctCitedBytes := budget.distinctCitedBytes + cited.2.2.toNat }

structure PayloadBudget.Within (budget : PayloadBudget) : Prop where
  payloadFields : budget.payloadFields ≤ maxPayloadFieldsTotal
  payloadContentBytes : budget.payloadContentBytes ≤ maxPayloadContentBytesTotal
  normalizedNodes : budget.normalizedNodes ≤ maxNormalizedNodes
  evidenceLocators : budget.evidenceLocators ≤ maxEvidenceLocators
  distinctCitedBytes : budget.distinctCitedBytes ≤ maxDistinctCitedBytes

def payloadMeter : Meter PayloadBudget Charge where
  spend := PayloadBudget.spend
  Within := PayloadBudget.Within
  within_of_spend := by
    rintro budget charge ⟨fields, content, nodes, locators, cited⟩
    cases charge with
    | field => exact ⟨Nat.le_of_succ_le fields, content, nodes, locators, cited⟩
    | content bytes => exact ⟨fields, Nat.le_trans (Nat.le_add_right _ bytes) content, nodes, locators, cited⟩
    | node => exact ⟨fields, content, Nat.le_of_succ_le nodes, locators, cited⟩
    | range range =>
      simp only [PayloadBudget.spend] at fields content nodes locators cited
      split at fields
      case isTrue known =>
        simp only [if_pos known] at content nodes locators cited
        exact ⟨fields, content, nodes, Nat.le_of_succ_le locators, cited⟩
      case isFalse new =>
        simp only [if_neg new] at content nodes locators cited
        exact ⟨fields, content, nodes, Nat.le_of_succ_le locators, Nat.le_trans (Nat.le_add_right _ _) cited⟩

section

def evidenceCharges : Evidence → List Charge
  | .citesRawRange locator => [.range locator.range]
  | .declaredDerivationBinding _ sourceInputs => sourceInputs.map fun locator => .range locator.range
  | .unavailable _ => []

mutual

def treeCharges : NormalizedTree → List Charge
  | .null => [.node]
  | .boolean _ => [.node]
  | .integer digits => [.node, .content digits.utf8ByteSize]
  | .string text => [.node, .content text.utf8ByteSize]
  | .array values => .node :: treesCharges values
  | .object fields => .node :: fieldsCharges fields

def treesCharges : List NormalizedTree → List Charge
  | [] => []
  | value :: rest => treeCharges value ++ treesCharges rest

def fieldsCharges : List (String × NormalizedTree) → List Charge
  | [] => []
  | (key, value) :: rest => [.field, .content key.utf8ByteSize] ++ (treeCharges value ++ fieldsCharges rest)

end

def payloadFieldCharges (field : String × Evidenced NormalizedValue) : List Charge :=
  [.field, .content field.1.utf8ByteSize] ++ (evidenceCharges field.2.evidence ++ field.2.value.elim [] fun value => treeCharges value.tree)

def eventCharges (event : AgentActionEvent) : List Charge :=
  evidenceCharges event.eventId.evidence ++ (evidenceCharges event.sequenceIndex.evidence ++ (evidenceCharges event.kind.evidence ++
    ((event.sourceItemId.elim [] fun field => evidenceCharges field.evidence) ++ event.payload.toList.flatMap payloadFieldCharges)))

def traceCharges (trace : TrajectoryTrace) : List Charge :=
  evidenceCharges trace.runId.evidence ++ trace.events.flatMap eventCharges

end

section

theorem addContentBytes_spends {bytes : Nat} : payloadMeter.Spends (addContentBytes bytes) True [.content bytes] := by
  intro budget within next
  unfold addContentBytes invalid
  rw [guard_eq_ok, Nat.not_lt, Except.ok.injEq, true_and]
  constructor
  · rintro ⟨room, rfl⟩
    exact ⟨rfl, within.payloadFields, room, within.normalizedNodes, within.evidenceLocators, within.distinctCitedBytes⟩
  · rintro ⟨rfl, final⟩
    exact ⟨final.payloadContentBytes, rfl⟩

theorem addField_spends {keyBytes : Nat} : payloadMeter.Spends (addField keyBytes) True [.field, .content keyBytes] := by
  intro budget within next
  unfold addField invalid
  rw [guard_eq_ok, Nat.not_lt]
  constructor
  · rintro ⟨room, run⟩
    have counted : payloadMeter.Within (budget.spend .field) :=
      ⟨room, within.payloadContentBytes, within.normalizedNodes, within.evidenceLocators, within.distinctCitedBytes⟩
    exact (addContentBytes_spends _ counted next).1 run
  · rintro ⟨-, rfl, final⟩
    have counted : payloadMeter.Within (budget.spend .field) := @Meter.within_of_spend _ _ payloadMeter _ (.content keyBytes) final
    exact ⟨counted.payloadFields, (addContentBytes_spends _ counted _).2 ⟨trivial, rfl, final⟩⟩

theorem enterValue_spends {depth : Nat} : payloadMeter.Spends (enterValue depth) (depth ≤ maxNormalizedDepth) [.node] := by
  intro budget within next
  unfold enterValue invalid
  rw [guard_eq_ok, guard_eq_ok, Nat.not_lt, Nat.not_lt, Except.ok.injEq]
  refine and_congr_right fun _ => ?_
  constructor
  · rintro ⟨room, rfl⟩
    exact ⟨rfl, within.payloadFields, within.payloadContentBytes, room, within.evidenceLocators, within.distinctCitedBytes⟩
  · rintro ⟨rfl, final⟩
    exact ⟨final.normalizedNodes, rfl⟩

theorem addLocator_spends {locator : SourceLocator} :
    payloadMeter.Spends (fun budget => addLocator budget locator) (LocatorFits locator) [.range locator.range] := by
  intro budget within next
  have small : maxDistinctCitedBytes < 2 ^ 64 := by decide
  show addLocator budget locator = .ok next ↔ _ ∧ next = budget.spend (.range locator.range) ∧ _
  by_cases known : locator.range ∈ budget.distinctRanges
  · rw [show budget.spend (.range locator.range) = { budget with evidenceLocators := budget.evidenceLocators + 1 } from if_pos known]
    constructor
    · intro run
      obtain ⟨⟨⟩, size, run⟩ := bind_eq_ok.1 run
      obtain ⟨room, run⟩ := guard_eq_ok.1 run
      rw [if_pos known] at run
      obtain rfl := Except.ok.inj run
      exact ⟨checkShortString_eq_ok.1 size, rfl, within.payloadFields, within.payloadContentBytes, within.normalizedNodes, Nat.not_lt.1 room,
        within.distinctCitedBytes⟩
    · rintro ⟨size, rfl, final⟩
      refine bind_eq_ok.2 ⟨⟨⟩, checkShortString_eq_ok.2 size, guard_eq_ok.2 ⟨Nat.not_lt.2 final.evidenceLocators, ?_⟩⟩
      rw [if_pos known]
  · rw [show budget.spend (.range locator.range) = { budget with
        evidenceLocators := budget.evidenceLocators + 1
        distinctRanges := locator.range :: budget.distinctRanges
        distinctCitedBytes := budget.distinctCitedBytes + locator.byteLength.toNat } from if_neg known]
    constructor
    · intro run
      obtain ⟨⟨⟩, size, run⟩ := bind_eq_ok.1 run
      obtain ⟨room, run⟩ := guard_eq_ok.1 run
      rw [if_neg known] at run
      obtain ⟨-, run⟩ := guard_eq_ok.1 run
      obtain ⟨few, run⟩ := guard_eq_ok.1 run
      obtain rfl := Except.ok.inj run
      exact ⟨checkShortString_eq_ok.1 size, rfl, within.payloadFields, within.payloadContentBytes, within.normalizedNodes, Nat.not_lt.1 room,
        Nat.not_lt.1 few⟩
    · rintro ⟨size, rfl, final⟩
      refine bind_eq_ok.2 ⟨⟨⟩, checkShortString_eq_ok.2 size, guard_eq_ok.2 ⟨Nat.not_lt.2 final.evidenceLocators, ?_⟩⟩
      rw [if_neg known]
      refine guard_eq_ok.2 ⟨Nat.not_le.2 (Nat.lt_of_le_of_lt final.distinctCitedBytes small), guard_eq_ok.2 ⟨?_, rfl⟩⟩
      exact Nat.not_lt.2 final.distinctCitedBytes

theorem addEvidence_spends {evidence : Evidence} :
    payloadMeter.Spends (fun budget => addEvidence budget evidence) (EvidenceFits evidence) (evidenceCharges evidence) := by
  cases evidence with
  | citesRawRange locator => exact addLocator_spends
  | declaredDerivationBinding rule sourceInputs =>
    have inputs : payloadMeter.Spends (fun budget => sourceInputs.foldlM addLocator budget) (∀ locator ∈ sourceInputs, LocatorFits locator)
        (sourceInputs.flatMap fun locator => [.range locator.range]) := Meter.Spends.foldlM fun locator _ => addLocator_spends
    refine (Meter.Spends.checkFirst checkBindingSizes_eq_ok inputs.guard).congr ?_ List.map_eq_flatMap.symm
    rw [Nat.not_lt]
    rfl
  | unavailable reason =>
    refine Meter.spends_ok.guard.congr ?_ rfl
    rw [Nat.not_lt, and_true]
    rfl

end

section

mutual

theorem addNormalizedValue_spends : (tree : NormalizedTree) → ∀ {depth : Nat},
    payloadMeter.Spends (fun budget => addNormalizedValue depth budget tree) (TreeFits depth tree) (treeCharges tree)
  | .null, _ => enterValue_spends
  | .boolean _, _ => enterValue_spends
  | .integer digits, depth => by
    refine (enterValue_spends.bind addContentBytes_spends.guard).congr ?_ rfl
    rw [Nat.not_lt, and_true]
    rfl
  | .string text, depth => by
    refine (enterValue_spends.bind addContentBytes_spends.guard).congr ?_ rfl
    rw [Nat.not_lt, and_true]
    rfl
  | .array values, depth => by
    refine (enterValue_spends.bind (@addNormalizedValues_spends values (depth + 1)).guard).congr ?_ rfl
    rw [Nat.not_lt]
    rfl
  | .object fields, depth => by
    refine (enterValue_spends.bind (@addNormalizedFields_spends fields (depth + 1)).guard).congr ?_ rfl
    rw [Nat.not_lt]
    rfl

theorem addNormalizedValues_spends : (values : List NormalizedTree) → ∀ {depth : Nat},
    payloadMeter.Spends (fun budget => addNormalizedValues depth budget values) (TreesFit depth values) (treesCharges values)
  | [], _ => Meter.spends_ok
  | value :: rest, _ => (addNormalizedValue_spends value).bind (addNormalizedValues_spends rest)

theorem addNormalizedFields_spends : (fields : List (String × NormalizedTree)) → ∀ {depth : Nat},
    payloadMeter.Spends (fun budget => addNormalizedFields depth budget fields) (FieldsFit depth fields) (fieldsCharges fields)
  | [], _ => Meter.spends_ok
  | (key, value) :: rest, depth => by
    have inner := (@addField_spends key.utf8ByteSize).bind ((@addNormalizedValue_spends value depth).bind (@addNormalizedFields_spends rest depth))
    refine (Meter.Spends.checkFirst checkShortString_eq_ok inner).congr ?_ rfl
    rw [true_and]
    rfl

end

end

section

/-- The value of a payload field is charged where there is one. -/
def addPayloadValue (value : Option NormalizedValue) (budget : PayloadBudget) : Except LegitimacyError PayloadBudget :=
  match value with
  | some value => addNormalizedValue 1 budget value.tree
  | none => .ok budget

theorem addPayloadField_spends {field : String × Evidenced NormalizedValue} :
    payloadMeter.Spends (fun budget => addPayloadField budget field) (PayloadFieldFits field) (payloadFieldCharges field) := by
  have value : payloadMeter.Spends (addPayloadValue field.2.value)
      (∀ value ∈ field.2.value, TreeFits 1 value.tree) (field.2.value.elim [] fun value => treeCharges value.tree) := by
    cases field.2.value with
    | some value => exact (addNormalizedValue_spends value.tree).congr (by simp) rfl
    | none => exact Meter.spends_ok.congr (by simp) rfl
  refine (Meter.Spends.checkFirst checkShortString_eq_ok (addField_spends.bind (addEvidence_spends.bind value))).congr ?_ rfl
  refine ⟨?_, fun fits => ⟨fits.name, trivial, fits.evidence, fits.value⟩⟩
  rintro ⟨name, -, evidence, value⟩
  exact ⟨name, evidence, value⟩

theorem addSourceItem_spends {sourceItemId : Option (Evidenced String)} :
    payloadMeter.Spends (fun budget => addSourceItem budget sourceItemId) (∀ field ∈ sourceItemId, IdentifierFits field)
      (sourceItemId.elim [] fun field => evidenceCharges field.evidence) := by
  cases sourceItemId with
  | none => exact Meter.spends_ok.congr (by simp) rfl
  | some field =>
    refine (addEvidence_spends.checkLast checkIdentifierSize_eq_ok).congr ?_ rfl
    simp only [Option.mem_def, Option.some.injEq, forall_eq', IdentifierFits]
    exact and_comm

theorem addEvent_spends {event : AgentActionEvent} :
    payloadMeter.Spends (fun budget => addEvent budget event) (EventFits event) (eventCharges event) := by
  have payload : payloadMeter.Spends (fun budget => event.payload.toList.foldlM addPayloadField budget)
      (∀ field ∈ event.payload.toList, PayloadFieldFits field) (event.payload.toList.flatMap payloadFieldCharges) :=
    Meter.Spends.foldlM fun field _ => addPayloadField_spends
  have sizes := Meter.Spends.checkFirst (@checkShortString_eq_ok "raw-record digest" event.rawRecord.digest "digest" 71)
    (Meter.Spends.checkFirst (@checkIdentifierSize_eq_ok "event_id" event.eventId.value) ((@addSourceItem_spends event.sourceItemId).bind payload))
  refine (addEvidence_spends.bind (addEvidence_spends.bind (addEvidence_spends.bind sizes))).guard.congr ?_ rfl
  rw [Nat.not_lt]
  constructor
  · rintro ⟨payloadSize, eventEvidence, sequenceIndex, kind, rawRecord, eventId, sourceItemId, payload⟩
    exact ⟨⟨eventId, eventEvidence⟩, sequenceIndex, kind, sourceItemId, rawRecord, payloadSize, payload⟩
  · rintro ⟨⟨eventId, eventEvidence⟩, sequenceIndex, kind, sourceItemId, rawRecord, payloadSize, payload⟩
    exact ⟨payloadSize, eventEvidence, sequenceIndex, kind, rawRecord, eventId, sourceItemId, payload⟩

end

section

def Charge.fields : Charge → Nat
  | .field => 1
  | _ => 0

def Charge.contentBytes : Charge → Nat
  | .content bytes => bytes
  | _ => 0

def Charge.nodes : Charge → Nat
  | .node => 1
  | _ => 0

def Charge.cited : Charge → Option LocatorRange
  | .range cited => some cited
  | _ => none

def citedRanges (charges : List Charge) : List LocatorRange := charges.filterMap Charge.cited

/-- What a budget holds once the charges are counted. A range that is cited again costs no bytes. -/
structure Tally (charges : List Charge) (budget : PayloadBudget) : Prop where
  payloadFields : budget.payloadFields = (charges.map Charge.fields).sum
  payloadContentBytes : budget.payloadContentBytes = (charges.map Charge.contentBytes).sum
  normalizedNodes : budget.normalizedNodes = (charges.map Charge.nodes).sum
  evidenceLocators : budget.evidenceLocators = (citedRanges charges).length
  distinctRanges : budget.distinctRanges.toFinset = (citedRanges charges).toFinset
  distinctCitedBytes : budget.distinctCitedBytes = ∑ range ∈ (citedRanges charges).toFinset, range.2.2.toNat

theorem tally (charges : List Charge) : Tally charges (payloadMeter.total .initial charges) := by
  induction charges using List.reverseRecOn with
  | nil => exact ⟨rfl, rfl, rfl, rfl, rfl, rfl⟩
  | append_singleton charges charge ih =>
    obtain ⟨fields, content, nodes, locators, ranges, cited⟩ := ih
    rw [Meter.total_append]
    generalize payloadMeter.total .initial charges = budget at fields content nodes locators ranges cited
    show Tally _ (budget.spend charge)
    have cites : citedRanges (charges ++ [charge]) = citedRanges charges ++ citedRanges [charge] := List.filterMap_append
    cases charge with
    | range range =>
      have last : (citedRanges (charges ++ [.range range])).toFinset = insert range (citedRanges charges).toFinset := by
        rw [cites, List.toFinset_append]
        exact Finset.union_comm _ _
      have member : range ∈ budget.distinctRanges ↔ range ∈ (citedRanges charges).toFinset := by rw [← ranges, List.mem_toFinset]
      have count : budget.evidenceLocators + 1 = (citedRanges (charges ++ [.range range])).length := by
        rw [cites, List.length_append, locators]
        rfl
      by_cases known : range ∈ budget.distinctRanges
      · rw [show budget.spend (.range range) = { budget with evidenceLocators := budget.evidenceLocators + 1 } from if_pos known]
        rw [Finset.insert_eq_self.2 (member.1 known)] at last
        exact ⟨by simpa [Charge.fields] using fields, by simpa [Charge.contentBytes] using content, by simpa [Charge.nodes] using nodes, count, by rw [last]; exact ranges, by rw [last]; exact cited⟩
      · rw [show budget.spend (.range range) = { budget with
            evidenceLocators := budget.evidenceLocators + 1
            distinctRanges := range :: budget.distinctRanges
            distinctCitedBytes := budget.distinctCitedBytes + range.2.2.toNat } from if_neg known]
        refine ⟨by simpa [Charge.fields] using fields, by simpa [Charge.contentBytes] using content, by simpa [Charge.nodes] using nodes, count, ?_, ?_⟩
        · rw [last, List.toFinset_cons, ranges]
        · rw [last, Finset.sum_insert (mt member.2 known), ← cited]
          exact Nat.add_comm _ _
    | _ =>
      have same := cites.trans (List.append_nil _)
      refine ⟨?_, ?_, ?_, ?_, ?_, ?_⟩ <;> simp_all [PayloadBudget.spend, Charge.fields, Charge.contentBytes, Charge.nodes]

/-- The limits on what a trace contains altogether. -/
structure ChargesFit (charges : List Charge) : Prop where
  payloadFields : (charges.map Charge.fields).sum ≤ maxPayloadFieldsTotal
  payloadContentBytes : (charges.map Charge.contentBytes).sum ≤ maxPayloadContentBytesTotal
  normalizedNodes : (charges.map Charge.nodes).sum ≤ maxNormalizedNodes
  evidenceLocators : (citedRanges charges).length ≤ maxEvidenceLocators
  distinctCitedBytes : ∑ range ∈ (citedRanges charges).toFinset, range.2.2.toNat ≤ maxDistinctCitedBytes

theorem within_total_iff {charges : List Charge} : payloadMeter.Within (payloadMeter.total .initial charges) ↔ ChargesFit charges := by
  obtain ⟨fields, content, nodes, locators, -, cited⟩ := tally charges
  constructor
  · rintro ⟨fewFields, fewContent, fewNodes, fewLocators, fewCited⟩
    exact ⟨fields ▸ fewFields, content ▸ fewContent, nodes ▸ fewNodes, locators ▸ fewLocators, cited ▸ fewCited⟩
  · rintro ⟨fewFields, fewContent, fewNodes, fewLocators, fewCited⟩
    exact ⟨fields ▸ fewFields, content ▸ fewContent, nodes ▸ fewNodes, locators ▸ fewLocators, cited ▸ fewCited⟩

end

section

def rawMeter : Meter Nat Nat where
  spend := (· + ·)
  Within bytes := bytes ≤ maxRawCaptureBytes
  within_of_spend := fun {bytes more} within => Nat.le_trans (Nat.le_add_right bytes more) within

theorem addRawRecord_spends {record : List UInt8} :
    rawMeter.Spends (fun bytes => addRawRecord bytes record) (record.length ≤ maxRawRecordBytes) [record.length] := by
  intro bytes within next
  unfold addRawRecord invalid
  rw [guard_eq_ok, guard_eq_ok, Nat.not_lt, Nat.not_lt, Except.ok.injEq]
  refine and_congr_right fun _ => ?_
  constructor
  · rintro ⟨room, rfl⟩
    exact ⟨rfl, room⟩
  · rintro ⟨rfl, room⟩
    exact ⟨room, rfl⟩

theorem addRawRecords_eq_ok {rawRecords : List (List UInt8)} : (∃ total, rawRecords.foldlM addRawRecord 0 = .ok total) ↔
    (∀ record ∈ rawRecords, record.length ≤ maxRawRecordBytes) ∧ (rawRecords.map List.length).sum ≤ maxRawCaptureBytes := by
  have spends : rawMeter.Spends (fun bytes => rawRecords.foldlM addRawRecord bytes) (∀ record ∈ rawRecords, record.length ≤ maxRawRecordBytes)
      (rawRecords.flatMap fun record => [record.length]) := Meter.Spends.foldlM fun _ _ => addRawRecord_spends
  have total : rawMeter.total 0 (rawRecords.flatMap fun record => [record.length]) = (rawRecords.map List.length).sum := by
    rw [← List.map_eq_flatMap, List.sum_eq_foldl]
    rfl
  simp only [spends 0 (Nat.zero_le _), total, exists_and_left, exists_eq_left]
  rfl

end

/-- The resource budget of a trace and of what it is validated against. -/
structure ResourcesFit (trace : TrajectoryTrace) (rawRecords : List (List UInt8)) (declarations : TrajectoryValidationContext) : Prop where
  recordBytes : ∀ record ∈ rawRecords, record.length ≤ maxRawRecordBytes
  captureBytes : (rawRecords.map List.length).sum ≤ maxRawCaptureBytes
  recordCount : .ofNat rawRecords.length = trace.rawCapture.recordCount
  nonempty : trace.events ≠ []
  oneEach : trace.events.length = rawRecords.length
  parts : TraceFits trace
  adapter : BindingFits declarations.adapter
  policy : BindingFits declarations.policy
  rawCapture : declarations.rawCapture.digest.utf8ByteSize ≤ 71
  charges : ChargesFit (traceCharges trace)

theorem validateResourceBudget_eq_ok {trace : TrajectoryTrace} {rawRecords : List (List UInt8)} {declarations : TrajectoryValidationContext} :
    validateResourceBudget trace rawRecords declarations = .ok ⟨⟩ ↔ ResourcesFit trace rawRecords declarations := by
  have initial : payloadMeter.Within .initial := ⟨Nat.zero_le _, Nat.zero_le _, Nat.zero_le _, Nat.zero_le _, Nat.zero_le _⟩
  have spends : payloadMeter.Spends (fun budget => addEvidence budget trace.runId.evidence >>= fun budget =>
      checkIdentifierSize "run_id" trace.runId.value >>= fun _ => trace.events.foldlM addEvent budget)
      (EvidenceFits trace.runId.evidence ∧ (∀ text ∈ trace.runId.value, text.utf8ByteSize ≤ maxIdentifierBytes) ∧
        ∀ event ∈ trace.events, EventFits event) (traceCharges trace) :=
    addEvidence_spends.bind (Meter.Spends.checkFirst checkIdentifierSize_eq_ok (Meter.Spends.foldlM fun _ _ => addEvent_spends))
  have counted : (∃ final, (addEvidence .initial trace.runId.evidence >>= fun budget =>
      checkIdentifierSize "run_id" trace.runId.value >>= fun _ => trace.events.foldlM addEvent budget) = .ok final) ↔
      (EvidenceFits trace.runId.evidence ∧ (∀ text ∈ trace.runId.value, text.utf8ByteSize ≤ maxIdentifierBytes) ∧
        ∀ event ∈ trace.events, EventFits event) ∧ ChargesFit (traceCharges trace) := by
    simp only [spends .initial initial, exists_and_left, exists_eq_left, within_total_iff]
  constructor
  · intro run
    obtain ⟨-, run⟩ := guard_eq_ok.1 run
    obtain ⟨count, run⟩ := guard_eq_ok.1 run
    obtain ⟨total, records, run⟩ := bind_eq_ok.1 run
    obtain ⟨sealed, run⟩ := guard_eq_ok.1 run
    obtain ⟨nonempty, run⟩ := guard_eq_ok.1 run
    obtain ⟨lengths, run⟩ := guard_eq_ok.1 run
    obtain ⟨⟨⟩, schema, run⟩ := bind_eq_ok.1 run
    obtain ⟨⟨⟩, adapter, run⟩ := bind_eq_ok.1 run
    obtain ⟨⟨⟩, policy, run⟩ := bind_eq_ok.1 run
    obtain ⟨⟨⟩, declaredAdapter, run⟩ := bind_eq_ok.1 run
    obtain ⟨⟨⟩, declaredPolicy, run⟩ := bind_eq_ok.1 run
    obtain ⟨⟨⟩, capture, run⟩ := bind_eq_ok.1 run
    obtain ⟨⟨⟩, declaredCapture, run⟩ := bind_eq_ok.1 run
    obtain ⟨budget, evidence, run⟩ := bind_eq_ok.1 run
    obtain ⟨⟨⟩, identifier, run⟩ := bind_eq_ok.1 run
    obtain ⟨final, events, -⟩ := bind_eq_ok.1 run
    obtain ⟨recordBytes, captureBytes⟩ := addRawRecords_eq_ok.1 ⟨total, records⟩
    obtain ⟨⟨runEvidence, runId, eventsFit⟩, charges⟩ := counted.1
      ⟨final, bind_eq_ok.2 ⟨budget, evidence, bind_eq_ok.2 ⟨⟨⟩, identifier, events⟩⟩⟩
    refine ⟨recordBytes, captureBytes, not_not.1 sealed, fun empty => nonempty (by rw [empty]; rfl), not_not.1 lengths, ?_,
      checkBindingSizes_eq_ok.1 declaredAdapter, checkBindingSizes_eq_ok.1 declaredPolicy, checkShortString_eq_ok.1 declaredCapture, charges⟩
    exact ⟨checkBindingSizes_eq_ok.1 schema, ⟨runId, runEvidence⟩, checkBindingSizes_eq_ok.1 adapter, checkBindingSizes_eq_ok.1 policy,
      checkShortString_eq_ok.1 capture, Nat.not_lt.1 count, eventsFit⟩
  · rintro ⟨recordBytes, captureBytes, recordCount, nonempty, oneEach, parts, adapter, policy, rawCapture, charges⟩
    obtain ⟨total, records⟩ := addRawRecords_eq_ok.2 ⟨recordBytes, captureBytes⟩
    obtain ⟨final, run⟩ := counted.2 ⟨⟨parts.runId.2, parts.runId.1, parts.events⟩, charges⟩
    obtain ⟨budget, evidence, run⟩ := bind_eq_ok.1 run
    obtain ⟨⟨⟩, identifier, events⟩ := bind_eq_ok.1 run
    have count := parts.eventCount
    have several : ¬trace.events.isEmpty = true := fun empty => nonempty (List.isEmpty_iff.1 empty)
    refine guard_eq_ok.2 ⟨Nat.not_lt.2 (oneEach ▸ count), guard_eq_ok.2 ⟨Nat.not_lt.2 count, bind_eq_ok.2 ⟨total, records, ?_⟩⟩⟩
    refine guard_eq_ok.2 ⟨not_not.2 recordCount, guard_eq_ok.2 ⟨several, guard_eq_ok.2 ⟨not_not.2 oneEach, ?_⟩⟩⟩
    refine bind_eq_ok.2 ⟨⟨⟩, checkBindingSizes_eq_ok.2 parts.schema, bind_eq_ok.2 ⟨⟨⟩, checkBindingSizes_eq_ok.2 parts.adapter, ?_⟩⟩
    refine bind_eq_ok.2 ⟨⟨⟩, checkBindingSizes_eq_ok.2 parts.policy, bind_eq_ok.2 ⟨⟨⟩, checkBindingSizes_eq_ok.2 adapter, ?_⟩⟩
    refine bind_eq_ok.2 ⟨⟨⟩, checkBindingSizes_eq_ok.2 policy, bind_eq_ok.2 ⟨⟨⟩, checkShortString_eq_ok.2 parts.rawCapture, ?_⟩⟩
    refine bind_eq_ok.2 ⟨⟨⟩, checkShortString_eq_ok.2 rawCapture, bind_eq_ok.2 ⟨budget, evidence, ?_⟩⟩
    exact bind_eq_ok.2 ⟨⟨⟩, identifier, bind_eq_ok.2 ⟨final, events, rfl⟩⟩

end Legitimacy.Trajectory
