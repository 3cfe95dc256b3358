import Legitimacy.Ledger.ChainInvariant

namespace Legitimacy.Ledger

open ExceptRun Transaction HashChain

inductive Call
  | compiledRule (rule : CompiledRule)
  | certificate (issued : Certificate)
  | declaredSacrifices (issued : DeclaredSacrificesCertificate) (clock : Int)
  | paradoxResults (ruleName : String) (violations : List ParadoxViolation) (clocks : Nat → Int)

def Call.run (host : Host) : Call → Statements Unit
  | .compiledRule rule => recordCompiledRule host rule
  | .certificate issued => recordCertificate host issued
  | .declaredSacrifices issued clock => recordDeclaredSacrifices host issued clock
  | .paradoxResults ruleName violations clocks => recordParadoxResults host ruleName violations clocks

def violationEntry (ruleName : String) (violation : ParadoxViolation × Int) : Entry :=
  ⟨.paradoxResults, ⟨ruleName, paradoxTypeLabel violation.1.paradoxType, violation.1.description, timestamp violation.2⟩⟩

def Call.entries (host : Host) : Call → List Entry
  | .compiledRule rule => Recording.entries host (.compiledRule rule)
  | .certificate issued => Recording.entries host (.certificate issued)
  | .declaredSacrifices issued clock => Recording.entries host (.declaredSacrifices issued (timestamp clock))
  | .paradoxResults ruleName violations clocks =>
    if violations.isEmpty then [⟨.paradoxResults, ⟨ruleName, "none", "No paradox violations detected", timestamp (clocks 0)⟩⟩]
    else (violations.zipIdx.map fun (violation, index) => (violation, clocks index)).map (violationEntry ruleName)

variable {host : Host}

theorem leads_currentTimestamp {clock : Int} {before after : Database} {time : String}
    (run : Leads (currentTimestamp clock) before (.ok time) after) : after = before ∧ time = timestamp clock := by
  obtain ⟨refusal, rest, run⟩ := run
  unfold currentTimestamp at run
  split at run
  · cases run
  · cases run
    exact ⟨rfl, rfl⟩

theorem grows_recordParadoxRow {ruleName paradoxType description : String} {clock : Int} {before after : Database}
    (run : Leads (recordParadoxRow host ruleName paradoxType description clock) before (.ok ⟨⟩) after) :
    Grows host before [⟨.paradoxResults, ⟨ruleName, paradoxType, description, timestamp clock⟩⟩] after := by
  obtain ⟨time, between, atTime, insertion⟩ := leads_bind_ok run
  obtain ⟨rfl, rfl⟩ := leads_currentTimestamp atTime
  rcases leads_insert insertion with ⟨_, differs, -⟩ | ⟨-, body⟩
  · cases differs
  · exact grows_appendRow .paradoxResults body

theorem grows_recording {recording : Recording} {before after : Database} (run : Leads (recording.run host) before (.ok ⟨⟩) after) :
    Grows host before (recording.entries host) after := by
  rcases Recording.leads_run run with ⟨_, differs, -⟩ | ⟨-, grows⟩
  · cases differs
  · exact grows

/-- A call that succeeds on a kept ledger adds its rows and does nothing else. -/
theorem Call.grows {call : Call} {before after : Database} (kept : Kept before) (run : Leads (call.run host) before (.ok ⟨⟩) after) :
    Grows host before (call.entries host) after := by
  cases call with
  | compiledRule rule =>
    obtain ⟨⟨⟩, between, opened, recorded⟩ := leads_bind_ok run
    obtain rfl := kept.openConnection_same opened
    exact @grows_recording host (.compiledRule rule) _ _ recorded
  | certificate issued =>
    obtain ⟨⟨⟩, between, opened, recorded⟩ := leads_bind_ok run
    obtain rfl := kept.openConnection_same opened
    exact @grows_recording host (.certificate issued) _ _ recorded
  | declaredSacrifices issued clock =>
    obtain ⟨time, first, atTime, connected⟩ := leads_bind_ok run
    obtain ⟨rfl, rfl⟩ := leads_currentTimestamp atTime
    obtain ⟨⟨⟩, between, opened, recorded⟩ := leads_bind_ok connected
    obtain rfl := kept.openConnection_same opened
    exact @grows_recording host (.declaredSacrifices issued (timestamp clock)) _ _ recorded
  | paradoxResults ruleName violations clocks =>
    obtain ⟨⟨⟩, between, opened, recorded⟩ := leads_bind_ok run
    obtain rfl := kept.openConnection_same opened
    show Grows host between (if violations.isEmpty then _ else _) after
    split
    · rename_i none
      rw [if_pos none] at recorded
      exact grows_recordParadoxRow recorded
    · rename_i some
      rw [if_neg some] at recorded
      rw [List.map_eq_flatMap]
      exact grows_forM (fun violation first second step => grows_recordParadoxRow step) recorded

section

/-- The row scan of a table finds a break. -/
def RowsBroken (host : Host) (table : Table) (database : Database) : Prop :=
  ∃ status, verifyRows host (schemaOf table) "" 0 (database.rows table).list = .ok (.inl status)

def Finds (host : Host) (table : Table) (database : Database) (valid : Bool) : Prop :=
  ∃ status, Judged host (schemaOf table) database status ∧ status.valid = valid

theorem judged_schemaOf {table : Table} {database : Database} {status : TableChainStatus} :
    Judged host (schemaOf table) database status ↔
      ∃ outcome, verifyRows host (schemaOf table) "" 0 (database.rows table).list = .ok outcome ∧
        ((∃ broken, outcome = .inl broken ∧ status = broken) ∨
          ∃ checkedRows previous expected, outcome = .inr (checkedRows, previous) ∧ anchoredHead database table = .ok expected ∧
            status = statusOf (schemaOf table) expected outcome) := by
  unfold Judged
  rw [schemaOf_table]

/-- That many rows fit behind the last rows of all tables. -/
def HasRoom (count : Nat) (database : Database) : Prop :=
  (count : Int) ≤ largestRowid ∧ ∀ table, ∀ row ∈ (database.rows table).list, row.rowid + count ≤ largestRowid

variable {database : Database} {entry : Entry} {prevHash : String} {rowid : Int}

theorem HasRoom.next {count : Nat} (room : HasRoom (count + 1) database) (appendable : Appendable host database entry prevHash rowid) :
    (∀ other ∈ (database.rows entry.table).list, other.rowid < rowid) ∧ rowid + count ≤ largestRowid := by
  have next := appendable.next
  unfold Rows.nextRowid at next
  cases last : (database.rows entry.table).list.getLast? with
  | none =>
    rw [last] at next
    have first : 1 = rowid := Option.some.inj next
    rw [List.getLast?_eq_none_iff.1 last]
    refine ⟨nofun, ?_⟩
    have fits := room.1
    push_cast at fits
    omega
  | some final =>
    simp only [last] at next
    obtain ⟨others, shape⟩ := List.getLast?_eq_some_iff.1 last
    have fits := room.2 entry.table final (by rw [shape]; simp)
    push_cast at fits
    rw [if_pos (by omega)] at next
    have behind : final.rowid + 1 = rowid := Option.some.inj next
    have ordered := (database.rows entry.table).ordered
    rw [shape, List.pairwise_append] at ordered
    refine ⟨fun other member => ?_, by omega⟩
    rw [shape] at member
    rcases List.mem_append.1 member with member | member
    · have below := ordered.2.2 other member final (by simp)
      omega
    · rw [List.mem_singleton.1 member]
      omega

theorem HasRoom.rows {count : Nat} (room : HasRoom (count + 1) database) (appendable : Appendable host database entry prevHash rowid) :
    ((database.appendEntry host entry prevHash rowid).rows entry.table).list =
      (database.rows entry.table).list ++ [sealedRow host (schemaOf entry.table) entry.content prevHash rowid] := by
  rw [appendEntry_rows]
  exact Rows.insert_last _ (room.next appendable).1

theorem HasRoom.append {count : Nat} (room : HasRoom (count + 1) database) (appendable : Appendable host database entry prevHash rowid) :
    HasRoom count (database.appendEntry host entry prevHash rowid) := by
  have fits := room.1
  push_cast at fits
  refine ⟨by omega, fun table row member => ?_⟩
  have older : ∀ other ∈ (database.rows table).list, other.rowid + count ≤ largestRowid := by
    intro other inside
    have before := room.2 table other inside
    push_cast at before
    omega
  by_cases same : table = entry.table
  · subst same
    rw [room.rows appendable] at member
    rcases List.mem_append.1 member with inside | inside
    · exact older row inside
    · rw [List.mem_singleton.1 inside]
      exact (room.next appendable).2
  · rw [appendEntry_rows_other same] at member
    exact older row member

theorem readRow_sealedRow (full : nullColumn (schemaOf entry.table) ((schemaOf entry.table).params entry.content) = none) :
    ∃ content, readRow (schemaOf entry.table) (sealedRow host (schemaOf entry.table) entry.content prevHash rowid) =
      .ok (content, prevHash, chainHash prevHash rowid ((schemaOf entry.table).contentText host entry.content)) := by
  have read : ∃ content, (schemaOf entry.table).read ((schemaOf entry.table).params entry.content) = .ok content := by
    obtain ⟨table, content⟩ := entry
    cases table with
    | compiledRules => exact ⟨_, compiledRules_read_params content⟩
    | certificates => exact ⟨_, certificates_read_params (certificates_number full)⟩
    | declaredSacrifices => exact ⟨_, declaredSacrifices_read_params (declaredSacrifices_number full)⟩
    | paradoxResults => exact ⟨_, paradoxResults_read_params content⟩
  obtain ⟨content, read⟩ := read
  refine ⟨content, ?_⟩
  unfold readRow
  rw [show (sealedRow host (schemaOf entry.table) entry.content prevHash rowid).columns = (schemaOf entry.table).params entry.content from rfl,
    read]
  rfl

theorem verifyRows_singleton {γ : Type} {schema : Schema γ} {row : Row} {content : γ} {previous last rowHash : String} {checked : Nat}
    (read : readRow schema row = .ok (content, previous, rowHash)) :
    ∃ outcome, verifyRows host schema last checked [row] = .ok outcome := by
  rw [verifyRows, read]
  simp only
  split
  · exact ⟨_, rfl⟩
  · split
    · exact ⟨_, rfl⟩
    · exact ⟨_, rfl⟩

/-- A table that verification can judge stays one that it can judge, and a break of its rows stays a break. -/
theorem judged_append {count : Nat} (room : HasRoom (count + 1) database) (appendable : Appendable host database entry prevHash rowid)
    {table : Table} {valid : Bool} (found : Finds host table database valid) :
    (∃ after, Finds host table (database.appendEntry host entry prevHash rowid) after) ∧
      (entry.table ≠ table → Finds host table (database.appendEntry host entry prevHash rowid) valid) ∧
      (RowsBroken host table database → RowsBroken host table (database.appendEntry host entry prevHash rowid)) := by
  by_cases same : table = entry.table
  · subst same
    have rows := room.rows appendable
    have rest : RowsBroken host entry.table database →
        RowsBroken host entry.table (database.appendEntry host entry prevHash rowid) := by
      rintro ⟨status, broken⟩
      exact ⟨status, by rw [rows]; exact verifyRows_append_inl broken⟩
    refine ⟨?_, fun differs => absurd rfl differs, rest⟩
    obtain ⟨status, judged, -⟩ := found
    obtain ⟨outcome, scanned, -⟩ := judged_schemaOf.1 judged
    have rescanned : ∃ outcome', verifyRows host (schemaOf entry.table) "" 0
        ((database.appendEntry host entry prevHash rowid).rows entry.table).list = .ok outcome' := by
      rw [rows]
      cases outcome with
      | inl broken => exact ⟨_, verifyRows_append_inl scanned⟩
      | inr ends =>
        obtain ⟨checkedRows, last⟩ := ends
        rw [verifyRows_append_inr scanned]
        obtain ⟨content, read⟩ := @readRow_sealedRow host entry prevHash rowid appendable.full
        exact verifyRows_singleton read
    obtain ⟨outcome', scanned'⟩ := rescanned
    cases outcome' with
    | inl broken => exact ⟨broken.valid, broken, judged_schemaOf.2 ⟨.inl broken, scanned', .inl ⟨broken, rfl, rfl⟩⟩, rfl⟩
    | inr ends =>
      obtain ⟨checkedRows, last⟩ := ends
      have anchored : anchoredHead (database.appendEntry host entry prevHash rowid) entry.table =
          .ok (some (((database.appendEntry host entry prevHash rowid).rows entry.table).list.length,
            chainHash prevHash rowid ((schemaOf entry.table).contentText host entry.content))) := by
        rw [anchoredHead, appendEntry_heads]
        rfl
      exact ⟨_, _, judged_schemaOf.2 ⟨_, scanned', .inr ⟨checkedRows, last, _, rfl, anchored, rfl⟩⟩, rfl⟩
  · have sameRows := @appendEntry_rows_other host database entry prevHash rowid table same
    have sameHeads := @appendEntry_heads_other host database entry prevHash rowid table same
    have still : Finds host table (database.appendEntry host entry prevHash rowid) valid := by
      obtain ⟨status, judged, validity⟩ := found
      obtain ⟨outcome, scanned, head⟩ := judged_schemaOf.1 judged
      refine ⟨status, judged_schemaOf.2 ⟨outcome, ?_, ?_⟩, validity⟩
      · rw [sameRows]
        exact scanned
      · rw [anchoredHead] at head ⊢
        rw [sameHeads]
        exact head
    refine ⟨⟨valid, still⟩, fun _ => still, ?_⟩
    rintro ⟨status, broken⟩
    exact ⟨status, by rw [sameRows]; exact broken⟩

theorem RowsBroken.finds {table : Table} (broken : RowsBroken host table database) : Finds host table database false := by
  obtain ⟨status, scanned⟩ := broken
  exact ⟨status, judged_schemaOf.2 ⟨.inl status, scanned, .inl ⟨status, rfl, rfl⟩⟩, (verifyRows_inl_invalid scanned).1⟩

/-- A table is left alone, or its rows are broken already. -/
def Spared (host : Host) (table : Table) (database : Database) (entries : List Entry) : Prop :=
  (∀ entry ∈ entries, entry.table ≠ table) ∨ RowsBroken host table database

theorem Grows.finds {before after : Database} {entries : List Entry} (grows : Grows host before entries after)
    (room : HasRoom entries.length before) (judged : ∀ other, ∃ valid, Finds host other before valid) {table : Table}
    (invalid : Finds host table before false) (spared : Spared host table before entries) :
    (∀ other, ∃ valid, Finds host other after valid) ∧ Finds host table after false := by
  induction grows with
  | nil => exact ⟨judged, invalid⟩
  | @cons start final entry rest prevHash rowid appendable _ ih =>
    have everywhere : ∀ other, ∃ valid, Finds host other (start.appendEntry host entry prevHash rowid) valid := by
      intro other
      obtain ⟨valid, found⟩ := judged other
      exact (judged_append room appendable found).1
    obtain ⟨-, elsewhere, still⟩ := judged_append room appendable invalid
    refine ih (room.append appendable) everywhere ?_ ?_
    · rcases spared with apart | broken
      · exact elsewhere (apart entry List.mem_cons_self)
      · exact (still broken).finds
    · exact spared.imp (fun apart other member => apart other (List.mem_cons_of_mem entry member)) still

end

section

/-- Calls that all succeed, each from a state and with rows that `allowed` admits. -/
inductive Recorded (host : Host) (allowed : Database → List Entry → Prop) : Database → List Call → Database → Prop
  | nil {database} : Recorded host allowed database [] database
  | cons {before between after call rest} : allowed before (call.entries host) → Leads (call.run host) before (.ok ⟨⟩) between →
      Recorded host allowed between rest after → Recorded host allowed before (call :: rest) after

def ChainVerificationResult.rejects (result : ChainVerificationResult) (table : Table) : Prop :=
  ∃ status ∈ result.tables, status.table = table.name ∧ status.valid = false

theorem Table.name_injective {left right : Table} (same : left.name = right.name) : left = right := by
  cases left <;> cases right <;> first | rfl | exact absurd same (by decide)

theorem Judged.table_name {γ : Type} {schema : Schema γ} {database : Database} {status : TableChainStatus}
    (judged : Judged host schema database status) : status.table = schema.table.name := by
  obtain ⟨outcome, scanned, ⟨broken, rfl, rfl⟩ | ⟨checkedRows, previous, expected, rfl, -, rfl⟩⟩ := judged
  · exact (verifyRows_inl_invalid scanned).2
  · unfold statusOf
    cases expected with
    | none => rfl
    | some head =>
      obtain ⟨rowCount, headHash⟩ := head
      simp only [compareHead]
      split
      · rfl
      · split
        · rfl
        · rfl

theorem AllJudged.rejects_iff {database : Database} {result : ChainVerificationResult} (judged : AllJudged host database result)
    (table : Table) : result.rejects table ↔ Finds host table database false := by
  obtain ⟨rules, certified, sacrifices, paradoxes, atRules, atCertified, atSacrifices, atParadoxes, rfl⟩ := judged
  have unique : ∀ {status status' : TableChainStatus}, Judged host (schemaOf table) database status →
      Judged host (schemaOf table) database status' → status = status' := by
    rintro status status' ⟨outcome, scanned, found⟩ ⟨outcome', scanned', found'⟩
    have same := Except.ok.inj (scanned.symm.trans scanned')
    subst same
    rcases found with ⟨broken, rfl, rfl⟩ | ⟨checkedRows, previous, expected, rfl, anchored, rfl⟩
    · rcases found' with ⟨broken', equal, rfl⟩ | ⟨_, _, _, differs, -⟩
      · exact Sum.inl.inj equal
      · cases differs
    · rcases found' with ⟨_, differs, -⟩ | ⟨checkedRows', previous', expected', -, anchored', rfl⟩
      · cases differs
      · rw [Except.ok.inj (anchored.symm.trans anchored')]
  have listed : ∃ status ∈ [rules, certified, sacrifices, paradoxes], Judged host (schemaOf table) database status := by
    cases table with
    | compiledRules => exact ⟨rules, by simp, atRules⟩
    | certificates => exact ⟨certified, by simp, atCertified⟩
    | declaredSacrifices => exact ⟨sacrifices, by simp, atSacrifices⟩
    | paradoxResults => exact ⟨paradoxes, by simp, atParadoxes⟩
  have named : ∀ status ∈ [rules, certified, sacrifices, paradoxes], status.table = table.name → Judged host (schemaOf table) database status := by
    intro status member name
    simp only [List.mem_cons, List.not_mem_nil, or_false] at member
    rcases member with rfl | rfl | rfl | rfl
    · rw [← Table.name_injective (atRules.table_name.symm.trans name)]
      exact atRules
    · rw [← Table.name_injective (atCertified.table_name.symm.trans name)]
      exact atCertified
    · rw [← Table.name_injective (atSacrifices.table_name.symm.trans name)]
      exact atSacrifices
    · rw [← Table.name_injective (atParadoxes.table_name.symm.trans name)]
      exact atParadoxes
  constructor
  · rintro ⟨status, member, name, invalid⟩
    exact ⟨status, named status member name, invalid⟩
  · rintro ⟨status, found, invalid⟩
    obtain ⟨status', member, found'⟩ := listed
    have same := unique found found'
    subst same
    exact ⟨status, member, by rw [found.table_name, schemaOf_table], invalid⟩

theorem AllJudged.finds {database : Database} {result : ChainVerificationResult} (judged : AllJudged host database result) (table : Table) :
    ∃ valid, Finds host table database valid := by
  obtain ⟨rules, certified, sacrifices, paradoxes, atRules, atCertified, atSacrifices, atParadoxes, -⟩ := judged
  cases table with
  | compiledRules => exact ⟨_, rules, atRules, rfl⟩
  | certificates => exact ⟨_, certified, atCertified, rfl⟩
  | declaredSacrifices => exact ⟨_, sacrifices, atSacrifices, rfl⟩
  | paradoxResults => exact ⟨_, paradoxes, atParadoxes, rfl⟩

theorem allJudged_of_finds {database : Database} (found : ∀ table, ∃ valid, Finds host table database valid) :
    ∃ result, AllJudged host database result := by
  obtain ⟨-, rules, atRules, -⟩ := found .compiledRules
  obtain ⟨-, certified, atCertified, -⟩ := found .certificates
  obtain ⟨-, sacrifices, atSacrifices, -⟩ := found .declaredSacrifices
  obtain ⟨-, paradoxes, atParadoxes, -⟩ := found .paradoxResults
  exact ⟨_, rules, certified, sacrifices, paradoxes, atRules, atCertified, atSacrifices, atParadoxes, rfl⟩

end

section

def deletedTail : Database := emptyLedger.setHead .paradoxResults ⟨.integer 1, .text "deleted"⟩

def deletedResult : ChainVerificationResult where
  valid := false
  tables := [validTableStatus .compiledRules 0, validTableStatus .certificates 0, validTableStatus .declaredSacrifices 0,
    invalidTableStatus .paradoxResults 0 "anchored row_count 1 does not match observed 0"]

def exampleRule : CompiledRule := ⟨"r", "1", [], .strategyproof, "f", "t"⟩

def withRule : Database := ((Call.run exampleHost (.compiledRule exampleRule)).on ⟨deletedTail, none⟩).2.store

/-- What the ledger holds after another paradox run. -/
def healed : Database := ((Call.run exampleHost (.paradoxResults "r" [] fun _ => 0)).on ⟨deletedTail, none⟩).2.store

theorem appendEntry_setHead (host : Host) (database : Database) (entry : Entry) (head : Head) (prevHash : String) (rowid : Int) :
    (database.setHead entry.table head).appendEntry host entry prevHash rowid = database.appendEntry host entry prevHash rowid := by
  show ({ rows := _, heads := Function.update (Function.update database.heads entry.table _) (schemaOf entry.table).table _ } : Database) = _
  rw [schemaOf_table, Function.update_idem]
  show _ = ({ rows := _, heads := Function.update database.heads (schemaOf entry.table).table _ } : Database)
  rw [schemaOf_table]
  rfl

theorem Written.of_setHead {host : Host} {fits : Entry → Prop} {database after : Database} {entry : Entry} {head : Head}
    (written : Written host fits database) (grows : Grows host (database.setHead entry.table head) [entry] after) (fit : fits entry) :
    Written host fits after := by
  rcases grows with _ | ⟨appendable, rest⟩
  cases rest
  rw [appendEntry_setHead]
  exact written.appendEntry ⟨appendable.last, appendable.full, appendable.next⟩ fit

end

end Legitimacy.Ledger
